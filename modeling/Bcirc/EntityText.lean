import Bcirc.EntityNames

/-!
# What the decoder makes of a text

`decoded` is the decoder without its pointers. Its result goes by one case
for each thing that can stand at the start of a text (`text_induction`):
a byte that is not `&`, a reference, an `&` that begins none. A reference
is longer than what it stands for, whichever way it is written, so a text
keeps its length only when there is nothing in it to decode.
-/

namespace Bcirc

open CStr

/-! ## References get shorter -/

theorem length_putcUtf8_le (cp : Nat) : (putcUtf8 cp).length ≤ 4 := by
  unfold putcUtf8
  repeat' split
  all_goals simp

theorem length_putcUtf8_ascii {cp : Nat} (h : cp ≤ 0x7F) : (putcUtf8 cp).length = 1 := by
  unfold putcUtf8
  rw [if_pos h]
  rfl

/-- What `parse_entity` accepts between `&#` and the semicolon. -/
theorem of_parseNumeric {current : Str} {semicolon cp : Nat}
    (h : parseNumeric current semicolon = some cp) :
    cp ≤ unicodeMax ∧ ∃ start base, (start = 2 ∨ start = 3 ∧ current[2]? ≠ some 38) ∧ base ≤ 36 ∧
      (strtoul (current.drop start) base).value = cp ∧
      start + (strtoul (current.drop start) base).tail = semicolon := by
  unfold parseNumeric at h
  generalize hhex : (current[2]? == some 120 || current[2]? == some 88) = hex at h
  have hstart : (if hex then 3 else 2) = 2 ∨ (if hex then 3 else 2) = 3 ∧ current[2]? ≠ some 38 := by
    cases hex with
    | false => exact Or.inl rfl
    | true =>
        refine Or.inr ⟨rfl, fun h38 => ?_⟩
        rw [h38] at hhex
        cases hhex
  have hbase : (if hex then 16 else 10) ≤ 36 := by split <;> omega
  simp only at h
  generalize (if hex then 3 else 2) = start at h hstart
  generalize (if hex then 16 else 10) = base at h hbase
  split at h
  · cases h
  · rename_i hok
    simp only [Bool.or_eq_true, bne_iff_ne, decide_eq_true_eq, not_or, Nat.not_lt,
      Decidable.not_not] at hok
    obtain rfl := Option.some.inj h
    exact ⟨hok.2, start, base, hstart, hbase, rfl, hok.1.2⟩

/-- The code point of the reference by number at the start of a text. -/
def numericReference (current : Str) : Option Nat :=
  match memchr current 59 with
  | none => none
  | some semicolon => if current[1]? = some 35 then parseNumeric current semicolon else none

/-- A reference is one by number or one by name. -/
theorem of_parseEntity {s bytes : Str} {len : Nat} (h : parseEntity (38 :: s) = some (bytes, len)) :
    (∃ cp semicolon, numericReference (38 :: s) = some cp ∧ s[0]? = some 35 ∧
      memchr (38 :: s) 59 = some semicolon ∧ parseNumeric (38 :: s) semicolon = some cp ∧
      bytes = putcUtf8 cp ∧ len = semicolon + 1) ∨
    ∃ name, numericReference (38 :: s) = none ∧ (name, bytes) ∈ namedEntities ∧ name <+: s ∧
      len = name.length + 1 := by
  unfold numericReference
  by_cases hhash : s[0]? = some 35
  · unfold parseEntity at h
    cases hsemi : memchr (38 :: s) 59 with
    | none =>
        rw [hsemi] at h
        cases h
    | some semicolon =>
        rw [hsemi] at h
        simp only [List.getElem?_cons_succ] at h ⊢
        rw [if_pos hhash] at h ⊢
        obtain ⟨cp, hcp, heq⟩ := Option.map_eq_some_iff.mp h
        obtain ⟨rfl, rfl⟩ := Prod.mk.inj heq
        exact Or.inl ⟨cp, semicolon, hcp, hhash, rfl, hcp, rfl, rfl⟩
  · obtain ⟨name, hmem, hprefix, hlen⟩ := of_parseEntity_named hhash h
    refine Or.inr ⟨name, ?_, hmem, hprefix, hlen⟩
    simp only [List.getElem?_cons_succ]
    split
    · rfl
    · exact if_neg hhash

/-- A reference lies inside the text, and is longer than its character. -/
theorem parseEntity_bounds {s bytes : Str} {len : Nat}
    (h : parseEntity (38 :: s) = some (bytes, len)) :
    bytes.length < len ∧ len ≤ (38 :: s).length := by
  rcases of_parseEntity h with ⟨cp, semicolon, -, -, hsemi, hcp, rfl, rfl⟩ |
    ⟨name, -, hmem, ⟨rest, rfl⟩, rfl⟩
  · obtain ⟨a, b, hcut, -, hlen⟩ := of_memchr_some hsemi
    have hall := congrArg List.length hcut
    rw [List.length_append, List.length_cons, List.length_cons] at hall
    obtain ⟨hmax, start, base, hstart, hbase, hvalue, htail⟩ := of_parseNumeric hcp
    refine ⟨?_, by rw [List.length_cons]; omega⟩
    -- one byte of a number is not enough for more than one byte of UTF-8
    by_cases hone : (strtoul ((38 :: s).drop start) base).tail ≤ 1
    · have hsmall : cp < 36 := by
        rcases strtoul_tail_le_one hbase hone with hlt | hgt
        · omega
        · unfold ulongMax at hgt
          unfold unicodeMax at hmax
          omega
      rw [length_putcUtf8_ascii (by omega)]
      omega
    · have hle := length_putcUtf8_le cp
      omega
  · have hshort := (entityRow_of_mem hmem).short
    simp only [List.length_cons, List.length_append] at hshort ⊢
    omega

theorem not_scanned_amp : ¬ Scanned 38 := by
  rintro (h | h | h | h)
  all_goals cases h

/-- No other `&` is part of a reference. -/
theorem amp_not_mem_reference {s bytes : Str} {len : Nat}
    (h : parseEntity (38 :: s) = some (bytes, len)) : 38 ∉ s.take (len - 1) := by
  rcases of_parseEntity h with ⟨cp, semicolon, -, hhash, hsemi, hcp, rfl, rfl⟩ |
    ⟨name, -, hmem, ⟨rest, rfl⟩, rfl⟩
  · obtain ⟨-, start, base, hstart, hbase, -, htail⟩ := of_parseNumeric hcp
    have hscan : 38 ∉ ((38 :: s).drop start).take (strtoul ((38 :: s).drop start) base).tail :=
      fun hmem => not_scanned_amp (strtoul_scans hbase hmem)
    generalize (strtoul ((38 :: s).drop start) base).tail = tail at htail hscan
    intro hmem
    obtain ⟨i, hi⟩ := List.mem_iff_getElem?.mp hmem
    rw [List.getElem?_take] at hi
    split at hi
    · -- behind `&`: the `#`, an `x`, what `strtoul` went through, the semicolon
      have hcurrent : (38 :: s)[i + 1]? = some 38 := hi
      rcases Nat.lt_or_ge (i + 1) start with hlt | hge
      · rcases Nat.eq_zero_or_pos i with rfl | hpos
        · rw [hhash] at hi
          cases hi
        · obtain ⟨rfl, h2⟩ := hstart.resolve_left (by omega)
          obtain rfl : i = 1 := by omega
          exact h2 hcurrent
      · rcases Nat.lt_or_ge (i + 1) (start + tail) with hlt | hge'
        · refine hscan (List.mem_iff_getElem?.mpr ⟨i + 1 - start, ?_⟩)
          rw [List.getElem?_take, if_pos (by omega), List.getElem?_drop, Nat.add_sub_of_le hge]
          exact hcurrent
        · obtain ⟨a, b, hcut, -, hlen⟩ := of_memchr_some hsemi
          have hlast : i + 1 = a.length := by omega
          rw [hcut, hlast, List.getElem?_append_right (Nat.le_refl _), Nat.sub_self] at hcurrent
          cases hcurrent
    · cases hi
  · rw [Nat.add_sub_cancel, List.take_left]
    exact (entityRow_of_mem hmem).noAmp

/-! ## The text -/

/-- The first `n` bytes belong to a reference that is done. -/
def decodedFrom : Nat → Str → Str
  | _, [] => []
  | n + 1, _ :: s => decodedFrom n s
  | 0, c :: s =>
      if c = 38 then
        match parseEntity (c :: s) with
        | some (bytes, len) => bytes ++ decodedFrom (len - 1) s
        | none => c :: decodedFrom 0 s
      else c :: decodedFrom 0 s

/-- What `decode_html_entities_utf8` makes of a text. -/
def decoded (s : Str) : Str := decodedFrom 0 s

theorem decodedFrom_eq (n : Nat) (s : Str) : decodedFrom n s = decoded (s.drop n) := by
  induction s generalizing n with
  | nil =>
      rw [List.drop_nil]
      cases n <;> rfl
  | cons c s ih =>
      cases n with
      | zero => rfl
      | succ n => exact ih n

theorem decoded_nil : decoded [] = [] := rfl

theorem decoded_plain {c : UInt8} (hc : c ≠ 38) (s : Str) : decoded (c :: s) = c :: decoded s := by
  rw [decoded, decodedFrom, if_neg hc]
  rfl

theorem decoded_reference {s bytes : Str} {len : Nat}
    (h : parseEntity (38 :: s) = some (bytes, len)) :
    decoded (38 :: s) = bytes ++ decoded ((38 :: s).drop len) := by
  obtain ⟨hpos, -⟩ := parseEntity_bounds h
  obtain ⟨n, rfl⟩ : ∃ n, len = n + 1 := ⟨len - 1, by omega⟩
  rw [decoded, decodedFrom, if_pos rfl, h]
  simp only [Nat.add_sub_cancel]
  rw [decodedFrom_eq, List.drop_succ_cons]

theorem decoded_amp {s : Str} (h : parseEntity (38 :: s) = none) :
    decoded (38 :: s) = 38 :: decoded s := by
  rw [decoded, decodedFrom, if_pos rfl, h]
  rfl

theorem decoded_append_plain {a : Str} (ha : 38 ∉ a) (s : Str) :
    decoded (a ++ s) = a ++ decoded s := by
  induction a with
  | nil => rfl
  | cons c a ih =>
      rw [List.mem_cons, not_or] at ha
      rw [List.cons_append, decoded_plain (Ne.symm ha.1), ih ha.2, List.cons_append]

/-- Induction along the references of a text. -/
theorem text_induction {P : Str → Prop} (nil : P [])
    (plain : ∀ c s, c ≠ 38 → P s → P (c :: s))
    (reference : ∀ s bytes len, parseEntity (38 :: s) = some (bytes, len) →
      P ((38 :: s).drop len) → P (38 :: s))
    (amp : ∀ s, parseEntity (38 :: s) = none → P s → P (38 :: s)) (s : Str) : P s := by
  induction hn : s.length using Nat.strong_induction_on generalizing s with
  | _ n ih =>
      cases s with
      | nil => exact nil
      | cons c s =>
          rw [List.length_cons] at hn
          by_cases hc : c = 38
          · subst hc
            cases hparse : parseEntity (38 :: s) with
            | none => exact amp s hparse (ih s.length (by omega) s rfl)
            | some r =>
                obtain ⟨bytes, len⟩ := r
                obtain ⟨hpos, -⟩ := parseEntity_bounds hparse
                refine reference s bytes len hparse (ih _ ?_ _ rfl)
                rw [List.length_drop, List.length_cons]
                omega
          · exact plain c s hc (ih s.length (by omega) s rfl)

theorem length_decoded_le (s : Str) : (decoded s).length ≤ s.length := by
  induction s using text_induction with
  | nil => exact Nat.le_refl _
  | plain c s hc ih =>
      rw [decoded_plain hc, List.length_cons, List.length_cons]
      omega
  | reference s bytes len h ih =>
      obtain ⟨hshort, hin⟩ := parseEntity_bounds h
      rw [List.length_drop] at ih
      rw [decoded_reference h, List.length_append]
      omega
  | amp s h ih =>
      rw [decoded_amp h, List.length_cons, List.length_cons]
      omega

/-! ## What holds of all references -/

/-- Every reference in the text stands for bytes with `Q`. -/
def References (Q : Str → Prop) (s : Str) : Prop :=
  ∀ t bytes len, (38 :: t) <:+ s → parseEntity (38 :: t) = some (bytes, len) → Q bytes

section References

variable {Q : Str → Prop}

theorem references_nil : References Q [] := by
  intro t bytes len ht
  cases List.suffix_nil.mp ht

theorem references_append_iff {a : Str} (ha : 38 ∉ a) (s : Str) :
    References Q (a ++ s) ↔ References Q s := by
  constructor
  · exact fun h t bytes len ht => h t bytes len (ht.trans (List.suffix_append a s))
  · intro h t bytes len ht
    refine h t bytes len ?_
    induction a with
    | nil => exact ht
    | cons c a ih =>
        rw [List.mem_cons, not_or] at ha
        rcases List.suffix_cons_iff.mp ht with heq | ht
        · exact absurd (List.cons.inj heq).1 ha.1
        · exact ih ha.2 ht

theorem references_cons_iff (s : Str) :
    References Q (38 :: s) ↔
      (∀ bytes len, parseEntity (38 :: s) = some (bytes, len) → Q bytes) ∧ References Q s := by
  constructor
  · exact fun h => ⟨fun bytes len => h s bytes len List.suffix_rfl,
      fun t bytes len ht => h t bytes len (ht.trans (List.suffix_cons 38 s))⟩
  · rintro ⟨hhead, htail⟩ t bytes len ht hparse
    rcases List.suffix_cons_iff.mp ht with heq | ht
    · obtain rfl := (List.cons.inj heq).2
      exact hhead bytes len hparse
    · exact htail t bytes len ht hparse

/-- Nothing inside a reference is one. -/
theorem references_reference_iff {s bytes : Str} {len : Nat}
    (h : parseEntity (38 :: s) = some (bytes, len)) :
    References Q (38 :: s) ↔ Q bytes ∧ References Q ((38 :: s).drop len) := by
  obtain ⟨hpos, -⟩ := parseEntity_bounds h
  obtain ⟨n, rfl⟩ : ∃ n, len = n + 1 := ⟨len - 1, by omega⟩
  have hfree := amp_not_mem_reference h
  rw [Nat.add_sub_cancel] at hfree
  have hrest : References Q s ↔ References Q (s.drop n) := by
    have happ := references_append_iff (Q := Q) hfree (s.drop n)
    rwa [List.take_append_drop] at happ
  rw [references_cons_iff, hrest, List.drop_succ_cons, h]
  constructor
  · rintro ⟨hQ, hall⟩
    exact ⟨hQ bytes (n + 1) rfl, hall⟩
  · rintro ⟨hQ, hall⟩
    refine ⟨fun b l heq => ?_, hall⟩
    obtain ⟨rfl, -⟩ := Prod.mk.inj (Option.some.inj heq)
    exact hQ

theorem references_amp_iff {s : Str} (h : parseEntity (38 :: s) = none) :
    References Q (38 :: s) ↔ References Q s := by
  rw [references_cons_iff, h]
  exact ⟨fun hall => hall.2, fun hall => ⟨fun b l heq => (Option.some_ne_none _ heq.symm).elim, hall⟩⟩

end References

/-- No `&` of the text begins a reference. -/
def NoReference (s : Str) : Prop := References (fun _ => False) s

theorem decoded_of_noReference {s : Str} (h : NoReference s) : decoded s = s := by
  induction s using text_induction with
  | nil => rfl
  | plain c s hc ih =>
      rw [decoded_plain hc, ih ((references_append_iff (a := [c]) (by simpa using hc.symm) s).mp h)]
  | reference s bytes len hparse _ => exact ((references_reference_iff hparse).mp h).1.elim
  | amp s hparse ih => rw [decoded_amp hparse, ih ((references_amp_iff hparse).mp h)]

theorem noReference_of_length {s : Str} (h : (decoded s).length = s.length) : NoReference s := by
  induction s using text_induction with
  | nil => exact references_nil
  | plain c s hc ih =>
      rw [decoded_plain hc, List.length_cons, List.length_cons, Nat.add_right_cancel_iff] at h
      exact (references_append_iff (a := [c]) (by simpa using hc.symm) s).mpr (ih h)
  | reference s bytes len hparse _ =>
      obtain ⟨hshort, hin⟩ := parseEntity_bounds hparse
      have hle := length_decoded_le ((38 :: s).drop len)
      rw [List.length_drop] at hle
      rw [decoded_reference hparse, List.length_append] at h
      omega
  | amp s hparse ih =>
      rw [decoded_amp hparse, List.length_cons, List.length_cons,
        Nat.add_right_cancel_iff] at h
      exact (references_amp_iff hparse).mpr (ih h)

/-- The length that is returned tells whether there was anything to decode. -/
theorem length_decoded_eq_iff (s : Str) :
    ((decoded s).length = s.length ↔ NoReference s) ∧ (decoded s = s ↔ NoReference s) :=
  ⟨⟨noReference_of_length, fun h => congrArg List.length (decoded_of_noReference h)⟩,
    ⟨fun h => noReference_of_length (congrArg List.length h), decoded_of_noReference⟩⟩

end Bcirc
