import Mathlib.Algebra.Group.Nat.Defs
import Bcirc.EntitiesInPlace
import Bcirc.Utf8

/-!
# What a text with references means

A page may write a character as itself, by its name in the table, or by its
number in decimal or hexadecimal digits, with as many zeros in front as it
likes. `Spells` are all these ways; the decoder undoes every one of them
(`decoded_of_spells`). What it makes of a text in UTF-8 is text in UTF-8 again
unless a number names a surrogate, which `putc_utf8` does not refuse
(`valid_decoded_iff_references`).
-/

namespace Bcirc

open CProg CStr CMem Utf8

/-! ## `putc_utf8` encodes -/

theorem or_low {a i b : Nat} (h : b < 2 ^ i) :
    ((a <<< i) ||| b).toUInt8 = UInt8.ofNat (b + a <<< i) := by
  rw [← Nat.shiftLeft_add_eq_or_of_lt h, Nat.add_comm]

theorem tailByte_eq (n : Nat) :
    ((2 <<< 6) ||| (n &&& 0x3F)).toUInt8 = UInt8.ofNat (n % 64 + 0x80) := by
  have hmod : n &&& 0x3F = n % 64 := Nat.and_two_pow_sub_one_eq_mod n 6
  have hlow : n % 64 < 2 ^ 6 := Nat.mod_lt n (by decide)
  rw [hmod, or_low hlow]
  rfl

theorem putcUtf8_eq_encode {cp : Nat} (h : cp ≤ unicodeMax) : putcUtf8 cp = encode cp := by
  unfold unicodeMax at h
  unfold putcUtf8 encode
  split
  · rfl
  split
  · rw [tailByte_eq, or_low (by rw [Nat.shiftRight_eq_div_pow]; omega),
      Nat.shiftRight_eq_div_pow]
    rfl
  split
  · rw [tailByte_eq, tailByte_eq, or_low (by rw [Nat.shiftRight_eq_div_pow]; omega),
      Nat.shiftRight_eq_div_pow, Nat.shiftRight_eq_div_pow]
    rfl
  · rw [tailByte_eq, tailByte_eq, tailByte_eq,
      or_low (by rw [Nat.shiftRight_eq_div_pow]; omega), Nat.shiftRight_eq_div_pow,
      Nat.shiftRight_eq_div_pow, Nat.shiftRight_eq_div_pow]
    rfl

theorem putcUtf8_char (c : Char) : putcUtf8 c.toNat = String.utf8EncodeChar c := by
  rw [putcUtf8_eq_encode (toNat_le c), utf8EncodeChar_eq]

/-! ## Ways to write a character -/

/-- The digits of a number in a base. -/
structure Digits (base : Nat) (digits : Str) (n : Nat) : Prop where
  nonempty : digits ≠ []
  all : ∀ d ∈ digits, isDigitOf base d
  value : numeral base digits = n

/-- A reference to a character. -/
inductive Reference : Str → Char → Prop where
  | named {row : String × Char} (h : row ∈ entityRows) : Reference (38 :: ascii row.1) row.2
  | decimal {digits : Str} {c : Char} (h : Digits 10 digits c.toNat) :
      Reference (38 :: 35 :: digits ++ [59]) c
  | hexadecimal {x : UInt8} {digits : Str} {c : Char} (hx : x = 120 ∨ x = 88)
      (h : Digits 16 digits c.toNat) : Reference (38 :: 35 :: x :: digits ++ [59]) c

theorem Digits.strtoul {base n : Nat} {digits : Str} (h : Digits base digits n)
    (hbase : base ≤ 16) (hn : n ≤ unicodeMax) (s : Str) :
    strtoul (digits ++ 59 :: s) base = ⟨n, digits.length, false⟩ := by
  have hmax : numeral base digits ≤ ulongMax := by
    rw [h.value]
    exact hn.trans (by decide)
  rw [strtoul_digits hbase h.nonempty h.all hmax, h.value]

theorem Digits.semicolon_not_mem {base n : Nat} {digits : Str} (h : Digits base digits n)
    (hbase : base ≤ 36) : 59 ∉ digits := fun hmem => by
  have hdigit := h.all 59 hmem
  rw [not_digitOf hbase (digitValue_not_digit (by simp))] at hdigit
  cases hdigit

/-- The first digit is taken for an `x` neither. -/
theorem Digits.head_not_hex {n : Nat} {digits : Str} (h : Digits 10 digits n) (s : Str) :
    (digits ++ s)[0]? ≠ some 120 ∧ (digits ++ s)[0]? ≠ some 88 := by
  obtain ⟨d, t, rfl⟩ := List.exists_cons_of_ne_nil h.nonempty
  have hd := h.all d List.mem_cons_self
  rw [List.cons_append, List.getElem?_cons_zero]
  constructor
  · rintro ⟨⟩
    cases hd
  · rintro ⟨⟩
    cases hd

theorem parseEntity_of_number {t : Str} {semicolon cp : Nat} (hhash : t[0]? = some 35)
    (hsemi : memchr (38 :: t) 59 = some semicolon)
    (hcp : parseNumeric (38 :: t) semicolon = some cp) :
    parseEntity (38 :: t) = some (putcUtf8 cp, semicolon + 1) := by
  unfold parseEntity
  rw [hsemi]
  simp only [List.getElem?_cons_succ]
  rw [if_pos hhash, hcp]
  rfl

/-- A reference is read as it is meant, whatever stands behind it. -/
theorem Reference.parse {r : Str} {c : Char} (h : Reference r c) (s : Str) :
    ∃ t, r = 38 :: t ∧
      parseEntity (38 :: (t ++ s)) = some (String.utf8EncodeChar c, t.length + 1) := by
  cases h with
  | @named row hrow =>
      have hmem : (ascii row.1, String.utf8EncodeChar row.2) ∈ namedEntities :=
        List.mem_map.mpr ⟨row, hrow, rfl⟩
      exact ⟨_, rfl, parseEntity_of_name hmem (List.prefix_append _ s)⟩
  | @decimal digits c hd =>
      obtain ⟨hx, hX⟩ := hd.head_not_hex (59 :: s)
      have hsemi : memchr (38 :: 35 :: (digits ++ 59 :: s)) 59 = some (digits.length + 2) :=
        memchr_append (s := 38 :: 35 :: digits)
          (by simpa using hd.semicolon_not_mem (by decide)) s
      have hnumeric : parseNumeric (38 :: 35 :: (digits ++ 59 :: s)) (digits.length + 2) =
          some c.toNat := by
        have hdecimal : ((digits ++ 59 :: s)[0]? == some 120 ||
            (digits ++ 59 :: s)[0]? == some 88) = false :=
          Bool.or_eq_false_iff.mpr ⟨beq_false_of_ne hx, beq_false_of_ne hX⟩
        unfold parseNumeric
        simp only [List.getElem?_cons_succ, hdecimal, Bool.false_eq_true, if_false,
          List.drop_succ_cons, List.drop_zero, hd.strtoul (by decide) (toNat_le c) s]
        have hle : ¬ unicodeMax < c.toNat := Nat.not_lt.mpr (toNat_le c)
        rw [Nat.add_comm 2, bne_self_eq_false, decide_eq_false hle]
        rfl
      refine ⟨35 :: digits ++ [59], rfl, ?_⟩
      have hparse := parseEntity_of_number rfl hsemi hnumeric
      rw [putcUtf8_char] at hparse
      simpa using hparse
  | @hexadecimal x digits c hx hd =>
      have hsemi : memchr (38 :: 35 :: x :: (digits ++ 59 :: s)) 59 =
          some (digits.length + 3) := by
        have hx59 : x ≠ 59 := by rcases hx with rfl | rfl <;> decide
        exact memchr_append (s := 38 :: 35 :: x :: digits)
          (by simpa using ⟨hx59.symm, hd.semicolon_not_mem (by decide)⟩) s
      have hnumeric : parseNumeric (38 :: 35 :: x :: (digits ++ 59 :: s)) (digits.length + 3) =
          some c.toNat := by
        have hhex : (some x == some 120 || some x == some 88) = true := by
          rcases hx with rfl | rfl <;> rfl
        unfold parseNumeric
        simp only [List.getElem?_cons_succ, List.getElem?_cons_zero, hhex, if_true,
          List.drop_succ_cons, List.drop_zero, hd.strtoul (by decide) (toNat_le c) s]
        have hle : ¬ unicodeMax < c.toNat := Nat.not_lt.mpr (toNat_le c)
        rw [Nat.add_comm 3, bne_self_eq_false, decide_eq_false hle]
        rfl
      refine ⟨35 :: x :: digits ++ [59], rfl, ?_⟩
      have hparse := parseEntity_of_number rfl hsemi hnumeric
      rw [putcUtf8_char] at hparse
      simpa using hparse

/-- The bytes of a page that stand for a text. -/
inductive Spells : Str → List Char → Prop where
  | nil : Spells [] []
  | itself {c : Char} {s : Str} {cs : List Char} (hc : c ≠ '&') (h : Spells s cs) :
      Spells (String.utf8EncodeChar c ++ s) (c :: cs)
  | reference {r : Str} {c : Char} {s : Str} {cs : List Char} (hr : Reference r c)
      (h : Spells s cs) : Spells (r ++ s) (c :: cs)

/-! ## The decoder undoes them -/

theorem amp_not_mem_char {c : Char} (hc : c ≠ '&') : 38 ∉ String.utf8EncodeChar c := by
  intro hmem
  rw [utf8EncodeChar_eq] at hmem
  by_cases hascii : c.toNat ≤ 0x7F
  · rw [encode_ascii hascii, List.mem_singleton] at hmem
    have hnat := congrArg UInt8.toNat hmem
    rw [toNat_ofNat (by omega)] at hnat
    exact hc (Char.toNat_inj.mp hnat.symm)
  · have hle := le_of_mem_encode (by omega) (toNat_le c) hmem
    exact absurd hle (by decide)

theorem decoded_of_reference {r : Str} {c : Char} (h : Reference r c) (s : Str) :
    decoded (r ++ s) = String.utf8EncodeChar c ++ decoded s := by
  obtain ⟨t, rfl, hparse⟩ := h.parse s
  rw [List.cons_append, decoded_reference hparse, List.drop_succ_cons, List.drop_left]

theorem decoded_of_spells {s : Str} {cs : List Char} (h : Spells s cs) :
    decoded s = text cs := by
  induction h with
  | nil => rfl
  | itself hc _ ih => rw [decoded_append_plain (amp_not_mem_char hc), ih, text_cons]
  | reference hr _ ih => rw [decoded_of_reference hr, ih, text_cons]

/-- Whichever ways a page writes the characters of a text, decoding it in
place leaves the text, in UTF-8. -/
theorem decodeHtmlEntitiesUtf8_spells {mem : Mem} {dest : Nat} {s : Str} {cs : List Char}
    (hs : HoldsAt mem dest s) (h : Spells s cs) :
    decodeHtmlEntitiesUtf8 dest none mem =
      .ok (text cs).length (overwrite mem dest (text cs ++ [0])) := by
  have hrun := decodeHtmlEntitiesUtf8_ok none hs hs.bound
    (Or.inl (Nat.le_refl dest))
  rwa [decoded_of_spells h] at hrun

theorem spells_sample : Spells (ascii "a&#060;&#x3C;&lt;") ['a', '<', '<', '<'] :=
  .itself (c := 'a') (by decide)
    (.reference (@Reference.decimal (ascii "060") '<' ⟨by decide, List.all_eq_true.mp rfl, rfl⟩)
      (.reference (@Reference.hexadecimal 120 (ascii "3C") '<' (Or.inl rfl)
          ⟨by decide, List.all_eq_true.mp rfl, rfl⟩)
        (.reference (@Reference.named ("lt;", '<') (by decide +kernel)) .nil)))

theorem decodeHtmlEntitiesUtf8_spells_sample :
    decodeHtmlEntitiesUtf8 0 none (ascii "a&#060;&#x3C;&lt;" ++ [0]) =
      .ok (text ['a', '<', '<', '<']).length
        (overwrite (ascii "a&#060;&#x3C;&lt;" ++ [0]) 0 (text ['a', '<', '<', '<'] ++ [0])) :=
  decodeHtmlEntitiesUtf8_spells ⟨by decide, [], rfl⟩ spells_sample

/-! ## UTF-8 in, UTF-8 out -/

theorem encoded_reference {s bytes : Str} {len : Nat}
    (h : parseEntity (38 :: s) = some (bytes, len)) : ∃ cp, cp ≤ 0x10FFFF ∧ bytes = encode cp := by
  rcases of_parseEntity h with ⟨cp, _, -, -, -, hcp, rfl, -⟩ | ⟨name, -, hmem, -, -⟩
  · exact ⟨cp, (of_parseNumeric hcp).1, putcUtf8_eq_encode (of_parseNumeric hcp).1⟩
  · obtain ⟨row, -, hrow⟩ := List.mem_map.mp hmem
    refine ⟨row.2.toNat, toNat_le row.2, ?_⟩
    rw [← utf8EncodeChar_eq]
    exact (Prod.mk.inj hrow).2.symm

/-- A reference ends in a semicolon. -/
theorem parseEntity_ends {s bytes : Str} {len : Nat}
    (h : parseEntity (38 :: s) = some (bytes, len)) :
    ∃ a b, 38 :: s = a ++ 59 :: b ∧ (38 :: s).drop len = b := by
  have hsemi : ∃ semicolon, memchr (38 :: s) 59 = some semicolon ∧ len = semicolon + 1 := by
    rcases of_parseEntity h with ⟨_, semicolon, -, -, hsemi, -, -, rfl⟩ |
      ⟨name, -, hmem, hprefix, rfl⟩
    · exact ⟨semicolon, hsemi, rfl⟩
    · exact ⟨name.length, memchr_of_name hmem hprefix, rfl⟩
  obtain ⟨semicolon, hat, rfl⟩ := hsemi
  obtain ⟨a, b, hcut, -, rfl⟩ := of_memchr_some hat
  refine ⟨a, b, hcut, ?_⟩
  rw [hcut, List.drop_append, List.drop_eq_nil_of_le (Nat.le_succ _), List.nil_append,
    Nat.add_sub_cancel_left]
  rfl

/-- References are the only thing that can spoil a text. -/
theorem valid_decoded_iff_references (cs : List Char) :
    Valid (decoded (text cs)) ↔ References Valid (text cs) := by
  induction hn : cs.length using Nat.strong_induction_on generalizing cs with
  | _ n ih =>
      cases cs with
      | nil => exact iff_of_true valid_nil references_nil
      | cons c cs =>
          rw [List.length_cons] at hn
          have hrest := ih cs.length (by omega) cs rfl
          by_cases hc : c = '&'
          · subst hc
            have hamp : text ('&' :: cs) = 38 :: text cs := rfl
            rw [hamp]
            cases hparse : parseEntity (38 :: text cs) with
            | none =>
                rw [decoded_amp hparse, references_amp_iff hparse, ← hrest]
                exact valid_char_append_iff '&' _
            | some r =>
                obtain ⟨bytes, len⟩ := r
                -- behind the semicolon of the reference the text goes on
                obtain ⟨ds, hds, hlen⟩ : ∃ ds, (38 :: text cs).drop len = text ds ∧
                    ds.length < n := by
                  obtain ⟨a, b, hcut, hdrop⟩ := parseEntity_ends hparse
                  obtain ⟨cs₁, d, ds, hcs, -, -, rfl⟩ :=
                    of_text_eq_append_ascii (by decide) (hamp.trans hcut)
                  have hlen := congrArg List.length hcs
                  rw [List.length_append, List.length_cons, List.length_cons] at hlen
                  exact ⟨ds, hdrop, by omega⟩
                obtain ⟨cp, hmax, rfl⟩ := encoded_reference hparse
                rw [decoded_reference hparse, references_reference_iff hparse, hds,
                  valid_encode_append_iff hmax, valid_encode_iff hmax, ih ds.length hlen ds rfl]
          · have hfree := amp_not_mem_char hc
            rw [text_cons, decoded_append_plain hfree, references_append_iff hfree,
              valid_char_append_iff, hrest]

/-- Every reference stands for a character when no number is a surrogate. -/
theorem references_valid_iff (s : Str) :
    References Valid s ↔
      ∀ t cp, (38 :: t) <:+ s → numericReference (38 :: t) = some cp → ¬ IsSurrogate cp := by
  constructor
  · intro h t cp ht hcp
    have hmax : cp ≤ 0x10FFFF ∧ ∃ len, parseEntity (38 :: t) = some (encode cp, len) := by
      unfold numericReference at hcp
      cases hsemi : memchr (38 :: t) 59 with
      | none =>
          rw [hsemi] at hcp
          cases hcp
      | some semicolon =>
          rw [hsemi] at hcp
          simp only [List.getElem?_cons_succ] at hcp
          split at hcp
          · rename_i hhash
            have hle := (of_parseNumeric hcp).1
            have hparse := parseEntity_of_number hhash hsemi hcp
            rw [putcUtf8_eq_encode hle] at hparse
            exact ⟨hle, _, hparse⟩
          · cases hcp
    obtain ⟨hle, len, hparse⟩ := hmax
    exact (valid_encode_iff hle).mp (h t _ len ht hparse)
  · intro h t bytes len ht hparse
    rcases of_parseEntity hparse with ⟨cp, _, hnumeric, -, -, hcp, rfl, -⟩ |
      ⟨name, -, hmem, -, -⟩
    · have hmax := (of_parseNumeric hcp).1
      rw [putcUtf8_eq_encode hmax, valid_encode_iff hmax]
      exact h t cp ht hnumeric
    · obtain ⟨row, -, hrow⟩ := List.mem_map.mp hmem
      rw [← (Prod.mk.inj hrow).2]
      exact valid_char row.2

/-- Decoding text in UTF-8 in place leaves text in UTF-8 exactly when no
reference in it is the number of a surrogate. -/
theorem decodeHtmlEntitiesUtf8_utf8_iff {mem : Mem} {dest : Nat} {cs : List Char}
    (hs : HoldsAt mem dest (text cs)) :
    ∃ out, decodeHtmlEntitiesUtf8 dest none mem =
        .ok out.length (overwrite mem dest (out ++ [0])) ∧
      (Valid out ↔ ∀ t cp, (38 :: t) <:+ text cs →
        numericReference (38 :: t) = some cp → ¬ IsSurrogate cp) :=
  ⟨decoded (text cs), decodeHtmlEntitiesUtf8_ok none hs hs.bound (Or.inl (Nat.le_refl dest)),
    (valid_decoded_iff_references cs).trans (references_valid_iff (text cs))⟩

theorem decodeHtmlEntitiesUtf8_utf8_iff_sample :
    ∃ out, decodeHtmlEntitiesUtf8 0 none (text ['é', '&', 'D'] ++ [0]) =
        .ok out.length (overwrite (text ['é', '&', 'D'] ++ [0]) 0 (out ++ [0])) ∧
      (Valid out ↔ ∀ t cp, (38 :: t) <:+ text ['é', '&', 'D'] →
        numericReference (38 :: t) = some cp → ¬ IsSurrogate cp) :=
  decodeHtmlEntitiesUtf8_utf8_iff ⟨by decide, [], rfl⟩

end Bcirc
