import Bcirc.CStr
import Mathlib.Data.List.Chain

/-!
# Comparing and reading the start of a string

`strncmp` with the length of its second string asks whether that string is
a prefix of the first; along strings in order the answers go from above to
below (`Precedes.strncmp_neg`), as a binary search needs it. `strtoul`
reads a number and says where it ended.
-/

namespace CStr

/-! ## `strncmp` -/

/-- The difference of the first bytes that differ, a terminator being 0. -/
def strncmp : Str → Str → Nat → Int
  | _, _, 0 => 0
  | [], [], _ + 1 => 0
  | [], d :: _, _ + 1 => -d.toNat
  | c :: _, [], _ + 1 => c.toNat
  | c :: s, d :: t, n + 1 => if c = d then strncmp s t n else c.toNat - d.toNat

/-- `s` and `t` differ, inside both, and `s` is the smaller there. -/
inductive Precedes : Str → Str → Prop where
  | lt {c d : UInt8} {s t : Str} (h : c < d) : Precedes (c :: s) (d :: t)
  | cons {c : UInt8} {s t : Str} (h : Precedes s t) : Precedes (c :: s) (c :: t)

def precedes : Str → Str → Bool
  | c :: s, d :: t => decide (c < d) || (c == d && precedes s t)
  | _, _ => false

theorem precedes_iff (s t : Str) : precedes s t ↔ Precedes s t := by
  induction s generalizing t with
  | nil =>
      constructor
      · intro h
        cases h
      · intro h
        cases h
  | cons c s ih =>
      cases t with
      | nil =>
          constructor
          · intro h
            cases h
          · intro h
            cases h
      | cons d t =>
          rw [precedes, Bool.or_eq_true, Bool.and_eq_true, decide_eq_true_iff, beq_iff_eq, ih]
          constructor
          · rintro (hlt | ⟨rfl, h⟩)
            · exact Precedes.lt hlt
            · exact Precedes.cons h
          · rintro (hlt | h)
            · exact Or.inl hlt
            · exact Or.inr ⟨rfl, h⟩

instance : DecidableRel Precedes := fun s t => decidable_of_iff _ (precedes_iff s t)

theorem Precedes.trans {s t u : Str} (hst : Precedes s t) (htu : Precedes t u) :
    Precedes s u := by
  induction hst generalizing u with
  | lt hlt =>
      cases htu with
      | lt hlt' => exact Precedes.lt (UInt8.lt_trans hlt hlt')
      | cons _ => exact Precedes.lt hlt
  | cons _ ih =>
      cases htu with
      | lt hlt => exact Precedes.lt hlt
      | cons h => exact Precedes.cons (ih h)

instance : IsTrans Str Precedes := ⟨fun _ _ _ => Precedes.trans⟩

theorem strncmp_length_eq_zero_iff {name : Str} (h0 : 0 ∉ name) (key : Str) :
    strncmp key name name.length = 0 ↔ name <+: key := by
  induction name generalizing key with
  | nil => exact iff_of_true (by cases key <;> rfl) List.nil_prefix
  | cons d name ih =>
      rw [List.mem_cons, not_or] at h0
      cases key with
      | nil =>
          have hd : d.toNat ≠ 0 := fun h => h0.1 (UInt8.toNat_inj.mp h).symm
          rw [List.length_cons, strncmp, List.prefix_nil]
          refine iff_of_false (by omega) (List.cons_ne_nil d name)
      | cons c key =>
          rw [List.length_cons, strncmp, List.cons_prefix_cons]
          by_cases hcd : c = d
          · rw [if_pos hcd, ih h0.2]
            exact ⟨fun h => ⟨hcd.symm, h⟩, fun h => h.2⟩
          · have hne : c.toNat ≠ d.toNat := fun h => hcd (UInt8.toNat_inj.mp h)
            rw [if_neg hcd]
            exact iff_of_false (by omega) fun h => hcd h.1.symm

/-- What a key does not come behind, it comes before all that follows. -/
theorem Precedes.strncmp_neg {name name' : Str} (h : Precedes name name') (h0 : 0 ∉ name')
    {key : Str} (hkey : strncmp key name name.length ≤ 0) :
    strncmp key name' name'.length < 0 := by
  induction h generalizing key with
  | @lt c d s t hcd =>
      have hlt : c.toNat < d.toNat := UInt8.lt_iff_toNat_lt.mp hcd
      cases key with
      | nil =>
          rw [List.length_cons, strncmp]
          omega
      | cons k key =>
          rw [List.length_cons, strncmp] at hkey ⊢
          have hk : k.toNat ≤ c.toNat := by
            split at hkey
            · rename_i hkc
              exact Nat.le_of_eq (congrArg UInt8.toNat hkc)
            · omega
          rw [if_neg (by rintro rfl; omega)]
          omega
  | @cons c s t _ ih =>
      rw [List.mem_cons, not_or] at h0
      have hc : c.toNat ≠ 0 := fun h => h0.1 (UInt8.toNat_inj.mp h).symm
      cases key with
      | nil =>
          rw [List.length_cons, strncmp]
          omega
      | cons k key =>
          rw [List.length_cons, strncmp] at hkey ⊢
          by_cases hkc : k = c
          · rw [if_pos hkc] at hkey ⊢
            exact ih h0.2 hkey
          · have hne : k.toNat ≠ c.toNat := fun h => hkc (UInt8.toNat_inj.mp h)
            rw [if_neg hkc] at hkey ⊢
            omega

/-! ## `strtoul` -/

def ulongMax : Nat := 0xffffffffffffffff

/-- The value of a digit or letter. -/
def digitValue (c : UInt8) : Nat :=
  if isDigit c then c.toNat - 48
  else if 65 ≤ c && c ≤ 90 then c.toNat - 55
  else if 97 ≤ c && c ≤ 122 then c.toNat - 87
  else 36

def isDigitOf (base : Nat) (c : UInt8) : Bool := decide (digitValue c < base)

def numeral (base : Nat) (digits : Str) : Nat :=
  digits.foldl (fun n c => base * n + digitValue c) 0

def hasHexPrefix (s : Str) : Bool := s.head? == some 48 && (s[1]? == some 120 || s[1]? == some 88)

/-- The result of `strtoul`, how far `endptr` is behind `nptr`, and
whether `errno` was set. -/
structure Strtoul where
  value : Nat
  tail : Nat
  errno : Bool
  deriving DecidableEq, Repr

/-- Behind the blanks and the sign. -/
def numberStart (nptr : Str) : Nat :=
  let blanks := (nptr.takeWhile isBlank).length
  let sign := nptr[blanks]?
  if sign == some 45 || sign == some 43 then blanks + 1 else blanks

/-- `strtoul` for the bases 10 and 16, with a 64-bit `unsigned long`: blanks
and a sign are skipped and a number with a minus is negated in the type. -/
def strtoul (nptr : Str) (base : Nat) : Strtoul :=
  let start := numberStart nptr
  let negative := (nptr.take start).getLast? == some 45
  let skipped := if base = 16 && hasHexPrefix (nptr.drop start) then 2 else 0
  let digits := (nptr.drop (start + skipped)).takeWhile (isDigitOf base)
  if digits = [] then
    -- no number, but of a bare `0x` the `0` is one
    { value := 0, tail := if skipped = 2 then start + 1 else 0, errno := false }
  else
    let n := numeral base digits
    { value :=
        if ulongMax < n then ulongMax
        else if negative then (ulongMax + 1 - n) % (ulongMax + 1)
        else n
      tail := start + skipped + digits.length
      errno := decide (ulongMax < n) }

section Strtoul

variable {base : Nat}

theorem digitValue_not_digit {c : UInt8} (h : isBlank c ∨ c = 43 ∨ c = 45 ∨ c = 59) :
    digitValue c = 36 := by
  unfold digitValue isDigit
  unfold isBlank at h
  grind

theorem not_digitOf (hbase : base ≤ 36) {c : UInt8} (hc : digitValue c = 36) :
    isDigitOf base c = false := by
  rw [isDigitOf, hc]
  exact decide_eq_false (by omega)

theorem hasHexPrefix_append {digits rest : Str} (hbase : base ≤ 16)
    (hdigits : ∀ c ∈ digits, isDigitOf base c) :
    hasHexPrefix (digits ++ 59 :: rest) = false := by
  have hx : ∀ c, isDigitOf base c → c ≠ 120 ∧ c ≠ 88 := by
    intro c hc
    have hlt : digitValue c < base := of_decide_eq_true hc
    refine ⟨?_, ?_⟩
    · rintro rfl
      have hv : digitValue 120 = 33 := rfl
      omega
    · rintro rfl
      have hv : digitValue 88 = 33 := rfl
      omega
  unfold hasHexPrefix
  rcases digits with _ | ⟨c, _ | ⟨d, digits⟩⟩
  · rfl
  · simp
  · have hd := hx d (hdigits d (by simp))
    simp [hd.1, hd.2]

/-- Digits up to a semicolon are read as they are meant. -/
theorem strtoul_digits {digits rest : Str} (hbase : base ≤ 16) (hne : digits ≠ [])
    (hdigits : ∀ c ∈ digits, isDigitOf base c) (hmax : numeral base digits ≤ ulongMax) :
    strtoul (digits ++ 59 :: rest) base = ⟨numeral base digits, digits.length, false⟩ := by
  obtain ⟨c, t, rfl⟩ := List.exists_cons_of_ne_nil hne
  have hc : digitValue c ≠ 36 := by
    have hlt : digitValue c < base := of_decide_eq_true (hdigits c List.mem_cons_self)
    omega
  have hblank : isBlank c = false := by
    by_contra hb
    exact hc (digitValue_not_digit (Or.inl (by simpa using hb)))
  have hminus : c ≠ 45 := fun h => hc (digitValue_not_digit (by simp [h]))
  have hplus : c ≠ 43 := fun h => hc (digitValue_not_digit (by simp [h]))
  have hend : isDigitOf base 59 = false :=
    not_digitOf (by omega) (digitValue_not_digit (by simp))
  have htake : (c :: t ++ 59 :: rest).takeWhile (isDigitOf base) = c :: t := by
    rw [List.takeWhile_append_of_pos hdigits,
      List.takeWhile_cons_of_neg (by rw [hend]; exact Bool.false_ne_true), List.append_nil]
  have hstart : numberStart (c :: t ++ 59 :: rest) = 0 := by
    have hnone : (c :: t ++ 59 :: rest).takeWhile isBlank = [] :=
      List.takeWhile_cons_of_neg (by rw [hblank]; exact Bool.false_ne_true)
    unfold numberStart
    rw [hnone]
    simp [hminus, hplus]
  have hx : hasHexPrefix (c :: t ++ 59 :: rest) = false := hasHexPrefix_append hbase hdigits
  unfold strtoul
  simp only [hstart, List.drop_zero, hx, Bool.and_false, Bool.false_eq_true, if_false,
    Nat.add_zero, htake, Nat.zero_add, List.take_zero]
  rw [if_neg (List.cons_ne_nil c t), if_neg (by omega), decide_eq_false (by omega)]
  rfl

/-- With one byte a small number is read, or the negative of one. -/
theorem strtoul_tail_le_one (hbase : base ≤ 36) {s : Str} (h : (strtoul s base).tail ≤ 1) :
    (strtoul s base).value < 36 ∨ ulongMax - 36 < (strtoul s base).value := by
  unfold strtoul at h ⊢
  simp only at h ⊢
  generalize numberStart s = start at h ⊢
  generalize (if base = 16 && hasHexPrefix (s.drop start) then 2 else 0) = skipped at h ⊢
  cases hdigits : (s.drop (start + skipped)).takeWhile (isDigitOf base) with
  | nil =>
      rw [if_pos rfl]
      exact Or.inl (Nat.zero_lt_succ 35)
  | cons c digits =>
      rw [hdigits, if_neg (List.cons_ne_nil c digits)] at h
      rw [if_neg (List.cons_ne_nil c digits)]
      simp only [List.length_cons] at h ⊢
      obtain rfl : digits = [] := List.eq_nil_of_length_eq_zero (by omega)
      have hc : isDigitOf base c := by
        have hmem : c ∈ (s.drop (start + skipped)).takeWhile (isDigitOf base) := by
          rw [hdigits]
          exact List.mem_singleton_self c
        exact List.mem_takeWhile_imp hmem
      have hlt : digitValue c < base := of_decide_eq_true hc
      have hn : numeral base [c] = digitValue c := by simp [numeral]
      rw [hn]
      unfold ulongMax
      rw [if_neg (by omega)]
      split
      · rcases Nat.eq_zero_or_pos (digitValue c) with h0 | hpos
        · rw [h0]
          exact Or.inl (by decide)
        · refine Or.inr ?_
          rw [Nat.mod_eq_of_lt (by omega)]
          omega
      · exact Or.inl (by omega)

/-! ### What is gone through -/

/-- A byte `strtoul` can go through: a blank, a sign, a digit or letter. -/
def Scanned (c : UInt8) : Prop := isBlank c ∨ c = 43 ∨ c = 45 ∨ isDigitOf 36 c

theorem take_length_takeWhile {α : Type} (p : α → Bool) (s : List α) :
    s.take (s.takeWhile p).length = s.takeWhile p := by
  have htake : (s.takeWhile p ++ s.dropWhile p).take (s.takeWhile p).length = s.takeWhile p :=
    List.take_left
  rwa [List.takeWhile_append_dropWhile] at htake

theorem numberStart_scans {s : Str} {c : UInt8} (hc : c ∈ s.take (numberStart s)) :
    Scanned c := by
  have hblanks : c ∈ s.take (s.takeWhile isBlank).length → Scanned c := by
    intro hmem
    rw [take_length_takeWhile] at hmem
    exact Or.inl (List.mem_takeWhile_imp hmem)
  unfold numberStart at hc
  simp only at hc
  split at hc
  · rename_i hsign
    rw [List.take_add_one, List.mem_append, Option.mem_toList] at hc
    rcases hc with hmem | hmem
    · exact hblanks hmem
    · rw [hmem, Bool.or_eq_true, beq_iff_eq, beq_iff_eq, Option.some.injEq,
        Option.some.injEq] at hsign
      rcases hsign with rfl | rfl
      · exact Or.inr (Or.inr (Or.inl rfl))
      · exact Or.inr (Or.inl rfl)
  · exact hblanks hc

theorem hasHexPrefix_scans {s : Str} (h : hasHexPrefix s) {c : UInt8} (hc : c ∈ s.take 2) :
    Scanned c := by
  unfold hasHexPrefix at h
  rcases s with _ | ⟨a, _ | ⟨b, s⟩⟩
  · cases h
  · simp at h
  · simp only [List.head?_cons, List.getElem?_cons_succ, List.getElem?_cons_zero,
      Bool.and_eq_true, Bool.or_eq_true, beq_iff_eq, Option.some.injEq] at h
    simp only [List.take_succ_cons, List.take_zero, List.mem_cons, List.not_mem_nil,
      or_false] at hc
    refine Or.inr (Or.inr (Or.inr ?_))
    rcases hc with rfl | rfl
    · rw [h.1]
      rfl
    · rcases h.2 with rfl | rfl
      · rfl
      · rfl

theorem strtoul_scans (hbase : base ≤ 36) {s : Str} {c : UInt8}
    (hc : c ∈ s.take (strtoul s base).tail) : Scanned c := by
  unfold strtoul at hc
  simp only at hc
  have hstart := @numberStart_scans s c
  generalize numberStart s = start at hc hstart
  have hskipped : c ∈ (s.drop start).take
      (if base = 16 && hasHexPrefix (s.drop start) then 2 else 0) → Scanned c := by
    intro hmem
    split at hmem
    · rename_i hhex
      exact hasHexPrefix_scans (Bool.and_eq_true_iff.mp hhex).2 hmem
    · cases hmem
  generalize (if base = 16 && hasHexPrefix (s.drop start) then 2 else 0) = skipped
    at hc hskipped
  split at hc
  · split at hc
    · rename_i h2
      rw [List.take_add, List.mem_append] at hc
      rcases hc with hmem | hmem
      · exact hstart hmem
      · refine hskipped ?_
        rw [h2]
        exact List.take_subset_take_left _ (by omega) hmem
    · cases hc
  · rw [List.take_add, List.take_add, List.mem_append, List.mem_append,
      take_length_takeWhile] at hc
    rcases hc with (hmem | hmem) | hmem
    · exact hstart hmem
    · exact hskipped hmem
    · have hdigit : isDigitOf base c := List.mem_takeWhile_imp hmem
      have hlt : digitValue c < base := of_decide_eq_true hdigit
      exact Or.inr (Or.inr (Or.inr (decide_eq_true (by omega))))

end Strtoul

end CStr
