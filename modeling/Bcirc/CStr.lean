import Mathlib.Data.List.TakeWhile

/-!
# C strings

Strings are the bytes before the terminating NUL. The functions below are
the library's own (`memchr`, `strstr`, `strtok_r`, `atoi`); a pointer into
a string is the suffix it points at, or the offset where the caller does
arithmetic with it.

A loop over `strtok_r` sees the non-empty pieces between delimiters
(`tokens`), one call at a time (`tokens_eq`); cutting a string at a
delimiter cuts its tokens (`tokens_append_cons`).
-/

namespace CStr

/-- The bytes of a C string, without its terminator. -/
abbrev Str := List UInt8

def ascii (s : String) : Str := s.toList.map fun c => c.toNat.toUInt8

/-- The C string at the start of a buffer. -/
def untilNul (buf : List UInt8) : Str := buf.takeWhile (· ≠ 0)

theorem untilNul_append {a : List UInt8} (ha : 0 ∉ a) (b : List UInt8) :
    untilNul (a ++ b) = a ++ untilNul b := by
  refine List.takeWhile_append_of_pos fun c hc => ?_
  have hne : c ≠ 0 := fun h0 => ha (h0 ▸ hc)
  simpa using hne

theorem untilNul_of_not_mem {s : List UInt8} (hs : 0 ∉ s) : untilNul s = s := by
  simpa [untilNul] using untilNul_append hs []

theorem zero_not_mem_untilNul (buf : List UInt8) : 0 ∉ untilNul buf := fun h0 => by
  simpa using List.mem_takeWhile_imp h0

/-! ## Searching -/

/-- `memchr` on a string: the offset of the first `c`. -/
def memchr (s : Str) (c : UInt8) : Option Nat := s.findIdx? (· == c)

/-- `strstr`: the offset of the first occurrence of `needle`. -/
def strstr : Str → Str → Option Nat
  | [], needle => if needle = [] then some 0 else none
  | c :: s, needle =>
      if needle.isPrefixOf (c :: s) then some 0 else (strstr s needle).map (· + 1)

theorem strstr_append_isSome (a needle c : Str) :
    (strstr (a ++ needle ++ c) needle).isSome := by
  induction a with
  | nil =>
      cases needle with
      | nil => cases c <;> simp [strstr]
      | cons d needle => simp [strstr]
  | cons d a ih =>
      simp only [List.cons_append, strstr]
      split
      · rfl
      · simpa using ih

/-- It finds the needle wherever it stands. -/
theorem strstr_isSome_iff (s needle : Str) : (strstr s needle).isSome ↔ needle <:+: s := by
  constructor
  · intro h
    induction s with
    | nil =>
        by_cases hne : needle = []
        · subst hne
          exact List.nil_infix
        · rw [strstr, if_neg hne] at h
          cases h
    | cons c s ih =>
        unfold strstr at h
        split at h
        · rename_i hprefix
          exact (List.isPrefixOf_iff_prefix.mp hprefix).isInfix
        · rw [Option.isSome_map] at h
          exact List.infix_cons (ih h)
  · rintro ⟨a, b, rfl⟩
    exact strstr_append_isSome a needle b

theorem memchr_append {s : Str} {c : UInt8} (hs : c ∉ s) (t : Str) :
    memchr (s ++ c :: t) c = some s.length := by
  unfold memchr
  induction s with
  | nil => simp [List.findIdx?_cons]
  | cons d s ih =>
      rw [List.mem_cons, not_or] at hs
      have hne : (d == c) = false := by simpa using Ne.symm hs.1
      rw [List.cons_append, List.findIdx?_cons, hne, ih hs.2]
      simp

theorem memchr_eq_none {s : Str} {c : UInt8} : memchr s c = none ↔ c ∉ s := by
  unfold memchr
  rw [List.findIdx?_eq_none_iff]
  constructor
  · intro h hmem
    simpa using h c hmem
  · intro h b hb
    simpa using fun heq : b = c => h (heq ▸ hb)

/-- What `memchr` has found. -/
theorem of_memchr_some {s : Str} {c : UInt8} {i : Nat} (h : memchr s c = some i) :
    ∃ a b, s = a ++ c :: b ∧ c ∉ a ∧ a.length = i := by
  have hmem : c ∈ s := by
    by_contra hnot
    rw [memchr_eq_none.mpr hnot] at h
    cases h
  obtain ⟨a, b, rfl, ha⟩ := List.eq_append_cons_of_mem hmem
  rw [memchr_append ha] at h
  exact ⟨a, b, rfl, ha, Option.some.inj h⟩

/-! ## Numbers -/

def isDigit (c : UInt8) : Bool := 48 ≤ c && c ≤ 57

def decimal (s : Str) : Nat := s.foldl (fun n c => 10 * n + (c.toNat - 48)) 0

def longMax : Nat := 0x7fffffffffffffff

def isBlank (c : UInt8) : Bool := c == 32 || (9 ≤ c && c ≤ 13)

/-- `atoi`: `strtol`'s result, which saturates at `LONG_MAX` and `LONG_MIN`,
converted to a 32-bit `int`. -/
def atoi (s : Str) : Int :=
  let magnitude (digits : Str) := decimal (digits.takeWhile isDigit)
  let value : Int :=
    match s.dropWhile isBlank with
    | 45 :: digits => -Int.ofNat (min (magnitude digits) (longMax + 1))
    | 43 :: digits => Int.ofNat (min (magnitude digits) longMax)
    | digits => Int.ofNat (min (magnitude digits) longMax)
  value.bmod 0x100000000

/-! ## Tokens -/

/-- `strtok_r` at `s`: the token it returns, if any, and the new `save`. -/
def strtokR (delim : UInt8 → Bool) (s : Str) : Option Str × Str :=
  match s.dropWhile delim with
  | [] => (none, [])
  | c :: t => (some ((c :: t).takeWhile (!delim ·)), ((c :: t).dropWhile (!delim ·)).tail)

/-- What is left of the string `s` itself: the byte behind the token is
overwritten with a terminator. -/
def strtokRCut (delim : UInt8 → Bool) (s : Str) : Str :=
  s.takeWhile delim ++ (s.dropWhile delim).takeWhile (!delim ·)

/-- All tokens of `s`, as repeated calls of `strtok_r` return them. -/
def tokens (delim : UInt8 → Bool) (s : Str) : List Str :=
  (s.splitOnP delim).filter (· ≠ [])

section Tokens

variable {delim : UInt8 → Bool}

@[simp] theorem tokens_nil : tokens delim [] = [] := by
  simp [tokens, List.splitOnP_nil]

theorem tokens_append_cons (a b : Str) {d : UInt8} (hd : delim d) :
    tokens delim (a ++ d :: b) = tokens delim a ++ tokens delim b := by
  rw [tokens, List.splitOnP_append_cons a b hd, List.filter_append]
  rfl

theorem tokens_cons_delim (b : Str) {d : UInt8} (hd : delim d) :
    tokens delim (d :: b) = tokens delim b := by
  simpa using tokens_append_cons [] b hd

theorem tokens_concat_delim (a : Str) {d : UInt8} (hd : delim d) :
    tokens delim (a ++ [d]) = tokens delim a := by
  simpa using tokens_append_cons a [] hd

theorem tokens_of_forall_not {s : Str} (h : ∀ c ∈ s, delim c = false) :
    tokens delim s = if s = [] then [] else [s] := by
  rw [tokens, List.splitOnP_eq_singleton h]
  split <;> simp [*]

theorem tokens_word {t : Str} (ht : t ≠ []) (hnd : ∀ c ∈ t, delim c = false) :
    tokens delim t = [t] := by
  rw [tokens_of_forall_not hnd, if_neg ht]

theorem tokens_word_cons {t : Str} (ht : t ≠ []) (hnd : ∀ c ∈ t, delim c = false) {d : UInt8}
    (hd : delim d) (s : Str) : tokens delim (t ++ d :: s) = t :: tokens delim s := by
  rw [tokens_append_cons t s hd, tokens_word ht hnd, List.singleton_append]

theorem takeWhile_not_delim (delim : UInt8 → Bool) (s : Str) :
    ∀ c ∈ s.takeWhile (!delim ·), delim c = false := by
  intro c hc
  simpa using List.mem_takeWhile_imp hc

theorem takeWhile_append_tail (delim : UInt8 → Bool) (s : Str) :
    s = s.takeWhile (!delim ·) ∧ s.dropWhile (!delim ·) = [] ∨
      ∃ d, delim d ∧
        s = s.takeWhile (!delim ·) ++ d :: (s.dropWhile (!delim ·)).tail := by
  have happ := List.takeWhile_append_dropWhile (p := (!delim ·)) (l := s)
  cases hr : s.dropWhile (!delim ·) with
  | nil =>
      rw [hr, List.append_nil] at happ
      exact Or.inl ⟨happ.symm, rfl⟩
  | cons d r =>
      refine Or.inr ⟨d, ?_, ?_⟩
      · have hhead := List.head_dropWhile_not (!delim ·) (l := s) (by rw [hr]; simp)
        simpa [hr] using hhead
      · rw [hr] at happ
        simpa using happ.symm

/-- Induction along the delimiters of a string. -/
theorem delim_induction (delim : UInt8 → Bool) {P : Str → Prop}
    (free : ∀ s, (∀ c ∈ s, delim c = false) → P s)
    (cut : ∀ t d r, (∀ c ∈ t, delim c = false) → delim d → P r → P (t ++ d :: r))
    (s : Str) : P s := by
  induction hn : s.length using Nat.strong_induction_on generalizing s with
  | _ n ih =>
      rcases takeWhile_append_tail delim s with ⟨hall, -⟩ | ⟨d, hd, hs⟩
      · refine free s ?_
        rw [hall]
        exact takeWhile_not_delim delim s
      · have hlen := congrArg List.length hs
        rw [List.length_append, List.length_cons] at hlen
        rw [hs]
        exact cut _ d _ (takeWhile_not_delim delim s) hd (ih _ (by omega) _ rfl)

theorem of_mem_tokens {s t : Str} (h : t ∈ tokens delim s) :
    t ≠ [] ∧ (∀ c ∈ t, delim c = false) ∧ t <:+: s := by
  have hfree : ∀ a, (∀ c ∈ a, delim c = false) → t ∈ tokens delim a →
      t ≠ [] ∧ (∀ c ∈ t, delim c = false) ∧ t = a := by
    intro a ha hmem
    rw [tokens_of_forall_not ha] at hmem
    split at hmem
    · cases hmem
    · rename_i hne
      rw [List.mem_singleton.mp hmem]
      exact ⟨hne, ha, rfl⟩
  induction s using delim_induction delim with
  | free s hnd =>
      obtain ⟨hne, ht, rfl⟩ := hfree s hnd h
      exact ⟨hne, ht, List.infix_rfl⟩
  | cut a d r ha hd ih =>
      rw [tokens_append_cons a r hd, List.mem_append] at h
      rcases h with h | h
      · obtain ⟨hne, ht, rfl⟩ := hfree a ha h
        exact ⟨hne, ht, (List.prefix_append t _).isInfix⟩
      · obtain ⟨hne, ht, hinfix⟩ := ih h
        have hsuffix : r <:+ a ++ d :: r := (List.suffix_cons d r).trans (List.suffix_append a _)
        exact ⟨hne, ht, hinfix.trans hsuffix.isInfix⟩

/-- A map that keeps the delimiters where they are maps the tokens. -/
theorem tokens_of_cut {f : Str → Str}
    (hcut : ∀ a d b, delim d → f (a ++ d :: b) = f a ++ d :: f b)
    (hkeep : ∀ s, (∀ c ∈ s, delim c = false) → ∀ c ∈ f s, delim c = false)
    (hnil : ∀ s, f s = [] ↔ s = []) (s : Str) :
    tokens delim (f s) = (tokens delim s).map f := by
  have hfree : ∀ s, (∀ c ∈ s, delim c = false) →
      tokens delim (f s) = (tokens delim s).map f := by
    intro s hnd
    rw [tokens_of_forall_not (hkeep s hnd), tokens_of_forall_not hnd]
    by_cases h : s = []
    · rw [if_pos h, if_pos ((hnil s).mpr h), List.map_nil]
    · rw [if_neg h, if_neg (mt (hnil s).mp h), List.map_singleton]
  induction s using delim_induction delim with
  | free s hnd => exact hfree s hnd
  | cut t d r ht hd ih =>
      rw [hcut t d r hd, tokens_append_cons _ _ hd, tokens_append_cons _ _ hd,
        List.map_append, ih, hfree t ht]

theorem flatten_tokens (s : Str) : (tokens delim s).flatten = s.filter (!delim ·) := by
  have hfree : ∀ s, (∀ c ∈ s, delim c = false) →
      (tokens delim s).flatten = s.filter (!delim ·) := by
    intro s hnd
    have hall : s.filter (!delim ·) = s :=
      List.filter_eq_self.mpr fun c hc => by simp [hnd c hc]
    rw [tokens_of_forall_not hnd, hall]
    by_cases h : s = []
    · rw [if_pos h, h, List.flatten_nil]
    · rw [if_neg h, List.flatten_singleton]
  induction s using delim_induction delim with
  | free s hnd => exact hfree s hnd
  | cut t d r ht hd ih =>
      rw [tokens_append_cons _ _ hd, List.flatten_append, ih, hfree t ht, List.filter_append,
        List.filter_cons_of_neg (by simp [hd])]

theorem tokens_dropWhile (s : Str) : tokens delim (s.dropWhile delim) = tokens delim s := by
  induction s with
  | nil => rfl
  | cons c s ih =>
      by_cases hc : delim c
      · rw [List.dropWhile_cons_of_pos hc, ih, tokens_cons_delim s hc]
      · rw [List.dropWhile_cons_of_neg hc]

/-- The token loop: one `strtok_r` call returns the first token, and the
calls that follow see the tokens of what it saved. -/
theorem tokens_eq (s : Str) :
    tokens delim s =
      match strtokR delim s with
      | (none, _) => []
      | (some t, save) => t :: tokens delim save := by
  rw [← tokens_dropWhile]
  unfold strtokR
  cases hs : s.dropWhile delim with
  | nil => simp
  | cons c t =>
      have hc : delim c = false := by
        have hhead := List.head_dropWhile_not delim (l := s) (by rw [hs]; simp)
        simpa [hs] using hhead
      have hne : (c :: t).takeWhile (!delim ·) ≠ [] := by
        simp [hc]
      have hfst := tokens_of_forall_not (takeWhile_not_delim delim (c :: t))
      rw [if_neg hne] at hfst
      rcases takeWhile_append_tail delim (c :: t) with ⟨hall, hnil⟩ | ⟨d, hd, hcut⟩
      · simp only [hnil, List.tail_nil, tokens_nil]
        rw [← hfst, ← hall]
      · refine (congrArg (tokens delim) hcut).trans ?_
        rw [tokens_append_cons _ _ hd, hfst, List.singleton_append]

/-- What a call of `strtok_r` has cut off. -/
theorem of_strtokR_some {s t save : Str} (h : strtokR delim s = (some t, save)) :
    ∃ a, (∀ c ∈ a, delim c) ∧ t ≠ [] ∧ (∀ c ∈ t, delim c = false) ∧
      (s = a ++ t ∧ save = [] ∨ ∃ d, delim d ∧ s = a ++ t ++ d :: save) := by
  have hsplit : s = s.takeWhile delim ++ s.dropWhile delim :=
    List.takeWhile_append_dropWhile.symm
  have hblank : ∀ c ∈ s.takeWhile delim, delim c := fun c hc => List.mem_takeWhile_imp hc
  unfold strtokR at h
  cases hdrop : s.dropWhile delim with
  | nil =>
      rw [hdrop] at h
      cases h
  | cons c rest =>
      have hc : delim c = false := by
        have hhead := List.head_dropWhile_not delim (l := s) (by rw [hdrop]; simp)
        simpa [hdrop] using hhead
      rw [hdrop] at h hsplit
      obtain ⟨rfl, rfl⟩ : (c :: rest).takeWhile (!delim ·) = t ∧
          ((c :: rest).dropWhile (!delim ·)).tail = save := by simpa using h
      refine ⟨s.takeWhile delim, hblank, by simp [hc], takeWhile_not_delim delim _, ?_⟩
      rcases takeWhile_append_tail delim (c :: rest) with ⟨hall, hnil⟩ | ⟨d, hd, hcut⟩
      · refine Or.inl ⟨?_, by rw [hnil]; rfl⟩
        rwa [← hall]
      · refine Or.inr ⟨d, hd, ?_⟩
        rwa [List.append_assoc, ← hcut]

/-- The tokens tell what the next call returns. -/
theorem strtokR_of_tokens_nil {s : Str} (h : tokens delim s = []) :
    strtokR delim s = (none, []) := by
  rw [tokens_eq] at h
  unfold strtokR at h ⊢
  cases hdrop : s.dropWhile delim with
  | nil => rfl
  | cons c t =>
      rw [hdrop] at h
      cases h

theorem strtokR_of_tokens_cons {s t : Str} {rest : List Str} (h : tokens delim s = t :: rest) :
    ∃ save, strtokR delim s = (some t, save) ∧ tokens delim save = rest := by
  rw [tokens_eq] at h
  rcases hcut : strtokR delim s with ⟨_ | first, save⟩
  · rw [hcut] at h
    cases h
  · rw [hcut] at h
    obtain ⟨rfl, rfl⟩ := List.cons.inj h
    exact ⟨save, rfl, rfl⟩

theorem strtokR_append_cons {t r : Str} {d : UInt8} (ht : t ≠ [])
    (hnd : ∀ c ∈ t, delim c = false) (hd : delim d) :
    strtokR delim (t ++ d :: r) = (some t, r) := by
  cases t with
  | nil => exact absurd rfl ht
  | cons c t =>
      have hc : delim c = false := hnd c List.mem_cons_self
      have hall : ∀ a ∈ c :: t, (!delim a) = true := fun a ha => by simp [hnd a ha]
      have htake : (c :: t ++ d :: r).takeWhile (!delim ·) = c :: t := by
        rw [List.takeWhile_append_of_pos hall]
        simp [hd]
      have hdrop : (c :: t ++ d :: r).dropWhile (!delim ·) = d :: r := by
        rw [List.dropWhile_append_of_pos hall]
        simp [hd]
      have hstart : (c :: t ++ d :: r).dropWhile delim = c :: (t ++ d :: r) := by
        simp [hc]
      unfold strtokR
      rw [hstart]
      simp only [← List.cons_append, htake, hdrop, List.tail_cons]

theorem strtokR_delims {a : Str} (ha : ∀ b ∈ a, delim b) (s : Str) :
    strtokR delim (a ++ s) = strtokR delim s := by
  unfold strtokR
  rw [List.dropWhile_append_of_pos ha]

theorem strtokR_word {t : Str} (ht : t ≠ [])
    (hnd : ∀ b ∈ t, delim b = false) : strtokR delim t = (some t, []) := by
  obtain ⟨c, t, rfl⟩ := List.exists_cons_of_ne_nil ht
  have hstart : (c :: t).dropWhile delim = c :: t :=
    List.dropWhile_cons_of_neg (by rw [hnd c List.mem_cons_self]; exact Bool.false_ne_true)
  have htake : (c :: t).takeWhile (!delim ·) = c :: t :=
    List.takeWhile_eq_self_iff.mpr fun b hb => by simp [hnd b hb]
  have hdrop : (c :: t).dropWhile (!delim ·) = [] :=
    List.dropWhile_eq_nil_iff.mpr fun b hb => by simp [hnd b hb]
  unfold strtokR
  rw [hstart]
  simp only [htake, hdrop, List.tail_nil]

theorem strtokR_tail {d : UInt8} (hd : delim d) (s : Str) :
    strtokR delim (d :: s) = strtokR delim s :=
  strtokR_delims (a := [d]) (by simpa using hd) s

/-- The token is at the end of what is left. -/
theorem strtokRCut_of_some {s t save : Str} (h : strtokR delim s = (some t, save)) :
    strtokRCut delim s = s.takeWhile delim ++ t := by
  unfold strtokR at h
  unfold strtokRCut
  cases hdrop : s.dropWhile delim with
  | nil =>
      rw [hdrop] at h
      cases h
  | cons c rest =>
      rw [hdrop] at h
      cases h
      rfl

/-- A string that starts with a token is left as it is if it has no delimiter. -/
theorem strtokRCut_eq_self_iff {c : UInt8} (hc : delim c = false) (s : Str) :
    strtokRCut delim (c :: s) = c :: s ↔ ∀ b ∈ c :: s, delim b = false := by
  have hcut : strtokRCut delim (c :: s) = (c :: s).takeWhile (!delim ·) := by
    simp [strtokRCut, hc]
  rw [hcut, List.takeWhile_eq_self_iff]
  simp

end Tokens

end CStr
