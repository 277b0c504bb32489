import Bcirc.CProg
import Bcirc.CStr

/-!
# Escaping received text (`src/log.c`)

`bcirc_escape_buf` doubles a `%` that is not doubled already, so that the
text can be handed to `bcirc_printf` as a format. `evenRuns` says what
comes out of its loop: every maximal run of `%` is made even by at most
one more. The function then writes the terminator over the last byte of
its copy.
-/

namespace Bcirc

open CProg CStr

/-- `'%'`. -/
def percent : UInt8 := 37

/-- `MAX_LEN`, the size of `str_copy`. -/
def maxLen : Nat := 2048

/-! ## The function -/

/-- The `while` loop; `none` is its `return -1`. -/
def escapeLoop : Str → Str → Except Fault (Option Str)
  | [], strCopy => .ok (some strCopy)
  | c :: str, strCopy =>
      if maxLen ≤ strCopy.length then .ok none
      else if c ≠ percent then escapeLoop str (strCopy ++ [c])
      else if maxLen ≤ strCopy.length + 1 then .error .outOfBounds
      else
        match str with
        | [] => .ok (some (strCopy ++ [percent, percent]))
        | d :: rest =>
            if d = percent then escapeLoop rest (strCopy ++ [percent, percent])
            else escapeLoop (d :: rest) (strCopy ++ [percent, percent])

/-- `bcirc_escape_buf` into a buffer of `size` bytes: what it writes there,
or `none` when it returns `-1` and has written nothing. -/
def bcircEscapeBuf (size : Nat) (str : Str) : Except Fault (Option Str) := do
  match ← escapeLoop str [] with
  | none => pure none
  | some [] => throw .outOfBounds -- `str_copy[-1]`
  | some (c :: strCopy) =>
      if size ≤ strCopy.length then throw .outOfBounds
      else pure (some (c :: strCopy).dropLast)

/-! ## Runs of `%` -/

/-- `s` after a run of `k` percent signs, that run and all those of `s`
rounded up to an even length. -/
def evenRunsFrom : Nat → Str → Str
  | k, [] => List.replicate (2 * ((k + 1) / 2)) percent
  | k, c :: s =>
      if c = percent then evenRunsFrom (k + 1) s
      else List.replicate (2 * ((k + 1) / 2)) percent ++ c :: evenRunsFrom 0 s

def evenRuns (s : Str) : Str := evenRunsFrom 0 s

example (k : Nat) : evenRunsFrom k [] = List.replicate (2 * ((k + 1) / 2)) percent := by
  rw [evenRunsFrom]

@[simp] theorem evenRuns_nil : evenRuns [] = [] := rfl

theorem evenRunsFrom_add_two (k : Nat) (s : Str) :
    evenRunsFrom (k + 2) s = percent :: percent :: evenRunsFrom k s := by
  have hround : ∀ k, 2 * ((k + 2 + 1) / 2) = 2 * ((k + 1) / 2) + 1 + 1 := by omega
  induction s generalizing k with
  | nil => simp only [evenRunsFrom, hround, List.replicate_succ]
  | cons c s ih =>
      by_cases hc : c = percent
      · simp only [evenRunsFrom, if_pos hc]
        exact ih (k + 1)
      · simp only [evenRunsFrom, if_neg hc, hround, List.replicate_succ, List.cons_append]

theorem evenRuns_cons_ne {c : UInt8} (hc : c ≠ percent) (s : Str) :
    evenRuns (c :: s) = c :: evenRuns s := by
  simp [evenRuns, evenRunsFrom, hc]

theorem evenRuns_pair (s : Str) :
    evenRuns (percent :: percent :: s) = percent :: percent :: evenRuns s :=
  evenRunsFrom_add_two 0 s

theorem evenRuns_single {d : UInt8} (hd : d ≠ percent) (s : Str) :
    evenRuns (percent :: d :: s) = percent :: percent :: evenRuns (d :: s) := by
  rw [evenRuns_cons_ne hd]
  simp [evenRuns, evenRunsFrom, hd, List.replicate_succ]

theorem evenRuns_append_cons (a : Str) {c : UInt8} (hc : c ≠ percent) (b : Str) :
    evenRuns (a ++ c :: b) = evenRuns a ++ c :: evenRuns b := by
  have hfrom : ∀ k, evenRunsFrom k (a ++ c :: b) = evenRunsFrom k a ++ c :: evenRuns b := by
    induction a with
    | nil =>
        intro k
        simp only [List.nil_append, evenRunsFrom, if_neg hc, evenRuns]
    | cons d a ih =>
        intro k
        by_cases hd : d = percent
        · simp only [List.cons_append, evenRunsFrom, if_pos hd]
          exact ih (k + 1)
        · simp only [List.cons_append, evenRunsFrom, if_neg hd, List.append_assoc, ih 0]
  exact hfrom 0

theorem mem_evenRuns {c : UInt8} {s : Str} (h : c ∈ evenRuns s) : c = percent ∨ c ∈ s := by
  have hfrom : ∀ k, c ∈ evenRunsFrom k s → c = percent ∨ c ∈ s := by
    clear h
    induction s with
    | nil =>
        intro k h
        exact Or.inl (List.mem_replicate.mp h).2
    | cons d s ih =>
        intro k h
        by_cases hd : d = percent
        · simp only [evenRunsFrom, if_pos hd] at h
          rcases ih (k + 1) h with hc | hc
          · exact Or.inl hc
          · exact Or.inr (List.mem_cons_of_mem d hc)
        · simp only [evenRunsFrom, if_neg hd] at h
          rcases List.mem_append.mp h with hrun | hrest
          · exact Or.inl (List.mem_replicate.mp hrun).2
          · rcases List.mem_cons.mp hrest with rfl | hrest
            · exact Or.inr List.mem_cons_self
            · exact (ih 0 hrest).imp_right (List.mem_cons_of_mem d)
  exact hfrom 0 h

theorem filter_evenRuns (s : Str) :
    (evenRuns s).filter (· ≠ percent) = s.filter (· ≠ percent) := by
  have hfrom : ∀ k, (evenRunsFrom k s).filter (· ≠ percent) = s.filter (· ≠ percent) := by
    induction s with
    | nil =>
        intro k
        simp [evenRunsFrom]
    | cons c s ih =>
        intro k
        by_cases hc : c = percent
        · simp only [evenRunsFrom, if_pos hc, ih (k + 1)]
          simp [hc]
        · simp only [evenRunsFrom, if_neg hc, List.filter_append, List.filter_cons, ih 0]
          simp [hc]
  exact hfrom 0

theorem length_evenRunsFrom_ge (k : Nat) (s : Str) :
    2 * ((k + 1) / 2) ≤ (evenRunsFrom k s).length := by
  induction s generalizing k with
  | nil => simp [evenRunsFrom]
  | cons c s ih =>
      by_cases hc : c = percent
      · simp only [evenRunsFrom, if_pos hc]
        have := ih (k + 1)
        omega
      · simp only [evenRunsFrom, if_neg hc, List.length_append, List.length_replicate]
        omega

theorem length_evenRuns_append_ge (p q : Str) :
    (evenRuns p).length ≤ (evenRuns (p ++ q)).length := by
  have hfrom : ∀ k, (evenRunsFrom k p).length ≤ (evenRunsFrom k (p ++ q)).length := by
    induction p with
    | nil =>
        intro k
        simpa [evenRunsFrom] using length_evenRunsFrom_ge k q
    | cons c p ih =>
        intro k
        by_cases hc : c = percent
        · simp only [List.cons_append, evenRunsFrom, if_pos hc]
          exact ih (k + 1)
        · have := ih 0
          simp only [List.cons_append, evenRunsFrom, if_neg hc, List.length_append,
            List.length_cons]
          omega
  exact hfrom 0

theorem length_evenRuns_ge (s : Str) : s.length ≤ (evenRuns s).length := by
  have hfrom : ∀ k, k + s.length ≤ (evenRunsFrom k s).length := by
    induction s with
    | nil =>
        intro k
        simp only [evenRunsFrom, List.length_nil, List.length_replicate]
        omega
    | cons c s ih =>
        intro k
        by_cases hc : c = percent
        · simp only [evenRunsFrom, if_pos hc, List.length_cons]
          have := ih (k + 1)
          omega
        · simp only [evenRunsFrom, if_neg hc, List.length_append, List.length_replicate,
            List.length_cons]
          have := ih 0
          omega
  simpa [evenRuns] using hfrom 0

/-- An odd run grows by one, and every odd run but the last one has another
byte behind it. -/
theorem length_evenRunsFrom_le (k : Nat) (s : Str) :
    (evenRunsFrom k s).length ≤ k + s.length + (k + s.length + 1) / 2 := by
  induction s generalizing k with
  | nil =>
      rw [evenRunsFrom, List.length_replicate, List.length_nil]
      omega
  | cons c s ih =>
      by_cases hc : c = percent
      · have hrest := ih (k + 1)
        rw [evenRunsFrom, if_pos hc, List.length_cons]
        omega
      · have hrest := ih 0
        rw [evenRunsFrom, if_neg hc, List.length_append, List.length_replicate, List.length_cons,
          List.length_cons]
        omega

theorem length_evenRuns_le_add_half (s : Str) :
    (evenRuns s).length ≤ s.length + (s.length + 1) / 2 := by
  have hfrom := length_evenRunsFrom_le 0 s
  rwa [Nat.zero_add] at hfrom

theorem length_evenRuns_le (s : Str) : (evenRuns s).length ≤ 2 * s.length := by
  have hle := length_evenRuns_le_add_half s
  omega

theorem evenRuns_ne_nil {s : Str} (h : s ≠ []) : evenRuns s ≠ [] := by
  have hlen := length_evenRuns_ge s
  have hpos := List.length_pos_iff.mpr h
  exact List.length_pos_iff.mp (by omega)

theorem evenRuns_append_of_not_mem {s : Str} (h : percent ∉ s) (t : Str) :
    evenRuns (s ++ t) = s ++ evenRuns t := by
  induction s with
  | nil => rfl
  | cons c s ih =>
      rw [List.mem_cons, not_or] at h
      rw [List.cons_append, evenRuns_cons_ne (Ne.symm h.1), ih h.2, List.cons_append]

theorem evenRuns_of_not_mem {s : Str} (h : percent ∉ s) : evenRuns s = s := by
  have happend := evenRuns_append_of_not_mem h []
  rwa [List.append_nil, evenRuns_nil, List.append_nil] at happend

theorem two_le_length_evenRuns (s : Str) : 2 ≤ (evenRuns (percent :: s)).length :=
  length_evenRunsFrom_ge 1 s

/-! ## What the function writes -/

theorem escapeLoop_eq {str strCopy : Str}
    (hfit : strCopy.length + (evenRuns str).length ≤ maxLen) :
    escapeLoop str strCopy = .ok (some (strCopy ++ evenRuns str)) := by
  induction str, strCopy using escapeLoop.induct with
  | case1 strCopy => simp [escapeLoop]
  | case2 c str strCopy hfull =>
      have hlen := length_evenRuns_ge (c :: str)
      rw [List.length_cons] at hlen
      omega
  | case3 c str strCopy hlt hc ih =>
      rw [evenRuns_cons_ne hc, List.length_cons] at hfit
      have hrec := ih (by simp only [List.length_append, List.length_singleton]; omega)
      rw [escapeLoop.eq_def]
      simp only [if_neg hlt, if_pos hc]
      rw [hrec, evenRuns_cons_ne hc, List.append_assoc, List.singleton_append]
  | case4 c str strCopy hlt hc hfull =>
      obtain rfl : c = percent := not_not.mp hc
      have hlen := two_le_length_evenRuns str
      omega
  | case5 c strCopy hlt hc hlt2 =>
      obtain rfl : c = percent := not_not.mp hc
      rw [escapeLoop.eq_def]
      simp only [if_neg hlt, if_neg hlt2, if_neg hc]
      rfl
  | case6 c strCopy hlt hc hlt2 rest ih =>
      obtain rfl : c = percent := not_not.mp hc
      rw [evenRuns_pair, List.length_cons, List.length_cons] at hfit
      have hrec := ih (by simp only [List.length_append, List.length_cons, List.length_nil]; omega)
      rw [escapeLoop.eq_def]
      simp only [if_neg hlt, if_neg hlt2, if_neg hc, if_true]
      rw [hrec, evenRuns_pair, List.append_assoc]
      rfl
  | case7 c strCopy hlt hc hlt2 d rest hd ih =>
      obtain rfl : c = percent := not_not.mp hc
      rw [evenRuns_single hd, List.length_cons, List.length_cons] at hfit
      have hrec := ih (by simp only [List.length_append, List.length_cons, List.length_nil]; omega)
      rw [escapeLoop.eq_def]
      simp only [if_neg hlt, if_neg hlt2, if_neg hc]
      rw [if_neg hd, hrec, evenRuns_single hd, List.append_assoc]
      rfl

theorem bcircEscapeBuf_eq {size : Nat} {str : Str} (hne : str ≠ [])
    (hmax : (evenRuns str).length ≤ maxLen) (hsize : (evenRuns str).length ≤ size) :
    bcircEscapeBuf size str = .ok (some (evenRuns str).dropLast) := by
  have hloop : escapeLoop str [] = .ok (some (evenRuns str)) :=
    escapeLoop_eq (by simpa using hmax)
  unfold bcircEscapeBuf
  rw [hloop]
  cases hrun : evenRuns str with
  | nil => exact absurd hrun (evenRuns_ne_nil hne)
  | cons c strCopy =>
      rw [hrun, List.length_cons] at hsize
      show (if size ≤ strCopy.length then throw Fault.outOfBounds
        else pure (some (c :: strCopy).dropLast)) = _
      rw [if_neg (by omega)]
      rfl

end Bcirc
