import Mathlib.Data.List.Basic

/-!
# Binary search

`bsearch` of the C library. What it is called with need not be an order:
it finds its element as soon as the comparison with the key goes, along
the array, from above over at most one match to below (`Graded`).
-/

namespace BSearch

variable {α : Type}

/-- The loop between `l` and `u`; each turn leaves out a half, so `n` turns
are enough for `n` elements. -/
def search (compar : α → Int) (base : List α) : Nat → Nat → Nat → Option α
  | 0, _, _ => none
  | n + 1, l, u =>
      if l < u then
        match base[(l + u) / 2]? with
        | none => none
        | some p =>
            if compar p < 0 then search compar base n l ((l + u) / 2)
            else if 0 < compar p then search compar base n ((l + u) / 2 + 1) u
            else some p
      else none

/-- `bsearch`, with the key in `compar`. -/
def bsearch (compar : α → Int) (base : List α) : Option α :=
  search compar base base.length 0 base.length

/-- Behind an element that is not below the key, all are above it. -/
def Graded (compar : α → Int) (base : List α) : Prop :=
  base.Pairwise fun p q => compar p ≤ 0 → compar q < 0

section Search

variable {compar : α → Int} {base : List α}

/-- What is found is there, whatever the order of the array. -/
theorem search_sound {n l u : Nat} {p : α} (h : search compar base n l u = some p) :
    p ∈ base ∧ compar p = 0 := by
  induction n generalizing l u with
  | zero => cases h
  | succ n ih =>
      rw [search] at h
      by_cases hlt : l < u
      · rw [if_pos hlt] at h
        cases hmid : base[(l + u) / 2]? with
        | none =>
            rw [hmid] at h
            cases h
        | some q =>
            rw [hmid] at h
            simp only at h
            split at h
            · exact ih h
            · split at h
              · exact ih h
              · obtain rfl := Option.some.inj h
                exact ⟨List.mem_of_getElem? hmid, by omega⟩
      · rw [if_neg hlt] at h
        cases h

theorem Graded.lt {i j : Nat} {p q : α} (hg : Graded compar base) (hi : base[i]? = some p)
    (hj : base[j]? = some q) (hij : i < j) (hp : compar p ≤ 0) : compar q < 0 := by
  obtain ⟨hilt, rfl⟩ := List.getElem?_eq_some_iff.mp hi
  obtain ⟨hjlt, rfl⟩ := List.getElem?_eq_some_iff.mp hj
  exact List.pairwise_iff_getElem.mp hg i j hilt hjlt hij hp

/-- A match between the bounds stays between them. -/
theorem search_complete (hg : Graded compar base) {k : Nat} {p : α} (hk : base[k]? = some p)
    (hp : compar p = 0) {n l u : Nat} (hlk : l ≤ k) (hku : k < u) (hu : u ≤ base.length)
    (hn : u ≤ l + n) : search compar base n l u = some p := by
  induction n generalizing l u with
  | zero => omega
  | succ n ih =>
      obtain ⟨q, hmid⟩ : ∃ q, base[(l + u) / 2]? = some q :=
        ⟨_, List.getElem?_eq_getElem (by omega)⟩
      rw [search, if_pos (by omega), hmid]
      simp only
      rcases Nat.lt_trichotomy k ((l + u) / 2) with hlt | rfl | hgt
      · rw [if_pos (hg.lt hk hmid hlt (by omega))]
        exact ih hlk hlt (by omega) (by omega)
      · rw [hk] at hmid
        obtain rfl := Option.some.inj hmid
        rw [if_neg (by omega), if_neg (by omega)]
      · have hq : 0 < compar q := by
          by_contra hle
          have hlt := hg.lt hmid hk hgt (by omega)
          omega
        rw [if_neg (by omega), if_pos hq]
        exact ih hgt hku hu (by omega)

theorem bsearch_eq_some_iff (hg : Graded compar base) {p : α} :
    bsearch compar base = some p ↔ p ∈ base ∧ compar p = 0 := by
  constructor
  · exact search_sound
  · rintro ⟨hmem, hp⟩
    obtain ⟨k, hlen, rfl⟩ := List.mem_iff_getElem.mp hmem
    exact search_complete hg (List.getElem?_eq_getElem hlen) hp (Nat.zero_le k) hlen
      (Nat.le_refl _) (by omega)

end Search

end BSearch
