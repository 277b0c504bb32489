import Mathlib.Data.List.Basic

/-!
# The merge sort behind `qsort`

glibc's `qsort` sorts small arrays with `msort_with_tmp`: split at `n / 2`,
sort the halves, merge, and take the left element whenever
`cmp left right ≤ 0`. Nothing more of `cmp` is used, so a comparator that
only ever answers `0` or `1` is enough as long as `cmp a b ≤ 0` is a total
preorder.

The sort permutes its input (`msort_perm`) and is stable
(`pairwise_msort`): a relation `r` that holds between elements in input
order still holds, in output order, between elements that tie.
-/

namespace Msort

variable {α : Type}

/-- `cmp` puts `a` no later than `b`. -/
def leOf (cmp : α → α → Int) (a b : α) : Bool := cmp a b ≤ 0

/-- The merge loop with `x` at the head of the left run; `rest` merges what
follows `x`. -/
def mergeHead (cmp : α → α → Int) (x : α) (rest : List α → List α) : List α → List α
  | [] => x :: rest []
  | y :: ys => if leOf cmp x y then x :: rest (y :: ys) else y :: mergeHead cmp x rest ys

def merge (cmp : α → α → Int) : List α → List α → List α
  | [], ys => ys
  | x :: xs, ys => mergeHead cmp x (merge cmp xs) ys

/-- By structural recursion, so that it evaluates; otherwise `List.merge`. -/
theorem merge_eq (cmp : α → α → Int) (xs ys : List α) :
    merge cmp xs ys = List.merge xs ys (leOf cmp) := by
  induction xs generalizing ys with
  | nil => simp [merge]
  | cons x xs ihx =>
      rw [merge]
      induction ys with
      | nil => simp [mergeHead, ihx]
      | cons y ys ihy =>
          rw [mergeHead, List.cons_merge_cons, ihx, ihy]

/-- `msort_with_tmp`, the halves being `n / 2` and `n - n / 2` long.
The first argument bounds the depth of the recursion. -/
def msortFuel (cmp : α → α → Int) : Nat → List α → List α
  | 0, l => l
  | fuel + 1, l =>
      if l.length ≤ 1 then l
      else
        merge cmp (msortFuel cmp fuel (l.take (l.length / 2)))
          (msortFuel cmp fuel (l.drop (l.length / 2)))

def msort (cmp : α → α → Int) (l : List α) : List α := msortFuel cmp l.length l

/-! ## A permutation -/

theorem msortFuel_perm (cmp : α → α → Int) (fuel : Nat) (l : List α) :
    (msortFuel cmp fuel l).Perm l := by
  induction fuel generalizing l with
  | zero => exact List.Perm.refl l
  | succ fuel ih =>
      rw [msortFuel]
      split
      · exact List.Perm.refl l
      · rw [merge_eq]
        refine (List.merge_perm_append _).trans ?_
        refine ((ih _).append (ih _)).trans ?_
        rw [List.take_append_drop]

theorem msort_perm (cmp : α → α → Int) (l : List α) : (msort cmp l).Perm l :=
  msortFuel_perm cmp l.length l

@[simp] theorem length_msort (cmp : α → α → Int) (l : List α) :
    (msort cmp l).length = l.length :=
  (msort_perm cmp l).length_eq

@[simp] theorem mem_msort {cmp : α → α → Int} {l : List α} {a : α} :
    a ∈ msort cmp l ↔ a ∈ l :=
  (msort_perm cmp l).mem_iff

/-! ## Sorting under a map -/

theorem map_msortFuel {β : Type} {cmp : α → α → Int} {cmp' : β → β → Int} {g : α → β}
    (h : ∀ a b, cmp' (g a) (g b) = cmp a b) (fuel : Nat) (l : List α) :
    (msortFuel cmp fuel l).map g = msortFuel cmp' fuel (l.map g) := by
  induction fuel generalizing l with
  | zero => rfl
  | succ fuel ih =>
      rw [msortFuel, msortFuel, List.length_map, ← List.map_take, ← List.map_drop]
      split
      · rfl
      · have hle : ∀ a b, leOf cmp a b = leOf cmp' (g a) (g b) := fun a b => by
          rw [leOf, leOf, h]
        rw [merge_eq, merge_eq, List.map_merge (s := leOf cmp') fun a _ b _ => hle a b, ih, ih]

/-- A map that the comparison does not see commutes with the sort. -/
theorem map_msort {β : Type} {cmp : α → α → Int} {cmp' : β → β → Int} {g : α → β}
    (h : ∀ a b, cmp' (g a) (g b) = cmp a b) (l : List α) :
    (msort cmp l).map g = msort cmp' (l.map g) := by
  rw [msort, msort, List.length_map, map_msortFuel h]

/-! ## Stability -/

/-- `a` may stand before `b` in the sorted list: it is no later, and when
the two tie it is `r`-related to `b`. -/
def Stable (cmp : α → α → Int) (r : α → α → Prop) (a b : α) : Prop :=
  cmp a b ≤ 0 ∧ (cmp b a ≤ 0 → r a b)

section Stability

variable {cmp : α → α → Int} {r : α → α → Prop}

theorem leOf_iff {a b : α} : leOf cmp a b = true ↔ cmp a b ≤ 0 := by
  simp [leOf]

/-- Merging keeps stability when every left element is `r`-related to every
right one. -/
theorem pairwise_merge_stable (htotal : ∀ a b, cmp a b ≤ 0 ∨ cmp b a ≤ 0)
    (htrans : ∀ a b c, cmp a b ≤ 0 → cmp b c ≤ 0 → cmp a c ≤ 0)
    (xs ys : List α) (hx : xs.Pairwise (Stable cmp r))
    (hy : ys.Pairwise (Stable cmp r)) (hxy : ∀ x ∈ xs, ∀ y ∈ ys, r x y) :
    (List.merge xs ys (leOf cmp)).Pairwise (Stable cmp r) := by
  induction xs generalizing ys with
  | nil => simpa using hy
  | cons x xs ihx =>
      induction ys with
      | nil => simpa using hx
      | cons y ys ihy =>
          obtain ⟨hxall, hxs⟩ := List.pairwise_cons.mp hx
          obtain ⟨hyall, hys⟩ := List.pairwise_cons.mp hy
          rw [List.cons_merge_cons]
          split
          · rename_i hle
            rw [leOf_iff] at hle
            refine List.pairwise_cons.mpr
              ⟨fun z hz => ?_, ihx _ hxs hy fun a ha => hxy a (List.mem_cons_of_mem _ ha)⟩
            rcases List.mem_append.mp ((List.merge_perm_append _).mem_iff.mp hz) with h | h
            · exact hxall z h
            · have hyz : cmp x z ≤ 0 := by
                rcases List.mem_cons.mp h with rfl | h
                · exact hle
                · exact htrans x y z hle (hyall z h).1
              exact ⟨hyz, fun _ => hxy x List.mem_cons_self z h⟩
          · -- `y` is strictly before `x`, so no tie can involve it on the left
            rename_i hnle
            rw [leOf_iff] at hnle
            have hyx : cmp y x ≤ 0 := (htotal x y).resolve_left hnle
            refine List.pairwise_cons.mpr
              ⟨fun z hz => ?_, ihy hys fun a ha b hb => hxy a ha b (List.mem_cons_of_mem _ hb)⟩
            rcases List.mem_append.mp ((List.merge_perm_append _).mem_iff.mp hz) with h | h
            · rcases List.mem_cons.mp h with rfl | h
              · exact ⟨hyx, fun hc => absurd hc hnle⟩
              · have hxz := (hxall z h).1
                exact ⟨htrans y x z hyx hxz, fun hc => absurd (htrans x z y hxz hc) hnle⟩
            · exact hyall z h

theorem pairwise_msortFuel (htotal : ∀ a b, cmp a b ≤ 0 ∨ cmp b a ≤ 0)
    (htrans : ∀ a b c, cmp a b ≤ 0 → cmp b c ≤ 0 → cmp a c ≤ 0)
    (fuel : Nat) (l : List α) (hfuel : l.length ≤ fuel) (hl : l.Pairwise r) :
    (msortFuel cmp fuel l).Pairwise (Stable cmp r) := by
  induction fuel generalizing l with
  | zero =>
      obtain rfl := List.length_eq_zero_iff.mp (Nat.le_zero.mp hfuel)
      exact List.Pairwise.nil
  | succ fuel ih =>
      rw [msortFuel]
      split
      · rename_i h1
        match l, h1 with
        | [], _ => exact List.Pairwise.nil
        | [a], _ => exact List.pairwise_singleton _ a
      · have happ : (l.take (l.length / 2) ++ l.drop (l.length / 2)).Pairwise r := by
          rwa [List.take_append_drop]
        obtain ⟨hleft, hright, hcross⟩ := List.pairwise_append.mp happ
        rw [merge_eq]
        refine pairwise_merge_stable htotal htrans _ _
          (ih _ (by rw [List.length_take]; omega) hleft)
          (ih _ (by rw [List.length_drop]; omega) hright) ?_
        intro a ha b hb
        exact hcross a ((msortFuel_perm cmp fuel _).mem_iff.mp ha)
          b ((msortFuel_perm cmp fuel _).mem_iff.mp hb)

/-- The sort is stable. -/
theorem pairwise_msort (htotal : ∀ a b, cmp a b ≤ 0 ∨ cmp b a ≤ 0)
    (htrans : ∀ a b c, cmp a b ≤ 0 → cmp b c ≤ 0 → cmp a c ≤ 0)
    {l : List α} (hl : l.Pairwise r) : (msort cmp l).Pairwise (Stable cmp r) :=
  pairwise_msortFuel htotal htrans l.length l (Nat.le_refl _) hl

end Stability

end Msort
