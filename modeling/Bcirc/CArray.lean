import Bcirc.CProg

/-!
# Arrays that are written to

A write through a pointer into an array, with an index that may be any
number, and the loops that fill an array from its start. What is behind
the bytes that were written stays as it was (`filled`). Where an access
behind the array goes on, the subscripts are noted (`Noted`).
-/

namespace CArray

open CProg

variable {α : Type}

/-- `array[i] = x`. -/
def store (array : List α) (i : Int) (x : α) : Except Fault (List α) :=
  if 0 ≤ i ∧ i < array.length then .ok (array.set i.toNat x) else .error .outOfBounds

/-- The bytes `xs` from `array[i]` on. -/
def storeAll (array : List α) (i : Nat) : List α → Except Fault (List α)
  | [] => .ok array
  | x :: xs => do
      let array ← store array i x
      storeAll array (i + 1) xs

theorem ok_bind {β : Type} (a : α) (f : α → Except Fault β) : (.ok a >>= f) = f a := rfl

theorem error_bind {β : Type} (e : Fault) (f : α → Except Fault β) :
    (.error e >>= f) = .error e := rfl

/-- The array `junk` when its first places were written to. -/
def filled (junk written : List α) : List α := written ++ junk.drop written.length

section Filled

variable {junk written : List α}

theorem filled_nil (junk : List α) : filled junk [] = junk := rfl

theorem length_filled (h : written.length ≤ junk.length) :
    (filled junk written).length = junk.length := by
  rw [filled, List.length_append, List.length_drop]
  omega

theorem store_filled (h : written.length < junk.length) (x : α) :
    store (filled junk written) written.length x = .ok (filled junk (written ++ [x])) := by
  have hlen : (written.length : Int) < (filled junk written).length := by
    rw [length_filled (Nat.le_of_lt h)]
    omega
  have hset : (filled junk written).set written.length x = filled junk (written ++ [x]) := by
    rw [filled, List.drop_eq_getElem_cons h, List.set_append_right _ _ (Nat.le_refl _),
      Nat.sub_self, List.set_cons_zero, filled, List.length_append, List.length_singleton,
      List.append_assoc]
    rfl
  rw [store, if_pos ⟨Int.natCast_nonneg _, hlen⟩, Int.toNat_natCast, hset]

/-- A full array takes no more. -/
theorem store_full (h : written.length = junk.length) (x : α) :
    store (filled junk written) written.length x = .error .outOfBounds := by
  have hlen : (filled junk written).length = written.length := by
    rw [length_filled (Nat.le_of_eq h), h]
  rw [store, hlen, if_neg (by omega)]

theorem storeAll_filled {xs : List α} (h : written.length + xs.length ≤ junk.length) :
    storeAll (filled junk written) written.length xs = .ok (filled junk (written ++ xs)) := by
  induction xs generalizing written with
  | nil => rw [storeAll, List.append_nil]
  | cons x xs ih =>
      rw [List.length_cons] at h
      have hrest : storeAll (filled junk (written ++ [x])) (written ++ [x]).length xs =
          .ok (filled junk (written ++ [x] ++ xs)) :=
        ih (by rw [List.length_append, List.length_singleton]; omega)
      rw [List.length_append, List.length_singleton, List.append_assoc] at hrest
      rw [storeAll, store_filled (by omega)]
      exact hrest

/-- From the start of the array. -/
theorem storeAll_start {xs : List α} (h : xs.length ≤ junk.length) :
    storeAll junk 0 xs = .ok (filled junk xs) :=
  @storeAll_filled α junk [] xs (by rwa [List.length_nil, Nat.zero_add])

/-- All of the array. -/
theorem storeAll_whole {xs : List α} (h : xs.length = junk.length) :
    storeAll junk 0 xs = .ok xs := by
  rw [storeAll_start (Nat.le_of_eq h), filled, h, List.drop_length, List.append_nil]

/-- The last place that was written to is written to once more. -/
theorem store_last (h : written.length < junk.length) (x y : α) :
    store (filled junk (written ++ [x])) ((written ++ [x]).length - 1) y =
      .ok (filled junk (written ++ [y])) := by
  have hindex : ((written ++ [x]).length - 1 : Int) = written.length := by
    rw [List.length_append, List.length_singleton]
    omega
  have hlen : (written.length : Int) < (filled junk (written ++ [x])).length := by
    rw [length_filled (by rw [List.length_append, List.length_singleton]; omega)]
    omega
  have hset : (filled junk (written ++ [x])).set written.length y =
      filled junk (written ++ [y]) := by
    rw [filled, List.append_assoc, List.set_append_right _ _ (Nat.le_refl _), Nat.sub_self,
      filled, List.append_assoc, List.length_append, List.length_append]
    rfl
  rw [hindex, store, if_pos ⟨Int.natCast_nonneg _, hlen⟩, Int.toNat_natCast, hset]

/-- Nothing is in front of an array. -/
theorem store_before (array : List α) (x : α) : store array (-1) x = .error .outOfBounds := by
  rw [store, if_neg (by omega)]

end Filled

/-! ## Subscripts -/

/-- Memory from the start of an array on, what is behind the array
included, and the subscripts used on the array so far. -/
structure Noted (α : Type) where
  cells : List α
  used : List Nat
  deriving DecidableEq, Repr

/-- `array[i]`. -/
def readAt (i : Nat) : Prog (Noted α) α := do
  modify fun array => { array with used := array.used ++ [i] }
  let array ← get
  orFault .outOfBounds array.cells[i]?

/-- `array[i] = x`. -/
def writeAt (i : Nat) (x : α) : Prog (Noted α) Unit := do
  modify fun array => { array with used := array.used ++ [i] }
  let array ← get
  if i < array.cells.length then
    modify fun array => { array with cells := array.cells.set i x }
  else throw .outOfBounds

theorem readAt_ok {cells : List α} {i : Nat} {x : α} (h : cells[i]? = some x) (used : List Nat) :
    readAt i ⟨cells, used⟩ = .ok x ⟨cells, used ++ [i]⟩ := by
  unfold readAt
  rw [modify_bind_run, get_bind_run, h]
  rfl

theorem writeAt_ok {cells : List α} {i : Nat} (h : i < cells.length) (x : α) (used : List Nat) :
    writeAt i x ⟨cells, used⟩ = .ok () ⟨cells.set i x, used ++ [i]⟩ := by
  unfold writeAt
  rw [modify_bind_run, get_bind_run, if_pos h]
  rfl

end CArray
