import Bcirc.CArray
import Bcirc.CStr

/-!
# Strings in memory

Code that works through two pointers into the same bytes. Memory is a list
of bytes and a pointer a position in it; `stringAt`, `writeBytes` and
`memmove` are the accesses. A run that writes upwards from one place leaves
`overwrite` of what it started with, and a string it is still reading stays
what it was as long as the writes end before it or start behind it
(`HoldsAt.overwrite_below`, `HoldsAt.overwrite_above`).
-/

namespace CMem

open CProg CStr CArray

abbrev Mem := List UInt8

/-- The string that starts at `p`. -/
def stringAt (p : Nat) : Prog Mem Str := do
  let mem ← get
  if 0 ∈ mem.drop p then pure (untilNul (mem.drop p)) else throw .outOfBounds

/-- `memcpy` from an object of its own. -/
def writeBytes (dest : Nat) (bytes : Str) : Prog Mem Unit := do
  let mem ← get
  let mem ← liftExcept (storeAll mem dest bytes)
  set mem

/-- `memmove`: what is copied is read first. -/
def memmove (dest src n : Nat) : Prog Mem Unit := do
  let mem ← get
  if src + n ≤ mem.length then writeBytes dest ((mem.drop src).take n)
  else throw .outOfBounds

/-! ## What is written -/

section Overwrite

variable {α : Type} {mem xs ys : List α} {i p : Nat}

/-- `mem` with `xs` from `i` on. -/
def overwrite (mem : List α) (i : Nat) (xs : List α) : List α :=
  mem.take i ++ xs ++ mem.drop (i + xs.length)

@[simp] theorem overwrite_nil (mem : List α) (i : Nat) : overwrite mem i [] = mem := by
  rw [overwrite, List.append_nil, List.length_nil, Nat.add_zero, List.take_append_drop]

theorem length_overwrite (h : i + xs.length ≤ mem.length) :
    (overwrite mem i xs).length = mem.length := by
  rw [overwrite, List.length_append, List.length_append, List.length_take, List.length_drop]
  omega

/-- Behind what was written nothing has changed. -/
theorem drop_overwrite (h : i ≤ mem.length) (hp : i + xs.length ≤ p) :
    (overwrite mem i xs).drop p = mem.drop p := by
  have hlen : (mem.take i ++ xs).length = i + xs.length := by
    rw [List.length_append, List.length_take]
    omega
  rw [overwrite, List.drop_append, List.drop_eq_nil_of_le (by omega), List.nil_append,
    List.drop_drop, hlen]
  congr 1
  omega

theorem drop_overwrite_start (h : i ≤ mem.length) :
    (overwrite mem i xs).drop i = xs ++ mem.drop (i + xs.length) := by
  have hlen : (mem.take i).length = i := List.length_take_of_le h
  rw [overwrite, List.append_assoc, List.drop_append_of_le_length (by omega),
    List.drop_eq_nil_of_le (by omega), List.nil_append]

/-- In front of it neither. -/
theorem drop_overwrite_of_le (hp : p ≤ i) (hi : i ≤ mem.length) :
    (overwrite mem i xs).drop p = overwrite (mem.drop p) (i - p) xs := by
  have hlen : (mem.take i).length = i := by
    rw [List.length_take]
    omega
  rw [overwrite, overwrite, List.append_assoc, List.drop_append_of_le_length (by omega),
    List.drop_take, List.drop_drop, List.append_assoc]
  congr 3
  omega

theorem overwrite_append (h : i + xs.length ≤ mem.length) :
    overwrite (overwrite mem i xs) (i + xs.length) ys = overwrite mem i (xs ++ ys) := by
  have hlen : (mem.take i ++ xs).length = i + xs.length := by
    rw [List.length_append, List.length_take]
    omega
  have htake : (overwrite mem i xs).take (i + xs.length) = mem.take i ++ xs := by
    rw [overwrite, ← hlen, List.take_left]
  have hdrop : (overwrite mem i xs).drop (i + xs.length + ys.length) =
      mem.drop (i + xs.length + ys.length) := drop_overwrite (by omega) (by omega)
  rw [overwrite, htake, hdrop, overwrite, List.length_append, ← Nat.add_assoc]
  simp only [List.append_assoc]

theorem overwrite_singleton {x : α} (h : i < mem.length) :
    overwrite mem i [x] = mem.set i x := by
  rw [overwrite, List.set_eq_take_append_cons_drop, if_pos h, List.append_assoc]
  rfl

theorem storeAll_eq_overwrite (h : i + xs.length ≤ mem.length) :
    storeAll mem i xs = .ok (overwrite mem i xs) := by
  induction xs generalizing mem i with
  | nil => rw [storeAll, overwrite_nil]
  | cons x xs ih =>
      rw [List.length_cons] at h
      have hset : overwrite mem i [x] = mem.set i x := overwrite_singleton (by omega)
      have hrest : overwrite (overwrite mem i [x]) (i + [x].length) xs =
          overwrite mem i ([x] ++ xs) :=
        overwrite_append (by rw [List.length_singleton]; omega)
      rw [hset, List.length_singleton, List.singleton_append] at hrest
      rw [storeAll, store, if_pos (by omega), Int.toNat_natCast, ok_bind,
        ih (by rw [List.length_set]; omega), hrest]

end Overwrite

/-! ## What is read -/

/-- `s` is the string at `p`. -/
def HoldsAt (mem : Mem) (p : Nat) (s : Str) : Prop :=
  0 ∉ s ∧ ∃ rest, mem.drop p = s ++ 0 :: rest

section HoldsAt

variable {mem : Mem} {p : Nat} {s : Str}

theorem HoldsAt.bound (h : HoldsAt mem p s) : p + s.length + 1 ≤ mem.length := by
  obtain ⟨-, rest, hdrop⟩ := h
  have hlen := congrArg List.length hdrop
  rw [List.length_drop, List.length_append, List.length_cons] at hlen
  omega

theorem HoldsAt.advance (h : HoldsAt mem p s) {n : Nat} (hn : n ≤ s.length) :
    HoldsAt mem (p + n) (s.drop n) := by
  obtain ⟨hnul, rest, hdrop⟩ := h
  refine ⟨fun h0 => hnul (List.mem_of_mem_drop h0), rest, ?_⟩
  rw [← List.drop_drop, hdrop, List.drop_append_of_le_length hn]

/-- The writes end before the string. -/
theorem HoldsAt.overwrite_below (h : HoldsAt mem p s) {i : Nat} {xs : Str}
    (hi : i + xs.length ≤ p) : HoldsAt (overwrite mem i xs) p s := by
  have hbound := h.bound
  obtain ⟨hnul, rest, hdrop⟩ := h
  exact ⟨hnul, rest, (drop_overwrite (by omega) hi).trans hdrop⟩

/-- The writes start behind its terminator. -/
theorem HoldsAt.overwrite_above (h : HoldsAt mem p s) {i : Nat} {xs : Str}
    (hi : p + s.length + 1 ≤ i) (hlen : i ≤ mem.length) : HoldsAt (overwrite mem i xs) p s := by
  obtain ⟨hnul, rest, hdrop⟩ := h
  refine ⟨hnul, overwrite rest (i - p - (s.length + 1)) xs, ?_⟩
  have hcut : s ++ 0 :: rest = (s ++ [0]) ++ rest := by
    rw [List.append_assoc, List.singleton_append]
  have hs : (s ++ [0]).length = s.length + 1 := by
    rw [List.length_append, List.length_singleton]
  rw [drop_overwrite_of_le (by omega) hlen, hdrop, hcut, overwrite, overwrite,
    List.take_append, List.take_of_length_le (by omega), List.drop_append,
    List.drop_eq_nil_of_le (by omega), List.nil_append, hs, List.append_assoc,
    List.append_assoc, List.append_assoc, List.append_assoc, List.singleton_append]
  congr 5
  omega

theorem stringAt_run (h : HoldsAt mem p s) : stringAt p mem = .ok s mem := by
  obtain ⟨hnul, rest, hdrop⟩ := h
  unfold stringAt
  rw [get_bind_run, hdrop, if_pos (List.mem_append_right s List.mem_cons_self),
    untilNul_append hnul]
  show EStateM.Result.ok (s ++ untilNul (0 :: rest)) mem = _
  rw [untilNul, List.takeWhile_cons_of_neg (by simp), List.append_nil]

theorem writeBytes_run {dest : Nat} {bytes : Str} (h : dest + bytes.length ≤ mem.length) :
    writeBytes dest bytes mem = .ok () (overwrite mem dest bytes) := by
  unfold writeBytes
  rw [get_bind_run, storeAll_eq_overwrite h, liftExcept_ok]
  rfl

/-- Some bytes of a string are copied. -/
theorem memmove_run (h : HoldsAt mem p s) {dest n : Nat} (hn : n ≤ s.length)
    (hdest : dest + n ≤ mem.length) :
    memmove dest p n mem = .ok () (overwrite mem dest (s.take n)) := by
  have hbound := h.bound
  obtain ⟨-, rest, hdrop⟩ := h
  have hlen : (s.take n).length = n := List.length_take_of_le hn
  unfold memmove
  rw [get_bind_run, if_pos (by omega), hdrop, List.take_append_of_le_length hn]
  exact writeBytes_run (by omega)

/-- The next bytes of a result that has come to `out`. -/
theorem writeBytes_next (mem : Mem) (dest : Nat) (out bytes : Str)
    (h : dest + out.length + bytes.length ≤ mem.length) :
    writeBytes (dest + out.length) bytes (overwrite mem dest out) =
      .ok () (overwrite mem dest (out ++ bytes)) := by
  have hlen : (overwrite mem dest out).length = mem.length := length_overwrite (by omega)
  rw [writeBytes_run (by omega), overwrite_append (by omega)]

theorem memmove_next {dest n : Nat} {out : Str} (hs : HoldsAt (overwrite mem dest out) p s)
    (hn : n ≤ s.length) (h : dest + out.length + n ≤ mem.length) :
    memmove (dest + out.length) p n (overwrite mem dest out) =
      .ok () (overwrite mem dest (out ++ s.take n)) := by
  have hlen : (overwrite mem dest out).length = mem.length := length_overwrite (by omega)
  rw [memmove_run hs hn (by omega), overwrite_append (by omega)]

end HoldsAt

end CMem
