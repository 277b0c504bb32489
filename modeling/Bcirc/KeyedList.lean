import Mathlib.Data.List.Infix
import Mathlib.Data.List.Nodup

/-!
# Lists of records with keys

A list that is searched for the first record with a key, and to which a
record is added only when the search has found none. As long as records
change without changing their keys, what a search has found is found again
ever after.
-/

namespace KeyedList

variable {κ ν : Type} {key : ν → κ} {l l' l'' : List ν}

/-! ## Lists that only grow -/

/-- The records of `l` are still there, with their keys. -/
def Extends (key : ν → κ) (l l' : List ν) : Prop := l.map key <+: l'.map key

theorem Extends.refl (key : ν → κ) (l : List ν) : Extends key l l := List.prefix_refl _

theorem Extends.trans (h : Extends key l l') (h' : Extends key l' l'') : Extends key l l'' :=
  List.IsPrefix.trans h h'

theorem extends_concat (key : ν → κ) (l : List ν) (v : ν) : Extends key l (l ++ [v]) := by
  rw [Extends, List.map_append]
  exact List.prefix_append _ _

theorem map_modify {f : ν → ν} (hf : ∀ v, key (f v) = key v) (l : List ν) (i : Nat) :
    (l.modify i f).map key = l.map key := by
  refine List.ext_getElem? fun j => ?_
  rw [List.getElem?_map, List.getElem?_modify, List.getElem?_map]
  by_cases hij : i = j
  · cases l[j]? with
    | none => rfl
    | some v => simp [hij, hf]
  · simp [hij]

theorem extends_modify {f : ν → ν} (hf : ∀ v, key (f v) = key v) (l : List ν) (i : Nat) :
    Extends key l (l.modify i f) := by
  rw [Extends, map_modify hf]

theorem nodup_concat {v : ν} (h : (l.map key).Nodup) (hnew : key v ∉ l.map key) :
    ((l ++ [v]).map key).Nodup := by
  rw [List.map_append, List.map_singleton]
  refine List.nodup_append.mpr ⟨h, List.nodup_singleton _, fun a ha b hb heq => ?_⟩
  rw [List.mem_singleton.mp hb] at heq
  exact hnew (heq ▸ ha)

/-- What is left without the records of a key: no two of them have it. -/
theorem filter_key_ne [BEq κ] [LawfulBEq κ] {v : ν} {i : Nat} (h : (l.map key).Nodup)
    (hi : l[i]? = some v) : (l.filter fun w => key w != key v) = l.eraseIdx i := by
  induction l generalizing i with
  | nil => cases hi
  | cons w l ih =>
      rw [List.map_cons, List.nodup_cons] at h
      cases i with
      | zero =>
          obtain rfl : w = v := Option.some.inj hi
          have hrest : ∀ u ∈ l, (key u != key w) = true := fun u hu =>
            bne_iff_ne.mpr fun heq => h.1 (heq ▸ List.mem_map_of_mem hu)
          rw [List.filter_cons_of_neg (by simp), List.filter_eq_self.mpr hrest]
          rfl
      | succ i =>
          have hv : v ∈ l := List.mem_of_getElem? hi
          have hne : (key w != key v) = true :=
            bne_iff_ne.mpr fun heq => h.1 (heq ▸ List.mem_map_of_mem hv)
          rw [List.filter_cons_of_pos (p := fun w => key w != key v) hne, List.eraseIdx_cons_succ,
            ih h.2 hi]

/-! ## Searching -/

section Lookup

variable [BEq κ] {k : κ} {i : Nat}

def lookup (key : ν → κ) (k : κ) (l : List ν) : Option Nat := l.findIdx? fun v => key v == k

theorem lookup_eq (key : ν → κ) (k : κ) (l : List ν) :
    lookup key k l = (l.map key).findIdx? (· == k) := by
  rw [List.findIdx?_map]
  rfl

/-- What a search has found stays found. -/
theorem Extends.lookup (h : Extends key l l') (hk : lookup key k l = some i) :
    KeyedList.lookup key k l' = some i := by
  rw [lookup_eq] at hk ⊢
  exact List.IsPrefix.findIdx?_eq_some h hk

variable [LawfulBEq κ]

theorem lookup_some (h : lookup key k l = some i) : ∃ v, l[i]? = some v ∧ key v = k := by
  obtain ⟨hi, hkey, -⟩ := List.findIdx?_eq_some_iff_getElem.mp h
  exact ⟨l[i], List.getElem?_eq_getElem hi, eq_of_beq hkey⟩

theorem lookup_none (h : lookup key k l = none) : k ∉ l.map key := by
  intro hmem
  obtain ⟨v, hv, hkey⟩ := List.mem_map.mp hmem
  have hno := List.findIdx?_eq_none_iff.mp h v hv
  rw [hkey, beq_self_eq_true] at hno
  cases hno

theorem lookup_concat {v : ν} (hv : key v = k) (hnew : lookup key k l = none) :
    lookup key k (l ++ [v]) = some l.length := by
  have hlast : lookup key k [v] = some 0 := by
    simp [lookup, hv]
  unfold lookup at hnew hlast ⊢
  rw [List.findIdx?_append, hnew, hlast]
  simp

theorem lookup_concat_of_ne {v : ν} (hv : key v ≠ k) (l : List ν) :
    lookup key k (l ++ [v]) = lookup key k l := by
  have hlast : lookup key k [v] = none := by
    simp [lookup, hv]
  unfold lookup at hlast ⊢
  rw [List.findIdx?_append, hlast]
  simp

end Lookup

/-! ## Entries -/

section Entry

variable [BEq κ] {k k' : κ} {i : Nat} {f : ν → ν}

/-- The record that a search for the key finds. -/
def entry (key : ν → κ) (k : κ) (l : List ν) : Option ν := (lookup key k l).bind (l[·]?)

theorem entry_of_lookup (h : lookup key k l = some i) : entry key k l = l[i]? := by
  rw [entry, h, Option.bind_some]

theorem lookup_modify (hf : ∀ v, key (f v) = key v) (k : κ) (l : List ν) (i : Nat) :
    lookup key k (l.modify i f) = lookup key k l := by
  rw [lookup_eq, map_modify hf, ← lookup_eq]

theorem entry_modify (hf : ∀ v, key (f v) = key v) (h : lookup key k l = some i) :
    entry key k (l.modify i f) = (entry key k l).map f := by
  rw [entry_of_lookup h, entry_of_lookup ((lookup_modify hf k l i).trans h)]
  exact List.getElem?_modify_eq f i l

variable [LawfulBEq κ]

/-- Another key has another place. -/
theorem entry_modify_of_ne (hf : ∀ v, key (f v) = key v) (h : lookup key k l = some i)
    (hne : k' ≠ k) : entry key k' (l.modify i f) = entry key k' l := by
  unfold entry
  rw [lookup_modify hf]
  cases hfind : lookup key k' l with
  | none => rfl
  | some j =>
      obtain ⟨v, hv, hkey⟩ := lookup_some h
      obtain ⟨v', hv', hkey'⟩ := lookup_some hfind
      have hij : i ≠ j := by
        rintro rfl
        obtain rfl := Option.some.inj (hv.symm.trans hv')
        exact hne (hkey'.symm.trans hkey)
      exact List.getElem?_modify_ne f l hij

theorem entry_concat {v : ν} (hv : key v = k) (hnew : lookup key k l = none) :
    entry key k (l ++ [v]) = some v := by
  rw [entry_of_lookup (lookup_concat hv hnew), List.getElem?_concat_length]

theorem entry_concat_of_ne {v : ν} (hv : key v ≠ k) (l : List ν) :
    entry key k (l ++ [v]) = entry key k l := by
  unfold entry
  rw [lookup_concat_of_ne hv]
  cases hfind : lookup key k l with
  | none => rfl
  | some i =>
      obtain ⟨v', hv', -⟩ := lookup_some hfind
      obtain ⟨hi, -⟩ := List.getElem?_eq_some_iff.mp hv'
      exact List.getElem?_append_left hi

end Entry

end KeyedList
