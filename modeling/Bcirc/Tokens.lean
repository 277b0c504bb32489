import Mathlib.Data.List.Perm.Subperm
import Mathlib.Data.List.Nodup

/-!
# Threads that own keys

A collection of threads, each the owner of some keys. A thread takes a step
by being replaced with others that own no more than it did, so two threads
never come to own the same key, and what a thread relies on about its keys
is left alone by the steps of all the others.
-/

namespace Tokens

variable {T κ : Type} {owns : T → List κ} {threads new : List T} {t t' : T}

/-- No key has two owners, and none is owned twice. -/
def Exclusive (owns : T → List κ) (threads : List T) : Prop := (threads.flatMap owns).Nodup

/-- What every thread relies on, about each of its keys. -/
def Relies (owns : T → List κ) (P : T → κ → Prop) (threads : List T) : Prop :=
  ∀ t ∈ threads, ∀ k ∈ owns t, P t k

theorem Exclusive.nodup_owns (h : Exclusive owns threads) (ht : t ∈ threads) :
    (owns t).Nodup :=
  (List.nodup_flatMap.mp h).1 t ht

theorem Exclusive.countP_le_one (h : Exclusive owns threads) {p : T → Bool} {k : κ}
    (hp : ∀ t ∈ threads, p t = true → k ∈ owns t) : threads.countP p ≤ 1 := by
  induction threads with
  | nil => exact Nat.zero_le 1
  | cons t threads ih =>
      have hcons : (owns t ++ threads.flatMap owns).Nodup := h
      obtain ⟨-, htail, hapart⟩ := List.nodup_append.mp hcons
      rw [List.countP_cons]
      by_cases ht : p t = true
      · have hnone : threads.countP p = 0 := by
          refine List.countP_eq_zero.mpr fun t' ht' hpt' => ?_
          have hk' : k ∈ owns t' := hp t' (List.mem_cons_of_mem _ ht') hpt'
          exact hapart k (hp t List.mem_cons_self ht) k (List.mem_flatMap.mpr ⟨t', ht', hk'⟩) rfl
        simp only [hnone, ht, if_true, Nat.zero_add, Nat.le_refl]
      · rw [if_neg ht]
        exact ih htail fun t' ht' => hp t' (List.mem_cons_of_mem _ ht')

variable [DecidableEq T]

theorem perm_owners (ht : t ∈ threads) :
    (threads.flatMap owns).Perm (owns t ++ (threads.erase t).flatMap owns) :=
  (List.perm_cons_erase ht).flatMap_right owns

theorem Exclusive.replace (h : Exclusive owns threads) (ht : t ∈ threads)
    (hnew : (new.flatMap owns).Subperm (owns t)) :
    Exclusive owns (new ++ threads.erase t) := by
  have hall : (owns t ++ (threads.erase t).flatMap owns).Nodup :=
    (perm_owners ht).nodup_iff.mp h
  have hsub : (new.flatMap owns ++ (threads.erase t).flatMap owns).Subperm
      (owns t ++ (threads.erase t).flatMap owns) :=
    (List.subperm_append_right _).mpr hnew
  unfold Exclusive
  rw [List.flatMap_append]
  obtain ⟨l, hperm, hsublist⟩ := hsub
  exact hperm.nodup_iff.mp (hall.sublist hsublist)

theorem Exclusive.not_owned (h : Exclusive owns threads) (ht : t ∈ threads)
    (ht' : t' ∈ threads.erase t) {k : κ} (hk : k ∈ owns t') : k ∉ owns t := by
  have hall : (owns t ++ (threads.erase t).flatMap owns).Nodup :=
    (perm_owners ht).nodup_iff.mp h
  intro hown
  exact (List.nodup_append.mp hall).2.2 k hown k (List.mem_flatMap.mpr ⟨t', ht', hk⟩) rfl

/-- A step of `t` may change what is known of the keys of `t` only. -/
theorem Relies.replace {P P' : T → κ → Prop} (h : Relies owns P threads)
    (hexcl : Exclusive owns threads) (ht : t ∈ threads) (hnew : Relies owns P' new)
    (hframe : ∀ t' k, k ∉ owns t → P t' k → P' t' k) :
    Relies owns P' (new ++ threads.erase t) := by
  intro t' ht' k hk
  rcases List.mem_append.mp ht' with ht' | ht'
  · exact hnew t' ht' k hk
  · exact hframe t' k (hexcl.not_owned ht ht' hk) (h t' (List.mem_of_mem_erase ht') k hk)

end Tokens
