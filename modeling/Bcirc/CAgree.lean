import Bcirc.CProg

/-!
# Two programs side by side

`SameEnd R V` compares how two runs end, each on a process state of its
own: both return, with values that `V` relates, or both fail with the same
fault, and either way `R` relates the states they leave. A faithful program
and an abstract one that agree like this cannot be told apart by a caller
who looks at the states through `R` only.

One rule per program former; a loop is compared by induction with them.
-/

namespace CProg

variable {σ τ α β γ δ : Type}

inductive SameEnd (R : σ → τ → Prop) (V : α → β → Prop) :
    EStateM.Result Fault σ α → EStateM.Result Fault τ β → Prop where
  | ok {a : α} {b : β} {s : σ} {t : τ} : V a b → R s t → SameEnd R V (.ok a s) (.ok b t)
  | error {e : Fault} {s : σ} {t : τ} : R s t → SameEnd R V (.error e s) (.error e t)

section Rules

variable {R : σ → τ → Prop} {V : α → β → Prop} {V' : γ → δ → Prop}

theorem SameEnd.endState {r : EStateM.Result Fault σ α} {r' : EStateM.Result Fault τ β}
    (h : SameEnd R V r r') : R (endState r) (endState r') := by
  cases h with
  | ok _ hR => exact hR
  | error hR => exact hR

theorem SameEnd.mono {R' : σ → τ → Prop} {r : EStateM.Result Fault σ α}
    {r' : EStateM.Result Fault τ β} (h : SameEnd R V r r') (hR : ∀ s t, R s t → R' s t) :
    SameEnd R' V r r' := by
  cases h with
  | ok hV h => exact .ok hV (hR _ _ h)
  | error h => exact .error (hR _ _ h)

theorem SameEnd.symm {r : EStateM.Result Fault σ α} {r' : EStateM.Result Fault τ α}
    (h : SameEnd R Eq r r') : SameEnd (fun t s => R s t) Eq r' r := by
  cases h with
  | ok hV hR => exact .ok hV.symm hR
  | error hR => exact .error hR

/-- Two comparisons with one run between them. -/
theorem SameEnd.trans {ρ : Type} {S : τ → ρ → Prop} {r : EStateM.Result Fault σ α}
    {r' : EStateM.Result Fault τ α} {r'' : EStateM.Result Fault ρ α}
    (h : SameEnd R Eq r r') (h' : SameEnd S Eq r' r'') :
    SameEnd (fun s u => ∃ t, R s t ∧ S t u) Eq r r'' := by
  cases h with
  | ok hV hR =>
      cases h' with
      | ok hV' hS => exact .ok (hV.trans hV') ⟨_, hR, hS⟩
  | error hR =>
      cases h' with
      | error hS => exact .error ⟨_, hR, hS⟩

/-- What comes next is compared from the states the first parts leave. -/
theorem SameEnd.bind {m : Prog σ α} {m' : Prog τ β} {f : α → Prog σ γ} {f' : β → Prog τ δ}
    {s : σ} {t : τ} (h : SameEnd R V (m s) (m' t))
    (hf : ∀ a b s t, V a b → R s t → SameEnd R V' (f a s) (f' b t)) :
    SameEnd R V' ((m >>= f) s) ((m' >>= f') t) := by
  cases hm : m s with
  | ok a u =>
      cases hm' : m' t with
      | ok b v =>
          rw [hm, hm'] at h
          cases h with
          | ok hV hR =>
              rw [bind_ok hm, bind_ok hm']
              exact hf a b u v hV hR
      | error e v =>
          rw [hm, hm'] at h
          cases h
  | error e u =>
      cases hm' : m' t with
      | ok b v =>
          rw [hm, hm'] at h
          cases h
      | error e' v =>
          rw [hm, hm'] at h
          cases h with
          | error hR =>
              rw [bind_error hm, bind_error hm']
              exact .error hR

/-- A lookup that both sides make, with the same fault when it finds nothing. -/
theorem SameEnd.orFault {o : Option α} {o' : Option β} {e : Fault} {s : σ} {t : τ}
    (h : Option.Rel V o o') (hR : R s t) :
    SameEnd R V (orFault e o s) (CProg.orFault e o' t) := by
  cases h with
  | some hV => exact .ok hV hR
  | none => exact .error hR

end Rules

end CProg
