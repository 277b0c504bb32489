import Mathlib.Logic.Basic

/-!
# C programs as state transformers

`Prog σ α` is a C function that returns an `α` and works on the process
state `σ`. A run that leaves the defined behaviour of the language, or
that never returns, ends in a `Fault`; the state it had reached is kept,
so a safety property can still be asked of it.

`Ensures I m Q` is the partial-correctness triple used throughout: `m`
keeps the invariant `I`, faulty runs included, and a value it returns
satisfies `Q`. One rule per program former; the rules compose without
looking inside the pieces.
-/

namespace CProg

/-- Why a run of C code did not return: an access outside an object or
through a null pointer, a read of memory nothing was written to, a format
directive without an argument, a loop that cannot end, or calls nested
deeper than the run was given stack for. -/
inductive Fault where
  | outOfBounds
  | nullPointer
  | uninitialized
  | badFormat
  | diverges
  | tooDeep
  deriving DecidableEq, Repr

abbrev Prog (σ α : Type) := EStateM Fault σ α

variable {σ α β : Type}

def endState : EStateM.Result Fault σ α → σ
  | .ok _ s => s
  | .error _ s => s

@[simp] theorem endState_ok (a : α) (s : σ) :
    endState (.ok a s : EStateM.Result Fault σ α) = s := rfl

@[simp] theorem endState_error (e : Fault) (s : σ) :
    endState (.error e s : EStateM.Result Fault σ α) = s := rfl

/-- Whether a run returned. -/
def returned : EStateM.Result Fault σ α → Bool
  | .ok _ _ => true
  | .error _ _ => false

theorem eq_ok_of_returned {r : EStateM.Result Fault σ α} (h : returned r) :
    ∃ a, r = .ok a (endState r) := by
  cases r with
  | ok a s => exact ⟨a, rfl⟩
  | error e s => cases h

def orFault (e : Fault) : Option α → Prog σ α
  | some a => pure a
  | none => throw e

/-! ## Running the program formers -/

theorem bind_ok {m : Prog σ α} {f : α → Prog σ β} {s s' : σ} {a : α}
    (h : m s = .ok a s') : (m >>= f) s = f a s' := by
  simp only [bind, EStateM.bind, h]

theorem of_bind_ok {m : Prog σ α} {f : α → Prog σ β} {s s'' : σ} {b : β}
    (h : (m >>= f) s = .ok b s'') : ∃ a s', m s = .ok a s' ∧ f a s' = .ok b s'' := by
  cases hm : m s with
  | ok a s' => exact ⟨a, s', rfl, (bind_ok hm).symm.trans h⟩
  | error e s' =>
      simp only [bind, EStateM.bind, hm] at h
      cases h

theorem bind_error {m : Prog σ α} {f : α → Prog σ β} {s s' : σ} {e : Fault}
    (h : m s = .error e s') : (m >>= f) s = .error e s' := by
  simp only [bind, EStateM.bind, h]

theorem bind_congr_run {m m' : Prog σ α} {f : α → Prog σ β} {s : σ} (h : m s = m' s) :
    (m >>= f) s = (m' >>= f) s := by
  cases hm : m' s with
  | ok a s' => rw [bind_ok (h.trans hm), bind_ok hm]
  | error e s' => rw [bind_error (h.trans hm), bind_error hm]

theorem of_bind_error {m : Prog σ α} {f : α → Prog σ β} {s s'' : σ} {e : Fault}
    (h : (m >>= f) s = .error e s'') :
    m s = .error e s'' ∨ ∃ a s', m s = .ok a s' ∧ f a s' = .error e s'' := by
  cases hm : m s with
  | ok a s' => exact Or.inr ⟨a, s', rfl, (bind_ok hm).symm.trans h⟩
  | error e' s' =>
      rw [bind_error hm] at h
      cases h
      exact Or.inl rfl

theorem endState_bind_pure (m : Prog σ α) (b : β) (s : σ) :
    endState ((m >>= fun _ => pure b) s) = endState (m s) := by
  cases hm : m s with
  | ok a s' =>
      rw [bind_ok hm]
      rfl
  | error e s' => rw [bind_error hm, endState_error, endState_error]

@[simp] theorem pure_run (a : α) (s : σ) : (pure a : Prog σ α) s = .ok a s := rfl

@[simp] theorem get_bind_run (f : σ → Prog σ β) (s : σ) :
    (get >>= f) s = f s s := rfl

@[simp] theorem modify_bind_run (g : σ → σ) (f : PUnit → Prog σ β) (s : σ) :
    (modify g >>= f) s = f ⟨⟩ (g s) := rfl

@[simp] theorem modify_run (g : σ → σ) (s : σ) :
    (modify g : Prog σ PUnit) s = .ok ⟨⟩ (g s) := rfl

@[simp] theorem throw_run (e : Fault) (s : σ) :
    (throw e : Prog σ α) s = .error e s := rfl

@[simp] theorem pure_bind_run (a : α) (f : α → Prog σ β) (s : σ) :
    (pure a >>= f) s = f a s := rfl

@[simp] theorem orFault_some (e : Fault) (a : α) :
    (orFault e (some a) : Prog σ α) = pure a := rfl

@[simp] theorem orFault_none (e : Fault) :
    (orFault e (none : Option α) : Prog σ α) = throw e := rfl

@[simp] theorem liftExcept_ok (a : α) :
    (liftExcept (.ok a : Except Fault α) : Prog σ α) = pure a := rfl

@[simp] theorem liftExcept_error (e : Fault) :
    (liftExcept (.error e : Except Fault α) : Prog σ α) = throw e := rfl

theorem of_liftExcept_bind_ok {r : Except Fault α} {f : α → Prog σ β} {s s' : σ} {b : β}
    (h : (liftExcept r >>= f) s = .ok b s') : ∃ a, r = .ok a ∧ f a s = .ok b s' := by
  cases r with
  | ok a => exact ⟨a, rfl, h⟩
  | error e => cases h

/-! ## The triple -/

/-- `m` keeps `I` on every run, faulty ones included, and what it returns
satisfies `Q`. -/
def Ensures (I : σ → Prop) (m : Prog σ α) (Q : α → Prop) : Prop :=
  ∀ s, I s → I (endState (m s)) ∧ ∀ a s', m s = .ok a s' → Q a

section Rules

variable {I : σ → Prop} {m : Prog σ α} {Q : α → Prop}

theorem Ensures.pure {a : α} (h : Q a) : Ensures I (pure a : Prog σ α) Q := by
  intro s hs
  refine ⟨hs, fun a' s' ha => ?_⟩
  cases ha
  exact h

theorem Ensures.throw (e : Fault) : Ensures I (throw e : Prog σ α) Q := by
  intro s hs
  refine ⟨hs, fun a' s' ha => ?_⟩
  cases ha

theorem Ensures.bind {f : α → Prog σ β} {S : β → Prop}
    (hm : Ensures I m Q) (hf : ∀ a, Q a → Ensures I (f a) S) :
    Ensures I (m >>= f) S := by
  intro s hs
  obtain ⟨hI, hQ⟩ := hm s hs
  cases hr : m s with
  | ok a s' =>
      rw [bind_ok hr]
      rw [hr] at hI
      exact hf a (hQ a s' hr) s' hI
  | error e s' =>
      rw [bind_error hr]
      rw [hr] at hI
      refine ⟨hI, fun b t hb => ?_⟩
      cases hb

theorem Ensures.throw_bind {f : α → Prog σ β} {S : β → Prop} (e : Fault) :
    Ensures I (MonadExcept.throw e >>= f) S :=
  Ensures.bind (Ensures.throw (Q := fun _ => False) e) fun _ h => h.elim

/-- Where nothing has to be kept, what runs first does not matter. -/
theorem Ensures.after {f : α → Prog σ β} {S : β → Prop}
    (hf : ∀ a, Ensures (fun _ => True) (f a) S) : Ensures (fun _ => True) (m >>= f) S :=
  Ensures.bind (Q := fun _ => True) (fun _ _ => ⟨trivial, fun _ _ _ => trivial⟩)
    fun a _ => hf a

theorem Ensures.get_bind {f : σ → Prog σ β} {S : β → Prop}
    (hf : ∀ s, I s → Ensures I (f s) S) : Ensures I (get >>= f) S := by
  intro s hs
  rw [get_bind_run]
  exact hf s hs s hs

theorem Ensures.modify {g : σ → σ} (hg : ∀ s, I s → I (g s)) :
    Ensures I (modify g) fun _ => True :=
  fun s hs => ⟨hg s hs, fun _ _ _ => trivial⟩

theorem Ensures.orFault (e : Fault) {o : Option α} (h : ∀ a, o = some a → Q a) :
    Ensures I (orFault e o : Prog σ α) Q := by
  cases o with
  | some a => exact Ensures.pure (h a rfl)
  | none => exact Ensures.throw e

theorem Ensures.liftExcept {r : Except Fault α} (h : ∀ a, r = .ok a → Q a) :
    Ensures I (liftExcept r : Prog σ α) Q := by
  cases r with
  | ok a => exact Ensures.pure (h a rfl)
  | error e => exact Ensures.throw e

theorem Ensures.ite {c : Prop} [Decidable c] {m' : Prog σ α}
    (ht : c → Ensures I m Q) (he : ¬ c → Ensures I m' Q) :
    Ensures I (if c then m else m') Q := by
  split
  · exact ht ‹_›
  · exact he ‹_›

end Rules

/-! ## Programs that do not see a part of the state -/

def mapState (g : σ → σ) : EStateM.Result Fault σ α → EStateM.Result Fault σ α
  | .ok a s => .ok a (g s)
  | .error e s => .error e (g s)

@[simp] theorem endState_mapState (g : σ → σ) (r : EStateM.Result Fault σ α) :
    endState (mapState g r) = g (endState r) := by
  cases r <;> rfl

/-- The runs of `m` from `s` and from `g s` are the same up to `g`. -/
def Blind (g : σ → σ) (m : Prog σ α) : Prop := ∀ s, m (g s) = mapState g (m s)

section Blind

variable {g : σ → σ}

theorem Blind.pure (a : α) : Blind g (pure a : Prog σ α) := fun _ => rfl

theorem Blind.throw (e : Fault) : Blind g (throw e : Prog σ α) := fun _ => rfl

theorem Blind.orFault (e : Fault) (o : Option α) : Blind g (orFault e o : Prog σ α) := by
  cases o with
  | some a => exact Blind.pure a
  | none => exact Blind.throw e

theorem Blind.modify {h : σ → σ} (hgh : ∀ s, h (g s) = g (h s)) :
    Blind g (modify h) := fun s =>
  congrArg (EStateM.Result.ok PUnit.unit) (hgh s)

theorem Blind.bind {m : Prog σ α} {f : α → Prog σ β} (hm : Blind g m)
    (hf : ∀ a, Blind g (f a)) : Blind g (m >>= f) := by
  intro s
  have hs := hm s
  cases hr : m s with
  | ok a s' =>
      rw [hr] at hs
      rw [bind_ok hs, bind_ok hr]
      exact hf a s'
  | error e s' =>
      rw [hr] at hs
      rw [bind_error hs, bind_error hr]
      rfl

/-- Reading the state is fine as long as what is read is the same. -/
theorem Blind.get_bind {f : σ → Prog σ β} (hread : ∀ s, f (g s) = f s)
    (hf : ∀ s, Blind g (f s)) : Blind g (get >>= f) := by
  intro s
  rw [get_bind_run, get_bind_run, hread]
  exact hf s s

end Blind

end CProg
