import Mathlib.Data.List.Infix

/-!
# Transition systems

States reached from initial ones by steps, and the two ways such runs are
used: an invariant is shown once for the initial states and once for a
step, and a concrete run of a system whose steps are chosen by events is
replayed. Where a step always succeeds, the states of a run are those
after the prefixes of its list of events (`runAll`). A log of who saw which
state of some shared data is a run too (`Relay`).
-/

namespace Transition

variable {S E : Type}

inductive Reach (init : S → Prop) (step : S → S → Prop) : S → Prop where
  | init {s : S} (h : init s) : Reach init step s
  | step {s s' : S} (h : Reach init step s) (hstep : step s s') : Reach init step s'

theorem Reach.invariant {init : S → Prop} {step : S → S → Prop} {I : S → Prop}
    (hinit : ∀ s, init s → I s) (hstep : ∀ s s', I s → step s s' → I s') {s : S}
    (h : Reach init step s) : I s := by
  induction h with
  | init h => exact hinit _ h
  | step _ hs ih => exact hstep _ _ ih hs

/-- A step by some event. -/
def someEvent (next : S → E → Option S) (s s' : S) : Prop := ∃ e, next s e = some s'

/-- The state after `events`; `none` when one of them is not enabled. -/
def replay (next : S → E → Option S) (s : S) : List E → Option S
  | [] => some s
  | e :: events => (next s e).bind fun s' => replay next s' events

theorem reach_of_replay {init : S → Prop} {next : S → E → Option S} {s s' : S}
    {events : List E} (h : Reach init (someEvent next) s)
    (hreplay : replay next s events = some s') : Reach init (someEvent next) s' := by
  induction events generalizing s with
  | nil =>
      obtain rfl : s = s' := Option.some.inj hreplay
      exact h
  | cons e events ih =>
      obtain ⟨s₁, hs₁, hrest⟩ := Option.bind_eq_some_iff.mp hreplay
      exact ih (h.step ⟨e, hs₁⟩) hrest

theorem replay_append (next : S → E → Option S) (s : S) (events events' : List E) :
    replay next s (events ++ events') =
      (replay next s events).bind fun s' => replay next s' events' := by
  induction events generalizing s with
  | nil => rfl
  | cons e events ih =>
      rw [List.cons_append, replay, replay, Option.bind_assoc]
      congr 1
      exact funext fun s' => ih s'

/-- The states before and after one of the events of a run. -/
theorem replay_at {next : S → E → Option S} {s s' : S} {pre post : List E} {e : E}
    (h : replay next s (pre ++ e :: post) = some s') :
    ∃ s₁ s₂, replay next s pre = some s₁ ∧ next s₁ e = some s₂ ∧
      replay next s (pre ++ [e]) = some s₂ := by
  rw [replay_append] at h
  obtain ⟨s₁, hpre, hrest⟩ := Option.bind_eq_some_iff.mp h
  obtain ⟨s₂, he, -⟩ := Option.bind_eq_some_iff.mp hrest
  refine ⟨s₁, s₂, hpre, he, ?_⟩
  rw [replay_append, hpre, Option.bind_some, replay, he]
  rfl

/-- An invariant that the events of a run keep. -/
theorem replay_invariant {next : S → E → Option S} {I : S → Prop} {s s' : S} {events : List E}
    (hstep : ∀ s e s', e ∈ events → I s → next s e = some s' → I s') (hs : I s)
    (h : replay next s events = some s') : I s' := by
  induction events generalizing s with
  | nil =>
      obtain rfl : s = s' := Option.some.inj h
      exact hs
  | cons e events ih =>
      obtain ⟨s₁, hs₁, hrest⟩ := Option.bind_eq_some_iff.mp h
      exact ih (fun s e s' he => hstep s e s' (List.mem_cons_of_mem _ he))
        (hstep s e s₁ List.mem_cons_self hs hs₁) hrest

/-! ## Total steps -/

section RunAll

variable (run : E → S → S)

def runAll (s : S) (events : List E) : S := events.foldl (fun s e => run e s) s

theorem runAll_concat (s : S) (events : List E) (e : E) :
    runAll run s (events ++ [e]) = run e (runAll run s events) := by
  simp [runAll]

/-- Where a step that is `Ok` keeps the invariant and one that is not leaves
the property: the property holds along a run if and only if every step of
the run is `Ok`. -/
theorem forall_prefix_of_invariant {I P : S → Prop} {Ok : E → S → Prop} {s : S} (hinit : I s)
    (hprop : ∀ s, I s → P s) (hok : ∀ e s, I s → Ok e s → I (run e s))
    (hbad : ∀ e s, I s → ¬ Ok e s → ¬ P (run e s)) (events : List E) :
    (∀ pre, pre <+: events → P (runAll run s pre)) ↔
      ∀ pre e, pre ++ [e] <+: events → Ok e (runAll run s pre) := by
  constructor
  · intro hall
    have hkept : ∀ pre, pre <+: events → I (runAll run s pre) := by
      intro pre hpre
      induction pre using List.reverseRecOn with
      | nil => exact hinit
      | append_singleton pre e ih =>
          have hbefore := ih ((List.prefix_append pre [e]).trans hpre)
          have hafter := hall (pre ++ [e]) hpre
          rw [runAll_concat] at hafter ⊢
          exact hok e _ hbefore (by_contra fun h => hbad e _ hbefore h hafter)
    intro pre e hpre
    have hafter := hall (pre ++ [e]) hpre
    rw [runAll_concat] at hafter
    have hbefore := hkept pre ((List.prefix_append pre [e]).trans hpre)
    exact by_contra fun h => hbad e _ hbefore h hafter
  · intro hall pre hpre
    refine hprop _ ?_
    induction pre using List.reverseRecOn with
    | nil => exact hinit
    | append_singleton pre e ih =>
        rw [runAll_concat]
        exact hok e _ (ih ((List.prefix_append pre [e]).trans hpre)) (hall pre e hpre)

/-- An invariant that a step keeps exactly when `Ok` holds before it: it
holds along a run if and only if every step of the run is `Ok`. -/
theorem forall_prefix_iff {I : S → Prop} {Ok : E → S → Prop} {s : S} (hinit : I s)
    (hstep : ∀ e s, I s → (I (run e s) ↔ Ok e s)) (events : List E) :
    (∀ pre, pre <+: events → I (runAll run s pre)) ↔
      ∀ pre e, pre ++ [e] <+: events → Ok e (runAll run s pre) :=
  forall_prefix_of_invariant run hinit (fun _ hs => hs) (fun e s hs => (hstep e s hs).mpr)
    (fun e s hs hnot hafter => hnot ((hstep e s hs).mp hafter)) events

end RunAll

/-! ## Shared data -/

section Relay

variable {M : Type} (sees after : E → M)

/-- The log of a run from `m` to `m'`: an entry sees what the one before it
has left. -/
def Relay (m' : M) : M → List E → Prop
  | m, [] => m = m'
  | m, e :: log => sees e = m ∧ Relay m' (after e) log

variable {sees after}

theorem Relay.concat {m m' : M} {log : List E} (h : Relay sees after m' m log) {e : E}
    (he : sees e = m') : Relay sees after (after e) m (log ++ [e]) := by
  induction log generalizing m with
  | nil => exact ⟨he.trans h.symm, rfl⟩
  | cons first log ih => exact ⟨h.1, ih h.2⟩

/-- Every entry sees the data as it was at first if and only if every entry
but the last leaves it so. -/
theorem Relay.forall_sees_iff {m m' : M} {log : List E} (h : Relay sees after m' m log)
    {Keeps : E → Prop} (hkeeps : ∀ e, sees e = m → (after e = m ↔ Keeps e)) :
    (∀ e ∈ log, sees e = m) ↔
      ∀ pre e next post, log = pre ++ e :: next :: post → Keeps e := by
  constructor
  · intro hall pre e next post hlog
    subst hlog
    -- the entry after `e` sees what `e` has left
    have hrelay : ∀ (pre : List E) (m₁ : M),
        Relay sees after m' m₁ (pre ++ e :: next :: post) → sees next = after e := by
      intro pre
      induction pre with
      | nil => exact fun m₁ hpre => hpre.2.1
      | cons first pre ih => exact fun m₁ hpre => ih _ hpre.2
    have hnext := hall next (by simp)
    exact (hkeeps e (hall e (by simp))).mp ((hrelay pre m h).symm.trans hnext)
  · intro hkept
    induction log with
    | nil => exact fun e he => nomatch he
    | cons first log ih =>
        obtain ⟨hfirst, hrest⟩ := h
        refine List.forall_mem_cons.mpr ⟨hfirst, ?_⟩
        cases log with
        | nil => exact fun e he => nomatch he
        | cons next log =>
            have hsame := (hkeeps first hfirst).mpr (hkept [] first next log rfl)
            rw [hsame] at hrest
            exact ih hrest fun pre e next post hlog =>
              hkept (first :: pre) e next post (by rw [hlog, List.cons_append])

end Relay

end Transition
