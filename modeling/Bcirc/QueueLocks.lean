import Bcirc.MsgQueue
import Mathlib.Logic.Function.Basic

/-!
# The locks of the queue (`src/irc.c`)

The two functions of `MsgQueue` again, one step for each lock, unlock,
condition wait and read of `msg_count`, the handler no longer taking an
iteration at once. Of the messages only their number is kept: no branch
that decides about a lock looks at one. `counted` only records what the
handler's last read in line 102 found.

What a program does after it waits with, or unlocks, a mutex that it does
not own is undefined; the thread that did so takes no further step.
-/

namespace Bcirc

open Transition

inductive QueueThread where
  | handler
  | caller (i : Nat)
  deriving DecidableEq, Repr

/-- The next thing that `handle_privmsg_queue` does. -/
inductive HandlerAt where
  | notStarted
  /-- Line 102, the read. -/
  | guard
  /-- Line 103. -/
  | lock
  /-- Line 105, the read. -/
  | test
  /-- Line 106, the call. -/
  | wait
  /-- Inside `pthread_cond_wait`, the mutex given up. -/
  | waiting
  /-- Inside `pthread_cond_wait`, woken. -/
  | reacquire
  /-- Lines 108 to 132: `msg_list[0]` is sent or dropped. -/
  | head
  /-- Line 134, the read and the write. -/
  | decrement
  | store (count : Int)
  /-- Lines 136 to 147, a step for each read. -/
  | shift (i : Nat)
  | alloc
  | copy (i : Nat)
  | unlock
  | undefined
  deriving DecidableEq, Repr

/-- The next thing that a call of `add_to_privmsg_queue` does. -/
inductive CallerAt where
  | outside
  | lockLocal
  | check
  /-- The read for the text that is printed. -/
  | refuse
  | lockGlobal
  /-- The reads for `realloc` and for the place of the new message. -/
  | realloc
  | place
  /-- The read and the write of `msg_count++`. -/
  | increment
  | store (count : Int)
  | unlockGlobal
  | start
  | unlockLocal
  | undefined
  deriving DecidableEq, Repr

structure QueueLocks where
  msgCount : Int
  handlerStarted : Bool
  globalMutex : Option QueueThread
  localMutex : Option QueueThread
  counted : Int
  handler : HandlerAt
  callers : Nat → CallerAt

def QueueLocks.start : QueueLocks where
  msgCount := 0
  handlerStarted := false
  globalMutex := none
  localMutex := none
  counted := 0
  handler := .notStarted
  callers := fun _ => .outside

/-! ## Steps -/

/-- A waiting handler may be woken without a signal too. -/
def handlePrivmsgQueueStep (q : QueueLocks) : QueueLocks :=
  match q.handler with
  | .notStarted => q
  | .guard =>
      { q with counted := q.msgCount, handler := if 0 < q.msgCount then .lock else .test }
  | .lock =>
      if q.globalMutex = none then { q with globalMutex := some .handler, handler := .test }
      else q
  | .test => { q with handler := if q.msgCount = 0 then .wait else .head }
  | .wait =>
      if q.globalMutex = some .handler then { q with globalMutex := none, handler := .waiting }
      else { q with handler := .undefined }
  | .waiting => { q with handler := .reacquire }
  | .reacquire =>
      if q.globalMutex = none then { q with globalMutex := some .handler, handler := .test }
      else q
  | .head => { q with handler := .decrement }
  | .decrement => { q with handler := .store q.msgCount }
  | .store count => { q with msgCount := count - 1, handler := .shift 0 }
  | .shift i => { q with handler := if (i : Int) < q.msgCount then .shift (i + 1) else .alloc }
  | .alloc => { q with handler := .copy 0 }
  | .copy i => { q with handler := if (i : Int) < q.msgCount then .copy (i + 1) else .unlock }
  | .unlock =>
      if q.globalMutex = some .handler then { q with globalMutex := none, handler := .guard }
      else { q with handler := .undefined }
  | .undefined => q

def QueueLocks.callerTo (q : QueueLocks) (i : Nat) (point : CallerAt) : QueueLocks :=
  { q with callers := Function.update q.callers i point }

/-- `pthread_cond_signal`. -/
def QueueLocks.signal (q : QueueLocks) : QueueLocks :=
  if q.handler = .waiting then { q with handler := .reacquire } else q

/-- A step of the `i`-th caller; outside, it calls the function. The
refusal of a full queue returns with `local_mutex` locked. The first call
to get to the end creates the handler's thread (a failed `pthread_create`
ends the program). -/
def addToPrivmsgQueueStep (i : Nat) (q : QueueLocks) : QueueLocks :=
  match q.callers i with
  | .outside => q.callerTo i .lockLocal
  | .lockLocal =>
      if q.localMutex = none then { q with localMutex := some (.caller i) }.callerTo i .check
      else q
  | .check => q.callerTo i (if (maxMsgCount : Int) ≤ q.msgCount then .refuse else .lockGlobal)
  | .refuse => q.callerTo i .outside
  | .lockGlobal =>
      if q.globalMutex = none then { q with globalMutex := some (.caller i) }.callerTo i .realloc
      else q
  | .realloc => q.callerTo i .place
  | .place => q.callerTo i .increment
  | .increment => q.callerTo i (.store q.msgCount)
  | .store count => { q with msgCount := count + 1 }.callerTo i .unlockGlobal
  | .unlockGlobal =>
      if q.globalMutex = some (.caller i) then { q with globalMutex := none }.callerTo i .start
      else q.callerTo i .undefined
  | .start =>
      if q.handlerStarted then q.signal.callerTo i .unlockLocal
      else { q with handlerStarted := true, handler := .guard }.callerTo i .unlockLocal
  | .unlockLocal =>
      if q.localMutex = some (.caller i) then { q with localMutex := none }.callerTo i .outside
      else q.callerTo i .undefined
  | .undefined => q

def QueueLocks.step : QueueThread → QueueLocks → QueueLocks
  | .handler, q => handlePrivmsgQueueStep q
  | .caller i, q => addToPrivmsgQueueStep i q

/-! ## Who owns `global_msglist_mutex` -/

/-- From the read of the head of the list to `pthread_mutex_unlock`. -/
def HandlerAt.usesHead : HandlerAt → Bool
  | .head | .decrement | .store _ | .shift _ | .alloc | .copy _ | .unlock => true
  | _ => false

structure QueueLocks.Guarded (q : QueueLocks) : Prop where
  head : q.handler.usesHead → q.globalMutex = some .handler
  wait : q.handler = .wait → q.globalMutex = some .handler
  unlock : q.handler = .unlock → q.globalMutex = some .handler

/-- A handler that goes on from line 105 has found a message in line 102. -/
def QueueLocks.FoundMessage (e : QueueThread) (q : QueueLocks) : Prop :=
  e = .handler → q.handler = .test → 0 < q.counted

/-- The points where the handler has the mutex, if it took it in line 103. -/
def HandlerAt.owns (counted : Int) : HandlerAt → Prop
  | .test => 0 < counted
  | .wait => True
  | point => point.usesHead

/-- The points that are reached through line 103 only. -/
def HandlerAt.pastGuard : HandlerAt → Prop
  | .lock | .wait | .waiting | .reacquire => True
  | _ => False

def CallerAt.owns : CallerAt → Prop
  | .realloc | .place | .increment | .store _ | .unlockGlobal => True
  | _ => False

structure QueueLocks.Inv (q : QueueLocks) : Prop where
  handler : q.globalMutex = some .handler ↔ q.handler.owns q.counted
  counted : q.handler.pastGuard → 0 < q.counted
  callers : ∀ i, (q.callers i).owns → q.globalMutex = some (.caller i)
  started : q.handlerStarted = false → q.handler = .notStarted

theorem HandlerAt.owns_of_usesHead {point : HandlerAt} (h : point.usesHead) (counted : Int) :
    point.owns counted := by
  cases point <;> first | exact h | cases h

theorem QueueLocks.Inv.guarded {q : QueueLocks} (h : q.Inv) : q.Guarded where
  head huses := h.handler.mpr (HandlerAt.owns_of_usesHead huses _)
  wait hwait := h.handler.mpr (by rw [hwait]; trivial)
  unlock hunlock := h.handler.mpr (by rw [hunlock]; rfl)

theorem QueueLocks.Inv.not_owner {q : QueueLocks} (h : q.Inv)
    (hnot : ¬ q.handler.owns q.counted) : ¬ q.globalMutex = some .handler :=
  fun howner => hnot (h.handler.mp howner)

theorem QueueLocks.Inv.free {q : QueueLocks} (h : q.Inv) (hfree : q.globalMutex = none) (i : Nat) :
    ¬ (q.callers i).owns := by
  intro howns
  have howner := h.callers i howns
  rw [hfree] at howner
  cases howner

theorem QueueLocks.Inv.counted_pos {q : QueueLocks} (h : q.Inv) {point : HandlerAt}
    (hpoint : q.handler = point) (hpast : point.pastGuard) : 0 < q.counted := by
  subst hpoint
  exact h.counted hpast

theorem QueueLocks.inv_start : start.Inv where
  handler := by simp [start, HandlerAt.owns, HandlerAt.usesHead]
  counted := False.elim
  callers _ := False.elim
  started _ := rfl

/-! ### The handler -/

section Handler

variable {q : QueueLocks}

/-- A step that leaves the mutex to whoever has it. -/
theorem QueueLocks.Inv.handlerTo (h : q.Inv) {point : HandlerAt} (hrun : q.handler ≠ .notStarted)
    (howns : point.owns q.counted ↔ q.handler.owns q.counted)
    (hpast : point.pastGuard → 0 < q.counted) (count : Int) :
    Inv { q with msgCount := count, handler := point } where
  handler := h.handler.trans howns.symm
  counted := hpast
  callers := h.callers
  started hfresh := absurd (h.started hfresh) hrun

/-- A step from the head of the list on, short of the unlock. -/
theorem QueueLocks.Inv.keepsHead (h : q.Inv) (hnow : q.handler.usesHead) {point : HandlerAt}
    (hnext : point.usesHead) (count : Int) :
    Inv { q with msgCount := count, handler := point } := by
  refine h.handlerTo ?_ (iff_of_true (HandlerAt.owns_of_usesHead hnext _)
    (HandlerAt.owns_of_usesHead hnow _)) ?_ count
  · intro hfresh
    rw [hfresh] at hnow
    cases hnow
  · intro hpast
    cases point <;> first | exact absurd hnext Bool.false_ne_true | exact hpast.elim

theorem QueueLocks.Inv.take (h : q.Inv) (hfree : q.globalMutex = none) {point : HandlerAt}
    (hrun : q.handler ≠ .notStarted) (howns : point.owns q.counted)
    (hpast : point.pastGuard → 0 < q.counted) :
    Inv { q with globalMutex := some .handler, handler := point } where
  handler := iff_of_true rfl howns
  counted := hpast
  callers i hi := absurd hi (h.free hfree i)
  started hfresh := absurd (h.started hfresh) hrun

theorem QueueLocks.Inv.giveUp (h : q.Inv) (howner : q.globalMutex = some .handler)
    {point : HandlerAt} (hrun : q.handler ≠ .notStarted) (howns : ¬ point.owns q.counted)
    (hpast : point.pastGuard → 0 < q.counted) :
    Inv { q with globalMutex := none, handler := point } where
  handler := iff_of_false (fun hnone => by cases hnone) howns
  counted := hpast
  callers i hi := by
    have hcaller := h.callers i hi
    rw [howner] at hcaller
    cases hcaller
  started hfresh := absurd (h.started hfresh) hrun

/-- The read of line 102 decides whether the mutex is taken, that of line 105
whether the handler waits: they agree when the first has found a message. -/
theorem QueueLocks.Inv.handlerStep (h : q.Inv) (hfound : q.FoundMessage .handler) :
    (handlePrivmsgQueueStep q).Inv := by
  unfold handlePrivmsgQueueStep
  cases hpoint : q.handler with
  | notStarted => exact h
  | guard =>
      have hfree : ¬ q.globalMutex = some .handler :=
        h.not_owner (by rw [hpoint]; exact Bool.false_ne_true)
      by_cases hcount : 0 < q.msgCount
      · simp only [hcount, if_true]
        exact ⟨iff_of_false hfree Bool.false_ne_true, fun _ => hcount, h.callers,
          fun hfresh => by simpa [hpoint] using h.started hfresh⟩
      · simp only [hcount, if_false]
        exact ⟨iff_of_false hfree hcount, False.elim, h.callers,
          fun hfresh => by simpa [hpoint] using h.started hfresh⟩
  | lock =>
      have hcounted : 0 < q.counted := h.counted_pos hpoint trivial
      by_cases hfree : q.globalMutex = none
      · simp only [hfree, if_true]
        exact h.take hfree (by simp [hpoint]) hcounted (fun _ => hcounted)
      · simp only [hfree, if_false]
        exact h
  | test =>
      have hcounted : 0 < q.counted := hfound rfl hpoint
      have howns : q.handler.owns q.counted := by
        rw [hpoint]
        exact hcounted
      by_cases hcount : q.msgCount = 0
      · simp only [hcount, if_true]
        refine h.handlerTo (by simp [hpoint]) (iff_of_true ?_ howns) (fun _ => hcounted) _
        trivial
      · simp only [hcount, if_false]
        refine h.handlerTo (by simp [hpoint]) (iff_of_true ?_ howns) (fun _ => hcounted) _
        rfl
  | wait =>
      have howner : q.globalMutex = some .handler := h.guarded.wait hpoint
      have hcounted : 0 < q.counted := h.counted_pos hpoint trivial
      simp only [howner, if_true]
      exact h.giveUp howner (by simp [hpoint]) Bool.false_ne_true (fun _ => hcounted)
  | waiting =>
      have hcounted : 0 < q.counted := h.counted_pos hpoint trivial
      refine h.handlerTo (by simp [hpoint]) ?_ (fun _ => hcounted) _
      rw [hpoint]
      rfl
  | reacquire =>
      have hcounted : 0 < q.counted := h.counted_pos hpoint trivial
      by_cases hfree : q.globalMutex = none
      · simp only [hfree, if_true]
        exact h.take hfree (by simp [hpoint]) hcounted (fun _ => hcounted)
      · simp only [hfree, if_false]
        exact h
  | head => exact h.keepsHead (by rw [hpoint]; rfl) rfl _
  | decrement => exact h.keepsHead (by rw [hpoint]; rfl) rfl _
  | store count => exact h.keepsHead (by rw [hpoint]; rfl) rfl _
  | shift i =>
      refine h.keepsHead (by rw [hpoint]; rfl) ?_ _
      split <;> rfl
  | alloc => exact h.keepsHead (by rw [hpoint]; rfl) rfl _
  | copy i =>
      refine h.keepsHead (by rw [hpoint]; rfl) ?_ _
      split <;> rfl
  | unlock =>
      have howner : q.globalMutex = some .handler := h.guarded.unlock hpoint
      simp only [howner, if_true]
      exact h.giveUp howner (by simp [hpoint]) Bool.false_ne_true False.elim
  | undefined => exact h

end Handler

/-! ### The callers -/

section Callers

variable {q : QueueLocks}

theorem QueueLocks.Inv.callerTo (h : q.Inv) (i : Nat) {point : CallerAt}
    (howns : point.owns → q.globalMutex = some (.caller i)) : (q.callerTo i point).Inv where
  handler := h.handler
  counted := h.counted
  callers j hj := by
    by_cases hij : j = i
    · subst hij
      simp only [QueueLocks.callerTo, Function.update_self] at hj
      exact howns hj
    · simp only [QueueLocks.callerTo, Function.update_of_ne hij] at hj
      exact h.callers j hj
  started := h.started

theorem QueueLocks.Inv.takenByCaller (h : q.Inv) (hfree : q.globalMutex = none) (i : Nat) :
    Inv { q with globalMutex := some (.caller i) } where
  handler := by
    have hnot : ¬ q.handler.owns q.counted := fun howns => by
      have howner := h.handler.mpr howns
      rw [hfree] at howner
      cases howner
    exact iff_of_false (fun hsome => by cases hsome) hnot
  counted := h.counted
  callers j hj := absurd hj (h.free hfree j)
  started := h.started

theorem QueueLocks.Inv.givenUpByCaller (h : q.Inv) {i : Nat}
    (howner : q.globalMutex = some (.caller i)) {point : CallerAt} (hpoint : ¬ point.owns) :
    ({ q with globalMutex := none }.callerTo i point).Inv where
  handler := by
    have hnot : ¬ q.handler.owns q.counted := fun howns => by
      have hhandler := h.handler.mpr howns
      rw [howner] at hhandler
      cases hhandler
    exact iff_of_false (fun hnone => by cases hnone) hnot
  counted := h.counted
  callers j hj := by
    by_cases hij : j = i
    · subst hij
      simp only [QueueLocks.callerTo, Function.update_self] at hj
      exact absurd hj hpoint
    · simp only [QueueLocks.callerTo, Function.update_of_ne hij] at hj
      have hcaller := h.callers j hj
      rw [howner] at hcaller
      cases hcaller
      exact absurd rfl hij
  started := h.started

theorem QueueLocks.Inv.signal (h : q.Inv) : q.signal.Inv := by
  unfold QueueLocks.signal
  by_cases hwaiting : q.handler = .waiting
  · have hcounted : 0 < q.counted := h.counted_pos hwaiting trivial
    rw [if_pos hwaiting]
    refine h.handlerTo (by simp [hwaiting]) ?_ (fun _ => hcounted) _
    rw [hwaiting]
    rfl
  · rw [if_neg hwaiting]
    exact h

theorem QueueLocks.Inv.callerStep (h : q.Inv) (i : Nat) : (addToPrivmsgQueueStep i q).Inv := by
  unfold addToPrivmsgQueueStep
  have howner : (q.callers i).owns → q.globalMutex = some (.caller i) := h.callers i
  cases hpoint : q.callers i with
  | outside => exact h.callerTo i False.elim
  | lockLocal =>
      by_cases hfree : q.localMutex = none
      · simp only [hfree, if_true]
        have hlocked : Inv { q with localMutex := some (.caller i) } :=
          ⟨h.handler, h.counted, h.callers, h.started⟩
        exact hlocked.callerTo i False.elim
      · simp only [hfree, if_false]
        exact h
  | check =>
      refine h.callerTo i ?_
      split <;> exact False.elim
  | refuse => exact h.callerTo i False.elim
  | lockGlobal =>
      by_cases hfree : q.globalMutex = none
      · simp only [hfree, if_true]
        exact (h.takenByCaller hfree i).callerTo i fun _ => rfl
      · simp only [hfree, if_false]
        exact h
  | realloc => exact h.callerTo i fun _ => howner (by rw [hpoint]; trivial)
  | place => exact h.callerTo i fun _ => howner (by rw [hpoint]; trivial)
  | increment => exact h.callerTo i fun _ => howner (by rw [hpoint]; trivial)
  | store count =>
      have hstored : Inv { q with msgCount := count + 1 } :=
        ⟨h.handler, h.counted, h.callers, h.started⟩
      exact hstored.callerTo i fun _ => howner (by rw [hpoint]; trivial)
  | unlockGlobal =>
      have hmine : q.globalMutex = some (.caller i) := howner (by rw [hpoint]; trivial)
      simp only [hmine, if_true]
      exact h.givenUpByCaller hmine id
  | start =>
      cases hstarted : q.handlerStarted with
      | true => exact h.signal.callerTo i False.elim
      | false =>
          have hnot : ¬ q.globalMutex = some .handler :=
            h.not_owner (by rw [h.started hstarted]; exact Bool.false_ne_true)
          have hcreated : Inv { q with handlerStarted := true, handler := .guard } :=
            ⟨iff_of_false hnot Bool.false_ne_true, False.elim, h.callers,
              fun hfalse => by cases hfalse⟩
          exact hcreated.callerTo i False.elim
  | unlockLocal =>
      have hunlocked : Inv { q with localMutex := none } :=
        ⟨h.handler, h.counted, h.callers, h.started⟩
      by_cases hmine : q.localMutex = some (.caller i)
      · simp only [hmine, if_true]
        exact hunlocked.callerTo i False.elim
      · simp only [hmine, if_false]
        exact h.callerTo i False.elim
  | undefined => exact h

end Callers

/-! ### Runs -/

theorem QueueLocks.Inv.step {q : QueueLocks} (h : q.Inv) {e : QueueThread}
    (hfound : q.FoundMessage e) : (QueueLocks.step e q).Inv := by
  cases e with
  | handler => exact h.handlerStep hfound
  | caller i => exact h.callerStep i

/-- A handler that goes on from line 105 without the mutex waits with it, or
goes on to the head of the list. -/
theorem QueueLocks.Inv.not_guarded {q : QueueLocks} (h : q.Inv) {e : QueueThread}
    (hfound : ¬ q.FoundMessage e) : ¬ (QueueLocks.step e q).Guarded := by
  unfold FoundMessage at hfound
  rw [Classical.not_imp, Classical.not_imp] at hfound
  obtain ⟨rfl, hpoint, hcounted⟩ := hfound
  have hnot : ¬ q.globalMutex = some .handler :=
    h.not_owner (by rw [hpoint]; exact hcounted)
  intro hguarded
  simp only [QueueLocks.step, handlePrivmsgQueueStep, hpoint] at hguarded
  by_cases hcount : q.msgCount = 0
  · exact hnot (hguarded.wait (by simp [hcount]))
  · exact hnot (hguarded.head (by simp [hcount, HandlerAt.usesHead]))

/-- The handler owns `global_msglist_mutex` where it has to, in every state
of a run, if and only if in every round that goes on to line 105 the read
of line 102 has found a message. -/
theorem QueueLocks.guarded_iff (events : List QueueThread) :
    (∀ pre, pre <+: events → (runAll step start pre).Guarded) ↔
      ∀ pre e, pre ++ [e] <+: events → (runAll step start pre).FoundMessage e :=
  forall_prefix_of_invariant step inv_start (fun _ h => h.guarded) (fun _ _ h => h.step)
    (fun _ _ h => h.not_guarded) events

/-- A caller's eleven steps, then the handler's: it sends the message, comes
back to an empty queue and waits without the mutex. -/
theorem QueueLocks.not_guarded_drained :
    ¬ ∀ events pre, pre <+: events → (runAll step start pre).Guarded := by
  intro h
  let events : List QueueThread := List.replicate 11 (.caller 0) ++ List.replicate 12 .handler
  have hwait : (runAll step start events).handler = .wait := by decide +kernel
  have howner := (h events events List.prefix_rfl).wait hwait
  have hfree : (runAll step start events).globalMutex = none := by decide +kernel
  rw [hfree] at howner
  cases howner

end Bcirc
