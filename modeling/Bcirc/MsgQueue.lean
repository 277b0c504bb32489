import Bcirc.CStr
import Bcirc.Transition

/-!
# The queue of outgoing messages (`src/irc.c`)

`add_to_privmsg_queue` is called by any number of threads, one handler
thread empties the queue. A call takes `local_mutex`, looks at
`msg_count`, appends under `global_msglist_mutex`, starts or wakes the
handler and releases `local_mutex`; each of these is a step of its own,
and the handler may run between any two of them. An iteration of the
handler is one step, with the clock values it reads.

`accepted`, `handled`, `sent` and `foundFull` only record what happened.
-/

namespace Bcirc

open CStr Transition

/-- `MAX_MSG_COUNT`. -/
def maxMsgCount : Nat := 9

/-- `HISTORY_SIZE`. -/
def historySize : Nat := 5

structure MsgInfo where
  msg : Str
  target : Str
  srv : Nat
  drop : Int
  deriving DecidableEq, Repr

/-- A call of `privmsg`, and the number of the queued message it is for. -/
structure SentMsg where
  ticket : Nat
  msg : Str
  target : Str
  srv : Nat
  deriving DecidableEq, Repr

/-- Where the call that holds `local_mutex` is. -/
inductive Inside where
  | checked (info : MsgInfo)
  | enqueued
  | signalled
  deriving DecidableEq, Repr

/-- `lastMessageTimes` is the array and the cell behind it, which the
handler writes too. -/
structure MsgQueue where
  msgCount : Nat
  msgList : List MsgInfo
  handlerStarted : Bool
  localMutex : Bool
  waiting : List MsgInfo
  inside : Option Inside
  lastMessageTimes : List Int
  accepted : List MsgInfo
  handled : List MsgInfo
  sent : List SentMsg
  foundFull : Nat
  deriving DecidableEq, Repr

def MsgQueue.start : MsgQueue where
  msgCount := 0
  msgList := []
  handlerStarted := false
  localMutex := false
  waiting := []
  inside := none
  lastMessageTimes := List.replicate (historySize + 1) 0
  accepted := []
  handled := []
  sent := []
  foundFull := 0

/-! ## `add_to_privmsg_queue` -/

/-- A call waits for `local_mutex`. -/
def MsgQueue.call (q : MsgQueue) (info : MsgInfo) : MsgQueue :=
  { q with waiting := q.waiting ++ [info] }

/-- The `i`-th waiting call takes `local_mutex` and looks at `msg_count`.
A full queue is refused with `return 0`. -/
def MsgQueue.enter (q : MsgQueue) (i : Nat) : Option MsgQueue :=
  if q.localMutex then none
  else
    match q.waiting[i]? with
    | none => none
    | some info =>
        let q := { q with localMutex := true, waiting := q.waiting.eraseIdx i }
        if maxMsgCount ≤ q.msgCount then some { q with foundFull := q.foundFull + 1 }
        else some { q with inside := some (.checked info) }

/-- The section under `global_msglist_mutex`: `realloc` to `msg_count + 1`
cells, the last of them for the new message. -/
def MsgQueue.enqueue (q : MsgQueue) : Option MsgQueue :=
  match q.inside with
  | some (.checked info) =>
      some { q with
        msgList := q.msgList.take q.msgCount ++ [info]
        msgCount := q.msgCount + 1
        inside := some .enqueued
        accepted := q.accepted ++ [info] }
  | _ => none

/-- `pthread_create` the first time, `pthread_cond_signal` later. -/
def MsgQueue.signal (q : MsgQueue) : Option MsgQueue :=
  match q.inside with
  | some .enqueued => some { q with handlerStarted := true, inside := some .signalled }
  | _ => none

def MsgQueue.leave (q : MsgQueue) : Option MsgQueue :=
  match q.inside with
  | some .signalled => some { q with localMutex := false, inside := none }
  | _ => none

/-! ## `handle_privmsg_queue` -/

/-- Not longer ago than five minutes, on the average of the last messages. -/
def isBusy (lastMessageTimes : List Int) (timeNow : Int) : Bool :=
  let avarageTimestamp := ((lastMessageTimes.take historySize).foldl (· + ·) 0).tdiv historySize
  timeNow - avarageTimestamp ≤ 300000

/-- `for (i = 0; i < n; i++) list[i] = list[i+1]`. -/
def shiftCells {α : Type} (list : List α) : Nat → List α
  | 0 => list
  | n + 1 =>
    match (shiftCells list n)[n + 1]? with
    | some x => (shiftCells list n).set n x
    | none => shiftCells list n

/-- `for (i = n; i > 0; i--) times[i] = times[i-1]`. -/
def shiftHistory (times : List Int) : Nat → List Int
  | 0 => times
  | i + 1 => shiftHistory (times.set (i + 1) (times.getD i 0)) i

/-- One iteration. `timeNow` is read before the message is looked at,
`timeSent` after the lock is released. -/
def MsgQueue.handle (q : MsgQueue) (timeNow timeSent : Int) : Option MsgQueue :=
  if !q.handlerStarted || q.msgCount = 0 then none
  else
    match q.msgList with
    | [] => none
    | info :: _ =>
        let sent :=
          if isBusy q.lastMessageTimes timeNow && info.drop ≠ 0 then q.sent
          else q.sent ++ [⟨q.handled.length, info.msg, info.target, info.srv⟩]
        let msgCount := q.msgCount - 1
        some { q with
          msgCount
          msgList := (shiftCells q.msgList msgCount).take msgCount
          lastMessageTimes := (shiftHistory q.lastMessageTimes historySize).set 0 timeSent
          handled := q.handled ++ [info]
          sent }

inductive MsgEvent where
  | call (info : MsgInfo)
  | enter (i : Nat)
  | enqueue
  | signal
  | leave
  | handle (timeNow timeSent : Int)
  deriving DecidableEq, Repr

def MsgQueue.next (q : MsgQueue) : MsgEvent → Option MsgQueue
  | .call info => some (q.call info)
  | .enter i => q.enter i
  | .enqueue => q.enqueue
  | .signal => q.signal
  | .leave => q.leave
  | .handle timeNow timeSent => q.handle timeNow timeSent

def MsgQueue.Reachable (q : MsgQueue) : Prop :=
  Reach (· = MsgQueue.start) (someEvent MsgQueue.next) q

/-! ## What a step can do -/

theorem MsgQueue.enter_some {q q' : MsgQueue} {i : Nat} (hstep : q.enter i = some q') :
    q.localMutex = false ∧ ∃ info, q.waiting[i]? = some info ∧
      (maxMsgCount ≤ q.msgCount ∧
          q' = { q with
            localMutex := true, waiting := q.waiting.eraseIdx i, foundFull := q.foundFull + 1 } ∨
        q.msgCount < maxMsgCount ∧
          q' = { q with
            localMutex := true, waiting := q.waiting.eraseIdx i,
            inside := some (.checked info) }) := by
  unfold MsgQueue.enter at hstep
  split at hstep
  · cases hstep
  rename_i hfree
  split at hstep
  · cases hstep
  rename_i info hinfo
  refine ⟨by simpa using hfree, info, hinfo, ?_⟩
  simp only at hstep
  split at hstep
  · rename_i hfull
    exact Or.inl ⟨hfull, (Option.some.inj hstep).symm⟩
  · rename_i hroom
    exact Or.inr ⟨Nat.not_le.mp hroom, (Option.some.inj hstep).symm⟩

theorem MsgQueue.enqueue_some {q q' : MsgQueue} (hstep : q.enqueue = some q') :
    ∃ info, q.inside = some (.checked info) ∧
      q' = { q with
        msgList := q.msgList.take q.msgCount ++ [info]
        msgCount := q.msgCount + 1
        inside := some .enqueued
        accepted := q.accepted ++ [info] } := by
  unfold MsgQueue.enqueue at hstep
  split at hstep
  · rename_i info hinside
    exact ⟨info, hinside, (Option.some.inj hstep).symm⟩
  · cases hstep

theorem MsgQueue.signal_some {q q' : MsgQueue} (hstep : q.signal = some q') :
    q.inside = some .enqueued ∧
      q' = { q with handlerStarted := true, inside := some .signalled } := by
  unfold MsgQueue.signal at hstep
  split at hstep
  · rename_i hinside
    exact ⟨hinside, (Option.some.inj hstep).symm⟩
  · cases hstep

theorem MsgQueue.leave_some {q q' : MsgQueue} (hstep : q.leave = some q') :
    q.inside = some .signalled ∧ q' = { q with localMutex := false, inside := none } := by
  unfold MsgQueue.leave at hstep
  split at hstep
  · rename_i hinside
    exact ⟨hinside, (Option.some.inj hstep).symm⟩
  · cases hstep

/-- Sent or dropped, and a message that must not be dropped is sent. -/
theorem MsgQueue.handle_some {q q' : MsgQueue} {timeNow timeSent : Int}
    (hstep : q.handle timeNow timeSent = some q') :
    ∃ info rest more, q.msgList = info :: rest ∧
      (∀ s ∈ more, s.ticket = q.handled.length) ∧
      (info.drop = 0 → more = [⟨q.handled.length, info.msg, info.target, info.srv⟩]) ∧
      q' = { q with
        msgCount := q.msgCount - 1
        msgList := (shiftCells q.msgList (q.msgCount - 1)).take (q.msgCount - 1)
        lastMessageTimes := (shiftHistory q.lastMessageTimes historySize).set 0 timeSent
        handled := q.handled ++ [info]
        sent := q.sent ++ more } := by
  unfold MsgQueue.handle at hstep
  split at hstep
  · cases hstep
  split at hstep
  · cases hstep
  rename_i info rest hlist
  by_cases hdrop : (isBusy q.lastMessageTimes timeNow && info.drop ≠ 0) = true
  · refine ⟨info, rest, [], hlist, nofun, ?_, ?_⟩
    · intro hzero
      simp [hzero] at hdrop
    · simp only [if_pos hdrop] at hstep
      rw [List.append_nil]
      exact (Option.some.inj hstep).symm
  · refine ⟨info, rest, _, hlist, ?_, fun _ => rfl, ?_⟩
    · intro s hs
      rw [List.mem_singleton.mp hs]
    · simp only [if_neg hdrop] at hstep
      exact (Option.some.inj hstep).symm

/-! ## The shifting loop -/

theorem shiftCells_eq {α : Type} (x : α) (rest : List α) {n : Nat} (hn : n ≤ rest.length) :
    shiftCells (x :: rest) n = rest.take n ++ (x :: rest).drop n := by
  induction n with
  | zero => rfl
  | succ n ih =>
      have hlt : n < rest.length := hn
      have ih := ih (Nat.le_of_succ_le hn)
      obtain ⟨y, hdrop⟩ : ∃ y, (x :: rest).drop n = y :: rest.drop n :=
        ⟨_, List.drop_eq_getElem_cons (by rw [List.length_cons]; omega)⟩
      have htake : (rest.take n).length = n := by
        rw [List.length_take, Nat.min_eq_left (Nat.le_of_lt hlt)]
      have hnext : (shiftCells (x :: rest) n)[n + 1]? = some rest[n] := by
        rw [ih, List.getElem?_append_right (by omega), hdrop, htake]
        simp [List.getElem?_eq_getElem hlt]
      rw [shiftCells, hnext]
      simp only [ih]
      rw [List.set_append_right _ _ (by omega), hdrop, htake, Nat.sub_self,
        List.set_cons_zero, List.take_succ_eq_append_getElem hlt, List.append_assoc,
        List.singleton_append, List.drop_succ_cons]

theorem shiftCells_take {α : Type} (x : α) (rest : List α) :
    (shiftCells (x :: rest) rest.length).take rest.length = rest := by
  rw [shiftCells_eq x rest (Nat.le_refl _), List.take_length, List.take_left]

/-! ## The invariant -/

structure MsgQueue.Inv (q : MsgQueue) : Prop where
  cells : q.msgList.length = q.msgCount
  fifo : q.accepted = q.handled ++ q.msgList
  bound : q.msgCount ≤ maxMsgCount
  room : ∀ info, q.inside = some (.checked info) → q.msgCount < maxMsgCount
  tickets : ∀ s ∈ q.sent, s.ticket < q.handled.length
  once : ∀ i info, q.handled[i]? = some info → info.drop = 0 →
    q.sent.filter (·.ticket = i) = [⟨i, info.msg, info.target, info.srv⟩]
  held : q.localMutex = true ↔ q.inside ≠ none ∨ q.foundFull ≠ 0
  clear : q.inside ≠ none → q.foundFull = 0

theorem MsgQueue.start_inv : MsgQueue.start.Inv where
  cells := rfl
  fifo := rfl
  bound := Nat.zero_le _
  room _ h := nomatch h
  tickets _ h := nomatch h
  once _ _ h := nomatch h
  held := by decide
  clear h := absurd rfl h

theorem MsgQueue.Inv.call {q : MsgQueue} (h : q.Inv) (info : MsgInfo) : (q.call info).Inv :=
  { h with }

theorem MsgQueue.Inv.enter {q q' : MsgQueue} (h : q.Inv) {i : Nat}
    (hstep : q.enter i = some q') : q'.Inv := by
  obtain ⟨hfree, info, -, ⟨hfull, rfl⟩ | ⟨hroom, rfl⟩⟩ := MsgQueue.enter_some hstep
  all_goals
    have hnone : ¬ (q.inside ≠ none ∨ q.foundFull ≠ 0) := by
      rw [← h.held, hfree]
      exact nofun
    rw [not_or, not_not, not_not] at hnone
    obtain ⟨hidle, hclear⟩ := hnone
  · exact { h with held := by simp, clear := fun hne => absurd hidle hne }
  · exact { h with room := fun _ _ => hroom, held := by simp, clear := fun _ => hclear }

theorem MsgQueue.Inv.enqueue {q q' : MsgQueue} (h : q.Inv) (hstep : q.enqueue = some q') :
    q'.Inv := by
  obtain ⟨info, hinside, rfl⟩ := MsgQueue.enqueue_some hstep
  have hbusy : q.inside ≠ none := by
    rw [hinside]
    exact nofun
  have htake : q.msgList.take q.msgCount = q.msgList := by
    rw [← h.cells, List.take_length]
  refine { h with
    cells := ?_, fifo := ?_, bound := h.room info hinside, room := nofun, held := ?_,
    clear := fun _ => h.clear hbusy }
  · simp only [htake, List.length_append, List.length_singleton, h.cells]
  · simp only [htake, h.fifo, List.append_assoc]
  · have hheld := h.held.mpr (Or.inl hbusy)
    simp [hheld]

theorem MsgQueue.Inv.signal {q q' : MsgQueue} (h : q.Inv) (hstep : q.signal = some q') :
    q'.Inv := by
  obtain ⟨hinside, rfl⟩ := MsgQueue.signal_some hstep
  have hbusy : q.inside ≠ none := by
    rw [hinside]
    exact nofun
  have hheld := h.held.mpr (Or.inl hbusy)
  exact { h with room := nofun, held := by simp [hheld], clear := fun _ => h.clear hbusy }

theorem MsgQueue.Inv.leave {q q' : MsgQueue} (h : q.Inv) (hstep : q.leave = some q') :
    q'.Inv := by
  obtain ⟨hinside, rfl⟩ := MsgQueue.leave_some hstep
  have hclear : q.foundFull = 0 := by
    apply h.clear
    rw [hinside]
    exact nofun
  exact { h with
    room := nofun, held := by simp [hclear], clear := fun hne => absurd rfl hne }

/-- The new entry of `sent`, or none, leaves the other tickets alone. -/
theorem filter_ticket_append {sent more : List SentMsg} {i n : Nat}
    (hmore : ∀ s ∈ more, s.ticket = n) (hi : i < n) :
    (sent ++ more).filter (·.ticket = i) = sent.filter (·.ticket = i) := by
  have hnone : more.filter (·.ticket = i) = [] := by
    rw [List.filter_eq_nil_iff]
    intro s hs
    have := hmore s hs
    simp only [decide_eq_true_eq]
    omega
  rw [List.filter_append, hnone, List.append_nil]

/-- The message handled next is sent for once, the ones before it not again. -/
theorem MsgQueue.Inv.once_after {q : MsgQueue} (h : q.Inv) {info : MsgInfo}
    {more : List SentMsg} (hticket : ∀ s ∈ more, s.ticket = q.handled.length)
    (hsent : info.drop = 0 → more = [⟨q.handled.length, info.msg, info.target, info.srv⟩])
    {i : Nat} {info' : MsgInfo} (hi : (q.handled ++ [info])[i]? = some info')
    (hzero : info'.drop = 0) :
    (q.sent ++ more).filter (·.ticket = i) = [⟨i, info'.msg, info'.target, info'.srv⟩] := by
  rcases Nat.lt_trichotomy i q.handled.length with hlt | rfl | hgt
  · rw [List.getElem?_append_left hlt] at hi
    rw [filter_ticket_append hticket hlt]
    exact h.once i info' hi hzero
  · obtain rfl : info = info' := by simpa using hi
    have hnone : q.sent.filter (·.ticket = q.handled.length) = [] := by
      rw [List.filter_eq_nil_iff]
      intro s hs
      have hlt := h.tickets s hs
      simp only [decide_eq_true_eq]
      omega
    rw [List.filter_append, hnone, hsent hzero]
    simp
  · rw [List.getElem?_eq_none (by simp; omega)] at hi
    cases hi

theorem MsgQueue.Inv.handle {q q' : MsgQueue} (h : q.Inv) {timeNow timeSent : Int}
    (hstep : q.handle timeNow timeSent = some q') : q'.Inv := by
  obtain ⟨info, rest, more, hlist, hticket, hsent, rfl⟩ := MsgQueue.handle_some hstep
  have hlen : q.msgCount - 1 = rest.length := by
    rw [← h.cells, hlist]
    rfl
  have hrest : (shiftCells q.msgList (q.msgCount - 1)).take (q.msgCount - 1) = rest := by
    rw [hlen, hlist, shiftCells_take]
  have hbound := h.bound
  refine { h with
    cells := ?_, fifo := ?_, bound := ?_, room := ?_, tickets := ?_,
    once := fun i info' hi hzero => h.once_after hticket hsent hi hzero }
  · rw [hrest, hlen]
  · simp only [hrest, List.append_assoc, List.singleton_append]
    rw [h.fifo, hlist]
  · simp only
    omega
  · intro info' hinside
    have hroom := h.room info' hinside
    simp only
    omega
  · intro s hs
    rw [List.length_append, List.length_singleton]
    rcases List.mem_append.mp hs with hs | hs
    · have hlt := h.tickets s hs
      omega
    · have heq := hticket s hs
      omega

theorem MsgQueue.Inv.next {q q' : MsgQueue} (h : q.Inv) (hstep : someEvent MsgQueue.next q q') :
    q'.Inv := by
  obtain ⟨e, he⟩ := hstep
  cases e with
  | call info =>
      cases he
      exact h.call info
  | enter i => exact h.enter he
  | enqueue => exact h.enqueue he
  | signal => exact h.signal he
  | leave => exact h.leave he
  | handle timeNow timeSent => exact h.handle he

theorem MsgQueue.Reachable.inv {q : MsgQueue} (h : q.Reachable) : q.Inv := by
  refine Reach.invariant (I := MsgQueue.Inv) ?_ (fun _ _ hI hs => hI.next hs) h
  rintro q rfl
  exact MsgQueue.start_inv

/-! ## What callers may rely on -/

/-- First in, first out, nothing lost and nothing handled twice; a message
that must not be dropped goes out once, as it was given; the queue holds
the messages still to be handled, nine at the most. -/
theorem MsgQueue.Reachable.fifo {q : MsgQueue} (h : q.Reachable) :
    q.handled <+: q.accepted ∧
      (∀ i info, q.handled[i]? = some info → info.drop = 0 →
        q.sent.filter (·.ticket = i) = [⟨i, info.msg, info.target, info.srv⟩]) ∧
      q.msgCount = q.accepted.length - q.handled.length ∧ q.msgCount ≤ maxMsgCount := by
  have hinv := h.inv
  refine ⟨⟨q.msgList, hinv.fifo.symm⟩, hinv.once, ?_, hinv.bound⟩
  rw [hinv.fifo, List.length_append, ← hinv.cells]
  omega

/-- A message that may be dropped and one that may not, the second handled
while the queue is busy. -/
def sampleEvents : List MsgEvent :=
  [.call ⟨ascii "a", ascii "#c", 0, 1⟩, .enter 0, .enqueue, .signal, .leave,
    .call ⟨ascii "b", ascii "#c", 0, 0⟩, .enter 0, .handle 0 1, .enqueue, .signal, .handle 2 3,
    .leave]

def sampleQueue : MsgQueue := (replay MsgQueue.next .start sampleEvents).getD .start

theorem sampleQueue_reachable : sampleQueue.Reachable := by
  have hrun : replay MsgQueue.next .start sampleEvents = some sampleQueue := by decide +kernel
  exact reach_of_replay (.init rfl) hrun

theorem MsgQueue.Reachable.fifo_sample :
    sampleQueue.handled <+: sampleQueue.accepted ∧
      (∀ i info, sampleQueue.handled[i]? = some info → info.drop = 0 →
        sampleQueue.sent.filter (·.ticket = i) = [⟨i, info.msg, info.target, info.srv⟩]) ∧
      sampleQueue.msgCount = sampleQueue.accepted.length - sampleQueue.handled.length ∧
      sampleQueue.msgCount ≤ maxMsgCount :=
  sampleQueue_reachable.fifo

/-! ## The lock between calls -/

/-- No call of `add_to_privmsg_queue` is in progress. -/
def MsgQueue.Idle (q : MsgQueue) : Prop := q.waiting = [] ∧ q.inside = none

/-- Every call of the run finds room when it looks at `msg_count`. -/
def MsgQueue.FoundRoom : MsgQueue → List MsgEvent → Prop
  | _, [] => True
  | q, e :: events =>
      (∀ i, e = .enter i → q.msgCount < maxMsgCount) ∧
        ∀ q', q.next e = some q' → q'.FoundRoom events

theorem MsgQueue.next_foundFull {q q' : MsgQueue} {e : MsgEvent} (hstep : q.next e = some q') :
    q'.foundFull = 0 ↔
      q.foundFull = 0 ∧ ∀ i, e = .enter i → q.msgCount < maxMsgCount := by
  cases e with
  | call info =>
      cases hstep
      simp [MsgQueue.call]
  | enter i =>
      obtain ⟨-, info, -, ⟨hfull, rfl⟩ | ⟨hroom, rfl⟩⟩ := MsgQueue.enter_some hstep
      · constructor
        · intro hzero
          exact absurd hzero (Nat.succ_ne_zero _)
        · rintro ⟨-, hroom⟩
          exact absurd (hroom i rfl) (Nat.not_lt.mpr hfull)
      · simpa using fun _ => hroom
  | enqueue =>
      obtain ⟨info, -, rfl⟩ := MsgQueue.enqueue_some hstep
      simp
  | signal =>
      obtain ⟨-, rfl⟩ := MsgQueue.signal_some hstep
      simp
  | leave =>
      obtain ⟨-, rfl⟩ := MsgQueue.leave_some hstep
      simp
  | handle timeNow timeSent =>
      obtain ⟨info, rest, more, -, -, -, rfl⟩ := MsgQueue.handle_some hstep
      simp

theorem MsgQueue.replay_foundFull {q q' : MsgQueue} {events : List MsgEvent}
    (hrun : replay MsgQueue.next q events = some q') :
    q'.foundFull = 0 ↔ q.foundFull = 0 ∧ q.FoundRoom events := by
  induction events generalizing q with
  | nil =>
      obtain rfl : q = q' := Option.some.inj hrun
      simp [MsgQueue.FoundRoom]
  | cons e events ih =>
      obtain ⟨q₁, hstep, hrest⟩ := Option.bind_eq_some_iff.mp hrun
      rw [ih hrest, MsgQueue.next_foundFull hstep, MsgQueue.FoundRoom]
      constructor
      · rintro ⟨⟨hzero, hroom⟩, hrooms⟩
        refine ⟨hzero, hroom, fun q₂ hq₂ => ?_⟩
        obtain rfl : q₁ = q₂ := Option.some.inj (hstep.symm.trans hq₂)
        exact hrooms
      · rintro ⟨hzero, hroom, hrooms⟩
        exact ⟨⟨hzero, hroom⟩, hrooms q₁ hstep⟩

/-- In every run, between calls, `local_mutex` is free if and only if every
call so far found room when it looked at `msg_count`. -/
theorem MsgQueue.localMutex_free_iff {events : List MsgEvent} {q : MsgQueue}
    (hrun : replay MsgQueue.next .start events = some q) (hidle : q.Idle) :
    q.localMutex = false ↔ MsgQueue.start.FoundRoom events := by
  have hreach : q.Reachable := reach_of_replay (.init rfl) hrun
  have hheld := hreach.inv.held
  have hfull := MsgQueue.replay_foundFull hrun
  rw [hidle.2] at hheld
  cases hmutex : q.localMutex with
  | false =>
      simp only [hmutex, ne_eq, not_true_eq_false, false_or, Bool.false_eq_true, false_iff,
        not_not] at hheld
      simpa using (hfull.mp hheld).2
  | true =>
      simp only [hmutex, ne_eq, not_true_eq_false, false_or, true_iff] at hheld
      have hnot : ¬ MsgQueue.start.FoundRoom events := fun hroom =>
        hheld (hfull.mpr ⟨rfl, hroom⟩)
      simpa using hnot

theorem MsgQueue.localMutex_free_iff_sample :
    sampleQueue.localMutex = false ↔ MsgQueue.start.FoundRoom sampleEvents := by
  have hrun : replay MsgQueue.next .start sampleEvents = some sampleQueue := by decide +kernel
  exact MsgQueue.localMutex_free_iff hrun ⟨by decide +kernel, by decide +kernel⟩

/-- Nine messages and no turn for the handler: the tenth call returns and
keeps the lock. -/
theorem MsgQueue.localMutex_kept :
    ¬ ∀ (events : List MsgEvent) (q : MsgQueue),
      replay MsgQueue.next .start events = some q → q.Idle → q.localMutex = false := by
  intro h
  let info : MsgInfo := ⟨ascii "a", ascii "#c", 0, 0⟩
  let events : List MsgEvent :=
    (List.replicate 9 [.call info, .enter 0, .enqueue, .signal, .leave]).flatten ++
      [.call info, .enter 0]
  let q : MsgQueue := (replay MsgQueue.next .start events).getD .start
  have hrun : replay MsgQueue.next .start events = some q := by decide +kernel
  have hheld : q.localMutex = true := by decide +kernel
  have hfree := h events q hrun ⟨by decide +kernel, by decide +kernel⟩
  rw [hheld] at hfree
  cases hfree

/-- A refused call is the last that gets in: the handler empties the queue
and nothing is accepted any more. -/
theorem MsgQueue.Reachable.refused_forever {q q' : MsgQueue} (h : q.Reachable)
    (hfull : q.foundFull ≠ 0) (hlater : Reach (· = q) (someEvent MsgQueue.next) q') :
    q'.localMutex = true ∧ q'.inside = none ∧ q'.accepted = q.accepted := by
  have hinv := h.inv
  have hinside : q.inside = none := by
    by_contra hne
    exact hfull (hinv.clear hne)
  refine Reach.invariant (I := fun p => p.localMutex = true ∧ p.inside = none ∧
    p.accepted = q.accepted) ?_ ?_ hlater
  · rintro p rfl
    exact ⟨hinv.held.mpr (Or.inr hfull), hinside, rfl⟩
  · rintro p p' ⟨hlocked, hnone, haccepted⟩ ⟨e, hstep⟩
    cases e with
    | call info =>
        cases hstep
        exact ⟨hlocked, hnone, haccepted⟩
    | enter i =>
        obtain ⟨hfree, -⟩ := MsgQueue.enter_some hstep
        rw [hlocked] at hfree
        cases hfree
    | enqueue =>
        obtain ⟨info, hinside, -⟩ := MsgQueue.enqueue_some hstep
        rw [hnone] at hinside
        cases hinside
    | signal =>
        obtain ⟨hinside, -⟩ := MsgQueue.signal_some hstep
        rw [hnone] at hinside
        cases hinside
    | leave =>
        obtain ⟨hinside, -⟩ := MsgQueue.leave_some hstep
        rw [hnone] at hinside
        cases hinside
    | handle timeNow timeSent =>
        obtain ⟨info, rest, more, -, -, -, rfl⟩ := MsgQueue.handle_some hstep
        exact ⟨hlocked, hnone, haccepted⟩

end Bcirc
