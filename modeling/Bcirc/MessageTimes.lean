import Bcirc.CArray
import Bcirc.MsgQueue

/-!
# The times of the last messages (`handle_privmsg_queue` in `src/irc.c`)

`last_message_times` is a window over the messages that were handled: each
iteration moves its entries up by one and puts the new time in front. The
window is exact after any number of iterations, but the loop that moves it
starts one place too high, so each of them also writes behind the array.
`MsgQueue.handle` has the array and the cell behind it; here the accesses
are made one by one (`handlerTurn`), with their subscripts.
-/

namespace Bcirc

open CProg CStr CArray Transition

/-! ## The accesses -/

/-- `for (i = 0; i < n; i++) avarage_timestamp += last_message_times[i]`. -/
def sumTimes : Nat → Prog (Noted Int) Int
  | 0 => pure 0
  | n + 1 => do
      let avarageTimestamp ← sumTimes n
      let time ← readAt n
      pure (avarageTimestamp + time)

/-- `for (i = n; i > 0; i--) last_message_times[i] = last_message_times[i-1]`. -/
def shiftTimes : Nat → Prog (Noted Int) Unit
  | 0 => pure ()
  | i + 1 => do
      let time ← readAt i
      writeAt (i + 1) time
      shiftTimes i

/-- What an iteration does with `last_message_times`: whether it takes the
branch that may drop its message, and the array after it. -/
def handlerTurn (timeNow timeSent : Int) : Prog (Noted Int) Bool := do
  let sum ← sumTimes historySize
  let avarageTimestamp := sum.tdiv historySize
  shiftTimes historySize
  writeAt 0 timeSent
  pure (decide (timeNow - avarageTimestamp ≤ 300000))

/-- One iteration after the other, by the clock values they read. -/
def handlerTurns : List (Int × Int) → Prog (Noted Int) (List Bool)
  | [] => pure []
  | (timeNow, timeSent) :: clocks => do
      let busy ← handlerTurn timeNow timeSent
      let rest ← handlerTurns clocks
      pure (busy :: rest)

/-- `last_message_times[HISTORY_SIZE] = { 0 }`. -/
def startTimes : Noted Int := ⟨MsgQueue.start.lastMessageTimes, []⟩

/-! ## Runs of the handler -/

def MsgEvent.clock : MsgEvent → Option (Int × Int)
  | .handle timeNow timeSent => some (timeNow, timeSent)
  | _ => none

/-- The clock values of the iterations among the events. -/
def clocks (events : List MsgEvent) : List (Int × Int) := events.filterMap MsgEvent.clock

/-- The times of the messages handled last, newest first. -/
def newestTimes (events : List MsgEvent) : List Int :=
  ((clocks events).map (·.2)).reverse.take historySize

/-- From the first time to the last. -/
def sumOf (times : List Int) : Int := times.foldl (· + ·) 0

/-- The window over the messages handled so far, and the average taken of
it by the next iteration. -/
structure HoldsNewest (events : List MsgEvent) (q : MsgQueue) : Prop where
  handled : q.handled.length = (clocks events).length
  window : q.lastMessageTimes.take historySize =
    newestTimes events ++ List.replicate (historySize - (newestTimes events).length) 0
  average : ∀ timeNow, isBusy q.lastMessageTimes timeNow =
    decide (timeNow - (sumOf (newestTimes events)).tdiv historySize ≤ 300000)

/-- The same, and no subscript of the run is outside `last_message_times`. -/
structure KeepsTimes (events : List MsgEvent) (q : MsgQueue) : Prop
    extends HoldsNewest events q where
  inside : ∀ i ∈ (endState (handlerTurns (clocks events) startTimes)).used, i < historySize

/-! ## One iteration -/

section Turn

variable {cells : List Int}

theorem sumTimes_run {n : Nat} (hn : n ≤ cells.length) (used : List Nat) :
    sumTimes n ⟨cells, used⟩ = .ok (sumOf (cells.take n)) ⟨cells, used ++ List.range n⟩ := by
  induction n with
  | zero =>
      rw [sumTimes, pure_run, List.take_zero, List.range_zero, List.append_nil]
      rfl
  | succ n ih =>
      have hread := readAt_ok (List.getElem?_eq_getElem hn) (used ++ List.range n)
      rw [sumTimes, bind_ok (ih (Nat.le_of_succ_le hn)), bind_ok hread, pure_run,
        List.take_succ_eq_append_getElem hn, List.range_succ, List.append_assoc, sumOf, sumOf,
        List.foldl_append]
      rfl

/-- The subscripts of the loop that moves the times up. -/
def shiftSubscripts : Nat → List Nat
  | 0 => []
  | i + 1 => i :: (i + 1) :: shiftSubscripts i

theorem shiftTimes_run {n : Nat} (hn : n < cells.length) (used : List Nat) :
    shiftTimes n ⟨cells, used⟩ =
      .ok () ⟨shiftHistory cells n, used ++ shiftSubscripts n⟩ := by
  induction n generalizing cells used with
  | zero => rw [shiftTimes, pure_run, shiftHistory, shiftSubscripts, List.append_nil]
  | succ i ih =>
      have hi := Nat.lt_of_succ_lt hn
      have hread := readAt_ok (List.getElem?_eq_getElem hi) used
      have hcell : cells.getD i 0 = cells[i] := by
        rw [List.getD_eq_getElem?_getD, List.getElem?_eq_getElem hi, Option.getD_some]
      have hrest := @ih (cells.set (i + 1) cells[i]) (by rwa [List.length_set])
        (used ++ [i] ++ [i + 1])
      rw [shiftTimes, bind_ok hread, bind_ok (writeAt_ok hn cells[i] _), hrest, shiftHistory,
        shiftSubscripts, hcell, List.append_assoc, List.append_assoc]
      rfl

theorem length_shiftHistory (n : Nat) : (shiftHistory cells n).length = cells.length := by
  induction n generalizing cells with
  | zero => rfl
  | succ n ih => rw [shiftHistory, ih, List.length_set]

/-- The loop leaves the first time where it is and moves `n` of them up. -/
theorem shiftHistory_eq (first : Int) {rest : List Int} {n : Nat} (hn : n ≤ rest.length) :
    shiftHistory (first :: rest) n = first :: ((first :: rest).take n ++ rest.drop n) := by
  induction n generalizing rest with
  | zero => rfl
  | succ n ih =>
      have hlt : n < (first :: rest).length := Nat.lt_succ_of_lt hn
      have hcell : (first :: rest).getD n 0 = (first :: rest)[n] := by
        rw [List.getD_eq_getElem?_getD, List.getElem?_eq_getElem hlt, Option.getD_some]
      have hmoved := @ih (rest.set n (first :: rest)[n])
        (by rw [List.length_set]; exact Nat.le_of_succ_le hn)
      have hbelow : (first :: rest.set n (first :: rest)[n]).take n = (first :: rest).take n := by
        rw [← List.set_cons_succ, List.take_set_of_le (Nat.le_succ n)]
      have hcells : (rest.set n (first :: rest)[n]).drop n =
          (first :: rest)[n] :: rest.drop (n + 1) := by
        have hlen : n < (rest.set n (first :: rest)[n]).length := by rwa [List.length_set]
        rw [List.drop_eq_getElem_cons hlen, List.getElem_set_self,
          List.drop_set_of_lt (Nat.lt_succ_self n)]
      rw [shiftHistory, List.set_cons_succ, hcell, hmoved, hbelow, hcells,
        List.take_succ_eq_append_getElem hlt, List.append_assoc]
      rfl

/-- The array and the cell behind it after an iteration. -/
theorem lastTimes_after (hlen : cells.length = historySize + 1) (timeSent : Int) :
    (shiftHistory cells historySize).set 0 timeSent = timeSent :: cells.take historySize := by
  cases cells with
  | nil => cases hlen
  | cons first rest =>
      have hrest : rest.length = historySize := Nat.succ.inj hlen
      rw [shiftHistory_eq first hrest.ge, List.set_cons_zero, ← hrest, List.drop_length,
        List.append_nil]

/-- The subscripts of an iteration, in their order. -/
def turnSubscripts : List Nat :=
  List.range historySize ++ shiftSubscripts historySize ++ [0]

theorem isBusy_eq (times : List Int) (timeNow : Int) :
    isBusy times timeNow =
      decide (timeNow - (sumOf (times.take historySize)).tdiv historySize ≤ 300000) := rfl

theorem sumOf_append_zeros (times : List Int) (n : Nat) :
    sumOf (times ++ List.replicate n 0) = sumOf times := by
  unfold sumOf
  induction n with
  | zero => rw [List.replicate_zero, List.append_nil]
  | succ n ih =>
      rw [List.replicate_succ', ← List.append_assoc, List.foldl_append, ih]
      exact Int.add_zero _

theorem handlerTurn_run (hlen : cells.length = historySize + 1) (timeNow timeSent : Int)
    (used : List Nat) :
    handlerTurn timeNow timeSent ⟨cells, used⟩ =
      .ok (isBusy cells timeNow)
        ⟨(shiftHistory cells historySize).set 0 timeSent, used ++ turnSubscripts⟩ := by
  have hsum := @sumTimes_run cells historySize (by omega) used
  have hshift := @shiftTimes_run cells historySize (by omega) (used ++ List.range historySize)
  have hroom : 0 < (shiftHistory cells historySize).length := by
    rw [length_shiftHistory, hlen]
    exact Nat.succ_pos _
  refine (bind_ok hsum).trans ((bind_ok hshift).trans ((bind_ok (writeAt_ok hroom _ _)).trans ?_))
  rw [pure_run, isBusy_eq, turnSubscripts, List.append_assoc, List.append_assoc,
    List.append_assoc]

end Turn

/-! ## Any number of iterations -/

/-- The array and the cell behind it, after iterations with these clock
values. -/
def timesAfter (cells : List Int) (clocks : List (Int × Int)) : List Int :=
  clocks.foldl (fun cells clock => (shiftHistory cells historySize).set 0 clock.2) cells

theorem take_append_take {α : Type} (a b : List α) (n : Nat) :
    (a ++ b.take n).take n = (a ++ b).take n := by
  rw [List.take_append, List.take_append, List.take_take, Nat.min_eq_left (Nat.sub_le _ _)]

section Turns

variable {cells : List Int} (hlen : cells.length = historySize + 1)

include hlen

/-- The accesses come to `timesAfter`, and each iteration to its subscripts. -/
theorem handlerTurns_run (clocks : List (Int × Int)) (used : List Nat) :
    ∃ decisions, handlerTurns clocks ⟨cells, used⟩ =
      .ok decisions ⟨timesAfter cells clocks,
        used ++ (List.replicate clocks.length turnSubscripts).flatten⟩ := by
  induction clocks generalizing cells used with
  | nil => exact ⟨[], by rw [handlerTurns, pure_run, timesAfter]; simp⟩
  | cons clock clocks ih =>
      obtain ⟨timeNow, timeSent⟩ := clock
      have hturn := handlerTurn_run hlen timeNow timeSent used
      have hnext : ((shiftHistory cells historySize).set 0 timeSent).length = historySize + 1 := by
        rw [List.length_set, length_shiftHistory, hlen]
      obtain ⟨decisions, hrest⟩ := ih hnext (used ++ turnSubscripts)
      refine ⟨isBusy cells timeNow :: decisions, ?_⟩
      rw [handlerTurns, bind_ok hturn, bind_ok hrest, pure_run, List.length_cons,
        List.replicate_succ, List.flatten_cons, List.append_assoc]
      rfl

/-- The window over the times so far, in front of what the array held. -/
theorem take_timesAfter (clocks : List (Int × Int)) :
    (timesAfter cells clocks).take historySize =
      ((clocks.map (·.2)).reverse ++ cells.take historySize).take historySize := by
  induction clocks generalizing cells with
  | nil =>
      rw [timesAfter, List.foldl_nil, List.map_nil, List.reverse_nil, List.nil_append,
        List.take_take, Nat.min_self]
  | cons clock clocks ih =>
      have hnext : ((shiftHistory cells historySize).set 0 clock.2).length = historySize + 1 := by
        rw [List.length_set, length_shiftHistory, hlen]
      calc (timesAfter cells (clock :: clocks)).take historySize
          = ((clocks.map (·.2)).reverse ++
              ((shiftHistory cells historySize).set 0 clock.2).take historySize).take
                historySize := ih hnext
        _ = ((clocks.map (·.2)).reverse ++ clock.2 :: cells.take historySize).take
                historySize := by
            rw [lastTimes_after hlen, take_append_take]
        _ = (((clock :: clocks).map (·.2)).reverse ++ cells.take historySize).take
                historySize := by
            rw [List.map_cons, List.reverse_cons, List.append_assoc, List.singleton_append]

end Turns

/-! ## Runs of the queue -/

/-- What an event does to the times. -/
theorem MsgQueue.next_times {q q' : MsgQueue} {e : MsgEvent} (hstep : q.next e = some q') :
    (e.clock = none ∧ q'.lastMessageTimes = q.lastMessageTimes ∧ q'.handled = q.handled) ∨
    ∃ timeNow timeSent info, e = .handle timeNow timeSent ∧
      q'.lastMessageTimes = (shiftHistory q.lastMessageTimes historySize).set 0 timeSent ∧
      q'.handled = q.handled ++ [info] := by
  cases e with
  | call info =>
      cases hstep
      exact Or.inl ⟨rfl, rfl, rfl⟩
  | enter i =>
      obtain ⟨-, info, -, ⟨-, rfl⟩ | ⟨-, rfl⟩⟩ := MsgQueue.enter_some hstep
      · exact Or.inl ⟨rfl, rfl, rfl⟩
      · exact Or.inl ⟨rfl, rfl, rfl⟩
  | enqueue =>
      obtain ⟨info, -, rfl⟩ := MsgQueue.enqueue_some hstep
      exact Or.inl ⟨rfl, rfl, rfl⟩
  | signal =>
      obtain ⟨-, rfl⟩ := MsgQueue.signal_some hstep
      exact Or.inl ⟨rfl, rfl, rfl⟩
  | leave =>
      obtain ⟨-, rfl⟩ := MsgQueue.leave_some hstep
      exact Or.inl ⟨rfl, rfl, rfl⟩
  | handle timeNow timeSent =>
      obtain ⟨info, rest, more, -, -, -, rfl⟩ := MsgQueue.handle_some hstep
      exact Or.inr ⟨timeNow, timeSent, info, rfl, rfl, rfl⟩

theorem MsgQueue.replay_times {q q' : MsgQueue} {events : List MsgEvent}
    (hrun : replay MsgQueue.next q events = some q') :
    q'.lastMessageTimes = timesAfter q.lastMessageTimes (clocks events) ∧
      q'.handled.length = q.handled.length + (clocks events).length := by
  induction events generalizing q with
  | nil =>
      obtain rfl : q = q' := Option.some.inj hrun
      exact ⟨rfl, rfl⟩
  | cons e events ih =>
      obtain ⟨q₁, hstep, hrest⟩ := Option.bind_eq_some_iff.mp hrun
      obtain ⟨htimes, hhandled⟩ := ih hrest
      rcases MsgQueue.next_times hstep with
        ⟨hclock, hsame, hnone⟩ | ⟨timeNow, timeSent, info, rfl, hturn, hone⟩
      · have hclocks : clocks (e :: events) = clocks events := List.filterMap_cons_none hclock
        rw [hclocks, htimes, hhandled, hsame, hnone]
        exact ⟨rfl, rfl⟩
      · have hclocks : clocks (.handle timeNow timeSent :: events) =
            (timeNow, timeSent) :: clocks events := List.filterMap_cons_some rfl
        rw [hclocks, htimes, hhandled, hturn, hone, List.length_append, List.length_singleton,
          List.length_cons]
        exact ⟨rfl, by omega⟩

theorem take_append_replicate {α : Type} (a : List α) (x : α) (n : Nat) :
    (a ++ List.replicate n x).take n =
      a.take n ++ List.replicate (n - (a.take n).length) x := by
  rw [List.take_append, List.take_replicate, List.length_take]
  congr 2
  omega

theorem holdsNewest {events : List MsgEvent} {q : MsgQueue}
    (hrun : replay MsgQueue.next .start events = some q) : HoldsNewest events q := by
  obtain ⟨htimes, hhandled⟩ := MsgQueue.replay_times hrun
  have hstart : MsgQueue.start.lastMessageTimes.take historySize =
      List.replicate historySize 0 := rfl
  have hwindow : q.lastMessageTimes.take historySize =
      newestTimes events ++ List.replicate (historySize - (newestTimes events).length) 0 := by
    rw [htimes, take_timesAfter rfl, hstart, take_append_replicate]
    rfl
  refine ⟨by rw [hhandled]; exact Nat.zero_add _, hwindow, fun timeNow => ?_⟩
  rw [isBusy_eq, hwindow, sumOf_append_zeros]

/-- Each iteration uses one subscript that is outside the array. -/
theorem used_handlerTurns (clocks : List (Int × Int)) :
    (endState (handlerTurns clocks startTimes)).used.filter (historySize ≤ ·) =
      List.replicate clocks.length historySize := by
  have hlen : startTimes.cells.length = historySize + 1 := rfl
  obtain ⟨decisions, hrun⟩ := handlerTurns_run hlen clocks startTimes.used
  have houtside : turnSubscripts.filter (historySize ≤ ·) = [historySize] := by decide
  have hused : (endState (handlerTurns clocks startTimes)).used =
      (List.replicate clocks.length turnSubscripts).flatten :=
    congrArg (·.used) (congrArg endState hrun)
  rw [hused, List.filter_flatten, List.map_replicate, houtside, List.flatten_replicate_singleton]

/-- In every run of the queue the window is exact, what an iteration does
to the array is what `handlerTurn` does to it, and every iteration writes
one place behind it: no subscript is outside if and only if there was none. -/
theorem keepsTimes_iff {events : List MsgEvent} {q : MsgQueue}
    (hrun : replay MsgQueue.next .start events = some q) :
    (KeepsTimes events q ↔ clocks events = []) ∧ HoldsNewest events q ∧
      (endState (handlerTurns (clocks events) startTimes)).cells = q.lastMessageTimes ∧
      (endState (handlerTurns (clocks events) startTimes)).used.filter (historySize ≤ ·) =
        List.replicate (clocks events).length historySize := by
  have hnewest := holdsNewest hrun
  have hoverrun := used_handlerTurns (clocks events)
  have hcells : (endState (handlerTurns (clocks events) startTimes)).cells =
      q.lastMessageTimes := by
    have hlen : startTimes.cells.length = historySize + 1 := rfl
    obtain ⟨decisions, hturns⟩ := handlerTurns_run hlen (clocks events) startTimes.used
    rw [(MsgQueue.replay_times hrun).1]
    exact congrArg (·.cells) (congrArg endState hturns)
  refine ⟨⟨fun hkeeps => ?_, fun hnone => ?_⟩, hnewest, hcells, hoverrun⟩
  · have hinside : (endState (handlerTurns (clocks events) startTimes)).used.filter
        (historySize ≤ ·) = [] := by
      rw [List.filter_eq_nil_iff]
      intro i hi
      rw [decide_eq_true_eq]
      exact Nat.not_le.mpr (hkeeps.inside i hi)
    rw [hoverrun, List.replicate_eq_nil_iff] at hinside
    exact List.eq_nil_of_length_eq_zero hinside
  · refine ⟨hnewest, fun i hi => ?_⟩
    rw [hnone] at hi
    cases hi

theorem keepsTimes_iff_sample :
    (KeepsTimes sampleEvents sampleQueue ↔ clocks sampleEvents = []) ∧
      HoldsNewest sampleEvents sampleQueue ∧
      (endState (handlerTurns (clocks sampleEvents) startTimes)).cells =
        sampleQueue.lastMessageTimes ∧
      (endState (handlerTurns (clocks sampleEvents) startTimes)).used.filter (historySize ≤ ·) =
        List.replicate 2 historySize := by
  have hrun : replay MsgQueue.next .start sampleEvents = some sampleQueue := by decide +kernel
  exact keepsTimes_iff hrun

/-- One message, handled at once. -/
def oneHandled : List MsgEvent :=
  [.call ⟨ascii "a", ascii "#c", 0, 0⟩, .enter 0, .enqueue, .signal, .handle 1 2]

theorem not_keepsTimes :
    ¬ ∀ (events : List MsgEvent) (q : MsgQueue),
      replay MsgQueue.next .start events = some q → KeepsTimes events q := by
  intro h
  have hrun : replay MsgQueue.next .start oneHandled =
      some ((replay MsgQueue.next .start oneHandled).getD .start) := by decide +kernel
  have hused : historySize ∈ (endState (handlerTurns (clocks oneHandled) startTimes)).used := by
    decide +kernel
  exact Nat.lt_irrefl _ ((h oneHandled _ hrun).inside historySize hused)

end Bcirc
