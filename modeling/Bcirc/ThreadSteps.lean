import Bcirc.Lifecycle

/-!
# What a thread can do

The steps of the threads as a relation, one case for each stretch of code
between two points where others may run. What holds along every run is
shown from these cases (`steps_of_step`).
-/

namespace Bcirc

section Steps

variable (lib : TitleLib) (depth : Nat) (s : Life)

inductive Thread.Steps : Thread → Outcome → List Thread → Life → Prop where
  | line {srv : Nat} {line : CStr.Str} {started : List Thread} {s' : Life}
      (h : (s.setConn srv (Conn.heard line)).dispatch (executeRecv lib depth srv line) =
        some (started, s')) :
      Steps (.recv srv) (.line line) (.recv srv :: started) s'
  | selectFails {srv : Nat} : Steps (.recv srv) .selectFails [] s
  | timeout {srv : Nat} :
      Steps (.recv srv) .timeout [.leave srv serverTimeout] (s.setConn srv Conn.timedOut)
  | closed {srv : Nat} :
      Steps (.recv srv) .closed [.leave srv serverClosedConnection]
        (s.setConn srv (Conn.closed s.clock))
  | disconnect {srv : Nat} {reason : Int} {started : List Thread} {s' : Life}
      (h : s.dispatch (serverDisconnect (raiseEvent lib depth) srv reason) =
        some (started, s')) :
      Steps (.leave srv reason) .none started s'
  -- `try_rejoin`
  | readClock {srv : Nat} {record : Server} (h : s.bot.world.servers[srv]? = some record) :
      Steps (.rejoin srv .begin) .none
        [.rejoin srv (.asleep (s.clock + rejoinSleep record s.clock))] s
  | wake {srv : Nat} {wake : Int} {s' : Life} (hclock : wake ≤ s.clock)
      (h : s.write srv (fun record =>
        { record with rejoinTries := record.rejoinTries + 1 }) = some s') :
      Steps (.rejoin srv (.asleep wake)) .none [.rejoin srv .remove] s'
  | remove {srv : Nat} :
      Steps (.rejoin srv .remove) .none [.rejoin srv .connect]
        { s with serverList := removeFromServerpool s.serverList srv }
  | rejoinFails {srv : Nat} : Steps (.rejoin srv .connect) .fails [.rejoin srv .connect] s
  | rejoined {srv : Nat} {s' : Life} (h : s.connected srv = some s') :
      Steps (.rejoin srv .connect) .ok [.rejoin srv .register] s'
  | rejoinRegister {srv : Nat} {started : List Thread} {s' : Life}
      (h : s.dispatch (raiseEvent lib depth callbackServerConnected [.server srv]) =
        some (started, s')) :
      Steps (.rejoin srv .register) .none (.rejoin srv .reopen :: started) s'
  | reopen {srv : Nat} {s' : Life}
      (h : s.write srv (fun record =>
        { record with motdSent := 1, rejoinTries := 0 }) = some s') :
      Steps (.rejoin srv .reopen) .none [.rejoin srv .add] s'
  | addAgain {srv : Nat} :
      Steps (.rejoin srv .add) .none [.rejoin srv .start] (s.addServer srv)
  | startAgain {srv : Nat} : Steps (.rejoin srv .start) .ok [.recv srv] s
  | startAgainFails {srv : Nat} : Steps (.rejoin srv .start) .fails [] s
  -- `load_servers`
  | loadFails {srv : Nat} {rest : List Nat} : Steps (.load srv .connect rest) .fails [] s
  | loaded {srv : Nat} {rest : List Nat} {s' : Life} (h : s.connected srv = some s') :
      Steps (.load srv .connect rest) .ok [.load srv .register rest] s'
  | loadRegister {srv : Nat} {rest : List Nat} {started : List Thread} {s' : Life}
      (h : s.dispatch (raiseEvent lib depth callbackServerConnected [.server srv]) =
        some (started, s')) :
      Steps (.load srv .register rest) .none (.load srv .add rest :: started) s'
  | add {srv : Nat} {rest : List Nat} :
      Steps (.load srv .add rest) .none [.load srv .start rest]
        { s.addServer srv with added := s.added ++ [srv] }
  | start {srv : Nat} {rest : List Nat} :
      Steps (.load srv .start rest) .ok (.recv srv :: loadNext rest) s
  | startFails {srv : Nat} {rest : List Nat} :
      Steps (.load srv .start rest) .fails (loadNext rest) s

variable {lib depth s} {s' : Life} {srv : Nat} {o : Outcome} {new : List Thread}

theorem of_register_some {next : Thread} (h : s.register lib depth srv next = some (new, s')) :
    ∃ started, new = next :: started ∧
      s.dispatch (raiseEvent lib depth callbackServerConnected [.server srv]) =
        some (started, s') := by
  obtain ⟨⟨started, s₁⟩, hdispatch, heq⟩ := Option.map_eq_some_iff.mp h
  obtain ⟨rfl, rfl⟩ := Prod.mk.inj heq
  exact ⟨started, rfl, hdispatch⟩

theorem steps_of_serverRecv (h : serverRecvStep lib depth srv o s = some (new, s')) :
    Thread.Steps lib depth s (.recv srv) o new s' := by
  unfold serverRecvStep at h
  split at h
  · obtain ⟨⟨started, s₁⟩, hdispatch, heq⟩ := Option.map_eq_some_iff.mp h
    obtain ⟨rfl, rfl⟩ := Prod.mk.inj heq
    exact .line hdispatch
  · cases h
    exact .selectFails
  · cases h
    exact .timeout
  · cases h
    exact .closed
  · cases h

theorem steps_of_leave {reason : Int} (h : leaveStep lib depth srv reason o s = some (new, s')) :
    Thread.Steps lib depth s (.leave srv reason) o new s' := by
  unfold leaveStep at h
  split at h
  · exact .disconnect h
  · cases h

theorem steps_of_tryRejoin {step : RejoinStep}
    (h : tryRejoinStep lib depth srv step o s = some (new, s')) :
    Thread.Steps lib depth s (.rejoin srv step) o new s' := by
  unfold tryRejoinStep at h
  split at h
  · obtain ⟨record, hrecord, heq⟩ := Option.map_eq_some_iff.mp h
    cases heq
    exact .readClock hrecord
  · split at h
    · cases h
    · rename_i hclock
      obtain ⟨s₁, hwrite, heq⟩ := Option.map_eq_some_iff.mp h
      cases heq
      exact .wake (Int.not_lt.mp hclock) hwrite
  · cases h
    exact .remove
  · cases h
    exact .rejoinFails
  · obtain ⟨s₁, hconnected, heq⟩ := Option.map_eq_some_iff.mp h
    cases heq
    exact .rejoined hconnected
  · obtain ⟨started, rfl, hdispatch⟩ := of_register_some h
    exact .rejoinRegister hdispatch
  · obtain ⟨s₁, hwrite, heq⟩ := Option.map_eq_some_iff.mp h
    cases heq
    exact .reopen hwrite
  · cases h
    exact .addAgain
  · cases h
    exact .startAgain
  · cases h
    exact .startAgainFails
  · cases h

theorem steps_of_loadServers {step : LoadStep} {rest : List Nat}
    (h : loadServersStep lib depth srv rest step o s = some (new, s')) :
    Thread.Steps lib depth s (.load srv step rest) o new s' := by
  unfold loadServersStep at h
  split at h
  · cases h
    exact .loadFails
  · obtain ⟨s₁, hconnected, heq⟩ := Option.map_eq_some_iff.mp h
    cases heq
    exact .loaded hconnected
  · obtain ⟨started, rfl, hdispatch⟩ := of_register_some h
    exact .loadRegister hdispatch
  · cases h
    exact .add
  · cases h
    exact .start
  · cases h
    exact .startFails
  · cases h

theorem steps_of_step {t : Thread} (h : t.step lib depth o s = some (new, s')) :
    t.Steps lib depth s o new s' := by
  cases t with
  | recv srv => exact steps_of_serverRecv h
  | leave srv reason => exact steps_of_leave h
  | rejoin srv step => exact steps_of_tryRejoin h
  | load srv step rest => exact steps_of_loadServers h

end Steps

end Bcirc
