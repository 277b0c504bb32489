import Bcirc.NumericValue
import Bcirc.Plugins
import Bcirc.ServerPool
import Bcirc.Transition

/-!
# Receive loops, rejoin threads and the pool
(`src/server.c`, `plugins/src/core/core.c`)

The threads that own a server, one after the other: `load_servers` adds it
and starts its receive loop; a loop that loses the connection raises
`server_disconnected`, for which the core plugin starts `try_rejoin`; that
takes the server out of the pool, reconnects, adds it again and starts the
next loop. A step of one thread is what it does between two points where
others may run; handling a line and raising an event are one step each. A
fault ends the process.

`conns` is what an observer on the line would note. No step looks at it.
-/

namespace Bcirc

open CProg CStr Transition

/-! ## Threads -/

/-- What `try_rejoin` does next. -/
inductive RejoinStep where
  | begin
  | asleep (wake : Int)
  | remove
  | connect
  | register
  | reopen
  | add
  | start
  deriving DecidableEq, Repr

/-- What `load_servers` does next with a server. -/
inductive LoadStep where
  | connect
  | register
  | add
  | start
  deriving DecidableEq, Repr

inductive Thread where
  | recv (srv : Nat)
  | leave (srv : Nat) (reason : Int)
  | rejoin (srv : Nat) (step : RejoinStep)
  | load (srv : Nat) (step : LoadStep) (rest : List Nat)
  deriving DecidableEq, Repr

/-- What the outside answers to a step, if anything. -/
inductive Outcome where
  | none
  | ok
  | fails
  | line (line : Str)
  | selectFails
  | timeout
  | closed
  deriving DecidableEq, Repr

/-! ## Connections -/

def waitTime : Int := 30

/-- The connection of a server: when it was made, whether RPL_WELCOME came
in on it, and how many connections in a row before it the server has closed
within `WAIT_TIME`, unwelcomed. -/
structure Conn where
  made : Bool
  since : Int
  welcomed : Bool
  quickLosses : Nat
  deriving DecidableEq, Repr

def Conn.opened (now : Int) (conn : Conn) : Conn :=
  { conn with made := true, since := now, welcomed := false }

def Conn.heard (line : Str) (conn : Conn) : Conn :=
  { conn with welcomed := conn.welcomed || isWelcome line }

def Conn.timedOut (conn : Conn) : Conn := { conn with quickLosses := 0 }

/-- The server has closed it. -/
def Conn.closed (now : Int) (conn : Conn) : Conn :=
  { conn with
    quickLosses :=
      if now - conn.since < waitTime ∧ conn.welcomed = false then conn.quickLosses + 1 else 0 }

structure Life where
  bot : Bot Handler World
  serverList : List Nat
  threads : List Thread
  added : List Nat
  conns : Nat → Conn

def Life.clock (s : Life) : Int := s.bot.world.clock

def Life.setConn (s : Life) (srv : Nat) (f : Conn → Conn) : Life :=
  { s with conns := Function.update s.conns srv (f (s.conns srv)) }

/-- `none` when the process is gone. -/
def Life.run {α : Type} (s : Life) (m : Prog (Bot Handler World) α) : Option Life :=
  match m s.bot with
  | .ok _ bot => some { s with bot := bot }
  | .error _ _ => none

/-- Raising an event: with the threads that `server_rejoin` starts meanwhile. -/
def Life.dispatch {α : Type} (s : Life) (m : Prog (Bot Handler World) α) :
    Option (List Thread × Life) :=
  (s.run m).map fun s' =>
    ((s'.bot.world.rejoining.drop s.bot.world.rejoining.length).map (.rejoin · .begin), s')

/-- A change of a record, through the pointer `srv`. -/
def Life.write (s : Life) (srv : Nat) (f : Server → Server) : Option Life :=
  s.run (onWorld do
    let _ ← getServer srv
    setServer srv f)

/-! ## The steps -/

section Steps

variable (lib : TitleLib) (depth : Nat)

def raiseEvent : Str → List Arg → Prog (Bot Handler World) Int :=
  executeCallbacks (invoke lib depth) .str

/-- `connect` has succeeded. -/
def Life.connected (s : Life) (srv : Nat) : Option Life :=
  (s.write srv fun record => { record with motdSent := 0 }).map fun s =>
    s.setConn srv (Conn.opened s.clock)

/-- The end of `server_connect`; `next` is what its caller does then. -/
def Life.register (s : Life) (srv : Nat) (next : Thread) : Option (List Thread × Life) :=
  (s.dispatch (raiseEvent lib depth callbackServerConnected [.server srv])).map
    fun r => (next :: r.1, r.2)

def Life.addServer (s : Life) (srv : Nat) : Life :=
  { s with serverList := addToServerpool s.serverList srv }

/-- A round of the loop of `server_recv`; the lines of one `recv` are a step each. -/
def serverRecvStep (srv : Nat) : Outcome → Life → Option (List Thread × Life)
  | .line line, s =>
      ((s.setConn srv (Conn.heard line)).dispatch (executeRecv lib depth srv line)).map
        fun r => (.recv srv :: r.1, r.2)
  | .selectFails, s => some ([], s)
  | .timeout, s => some ([.leave srv serverTimeout], s.setConn srv Conn.timedOut)
  | .closed, s =>
      some ([.leave srv serverClosedConnection], s.setConn srv (Conn.closed s.clock))
  | _, _ => none

/-- The end of `server_recv`. -/
def leaveStep (srv : Nat) (reason : Int) : Outcome → Life → Option (List Thread × Life)
  | .none, s => s.dispatch (serverDisconnect (raiseEvent lib depth) srv reason)
  | _, _ => none

/-- The argument of `sleep`, 0 where it is not called. -/
def rejoinSleep (record : Server) (timenow : Int) : Int :=
  if timenow - record.timeConnected < waitTime ∧ record.rejoinTries ≠ 0 then
    waitTime * (record.rejoinTries + 1)
  else 0

/-- `sleep(15)` after a failed `connect` is time that may pass anyway. -/
def tryRejoinStep (srv : Nat) : RejoinStep → Outcome → Life → Option (List Thread × Life)
  | .begin, .none, s =>
      s.bot.world.servers[srv]?.map fun record =>
        ([.rejoin srv (.asleep (s.clock + rejoinSleep record s.clock))], s)
  | .asleep wake, .none, s =>
      if s.clock < wake then none
      else
        (s.write srv fun record => { record with rejoinTries := record.rejoinTries + 1 }).map
          fun s => ([.rejoin srv .remove], s)
  | .remove, .none, s =>
      some ([.rejoin srv .connect],
        { s with serverList := removeFromServerpool s.serverList srv })
  | .connect, .fails, s => some ([.rejoin srv .connect], s)
  | .connect, .ok, s => (s.connected srv).map fun s => ([.rejoin srv .register], s)
  | .register, .none, s => s.register lib depth srv (.rejoin srv .reopen)
  | .reopen, .none, s =>
      (s.write srv fun record => { record with motdSent := 1, rejoinTries := 0 }).map
        fun s => ([.rejoin srv .add], s)
  | .add, .none, s => some ([.rejoin srv .start], s.addServer srv)
  | .start, .ok, s => some ([.recv srv], s)
  | .start, .fails, s => some ([], s)
  | _, _, _ => none

/-- The loop of `load_servers` at its next server. -/
def loadNext : List Nat → List Thread
  | [] => []
  | srv :: rest => [.load srv .connect rest]

/-- A `connect` that fails ends `load_servers`. -/
def loadServersStep (srv : Nat) (rest : List Nat) :
    LoadStep → Outcome → Life → Option (List Thread × Life)
  | .connect, .fails, s => some ([], s)
  | .connect, .ok, s => (s.connected srv).map fun s => ([.load srv .register rest], s)
  | .register, .none, s => s.register lib depth srv (.load srv .add rest)
  | .add, .none, s =>
      some ([.load srv .start rest], { s.addServer srv with added := s.added ++ [srv] })
  | .start, .ok, s => some (.recv srv :: loadNext rest, s)
  | .start, .fails, s => some (loadNext rest, s)
  | _, _, _ => none

def Thread.step : Thread → Outcome → Life → Option (List Thread × Life)
  | .recv srv => serverRecvStep lib depth srv
  | .leave srv reason => leaveStep lib depth srv reason
  | .rejoin srv step => tryRejoinStep lib depth srv step
  | .load srv step rest => loadServersStep lib depth srv rest step

/-- Time passes, or a thread takes its next step. -/
inductive LifeEvent where
  | tick (seconds : Nat)
  | act (t : Thread) (o : Outcome)
  deriving DecidableEq, Repr

def Life.next (s : Life) : LifeEvent → Option Life
  | .tick seconds =>
      some { s with bot := { s.bot with world := { s.bot.world with
        clock := s.bot.world.clock + seconds } } }
  | .act t o =>
      if t ∈ s.threads then
        (t.step lib depth o s).map fun r => { r.2 with threads := r.1 ++ s.threads.erase t }
      else none

theorem next_act {lib : TitleLib} {depth : Nat} {s s' : Life} {t : Thread} {o : Outcome}
    (h : s.next lib depth (.act t o) = some s') :
    t ∈ s.threads ∧ ∃ new s₁, t.step lib depth o s = some (new, s₁) ∧
      s' = { s₁ with threads := new ++ s.threads.erase t } := by
  have hact : (if t ∈ s.threads then
      (t.step lib depth o s).map fun r => { r.2 with threads := r.1 ++ s.threads.erase t }
    else none) = some s' := h
  split at hact
  · rename_i ht
    obtain ⟨⟨new, s₁⟩, hstep, rfl⟩ := Option.map_eq_some_iff.mp hact
    exact ⟨ht, new, s₁, hstep, rfl⟩
  · cases hact

end Steps

/-! ## Where it starts -/

/-- The plugins are loaded, and `load_servers` is at the first of `servers`. -/
def Life.boot (loads : List Load) (w : World) (servers : List Nat) : Life where
  bot := ⟨loadPlugins loads initIndex, w⟩
  serverList := []
  threads := loadNext servers
  added := []
  conns _ := ⟨false, 0, false, 0⟩

/-- The core plugin is loaded once, every server has a record of its own,
and `load_servers` has set `rejoin_tries` to 0. -/
structure Boots (loads : List Load) (w : World) (servers : List Nat) : Prop where
  core : (loads.filter (·.plugin = .core)).length ≤ 1
  nodup : servers.Nodup
  tries : ∀ record ∈ w.servers, record.rejoinTries = 0

def Life.Initial (s : Life) : Prop :=
  ∃ loads w servers, Boots loads w servers ∧ s = Life.boot loads w servers

/-! ## A server that keeps closing its connections -/

def sampleStart : Life := Life.boot sampleLoads sampleWorld [0]

theorem sampleStart_initial : sampleStart.Initial := by
  refine ⟨sampleLoads, sampleWorld, [0], ⟨by decide, by decide, ?_⟩, rfl⟩
  intro record hrecord
  obtain rfl := List.mem_singleton.mp hrecord
  rfl

/-- `load_servers` with one server. -/
def sampleLoading : List LifeEvent :=
  [.act (.load 0 .connect []) .ok, .act (.load 0 .register []) .none,
    .act (.load 0 .add []) .none, .act (.load 0 .start []) .ok]

/-- A connection that the server closes, up to the start of `try_rejoin`. -/
def sampleLoss : List LifeEvent :=
  [.act (.recv 0) .closed, .act (.leave 0 serverClosedConnection) .none]

/-- `try_rejoin`, up to the addition. -/
def sampleRejoin : List LifeEvent :=
  [.act (.rejoin 0 .begin) .none, .act (.rejoin 0 (.asleep 0)) .none,
    .act (.rejoin 0 .remove) .none, .act (.rejoin 0 .connect) .ok,
    .act (.rejoin 0 .register) .none, .act (.rejoin 0 .reopen) .none,
    .act (.rejoin 0 .add) .none, .act (.rejoin 0 .start) .ok]

def sampleReplay (events : List LifeEvent) : Option Life :=
  replay (Life.next sampleLib 3) sampleStart events

def sampleLife (events : List LifeEvent) : Life := (sampleReplay events).getD sampleStart

theorem sampleReplay_eq {events : List LifeEvent} (h : (sampleReplay events).isSome = true) :
    sampleReplay events = some (sampleLife events) := by
  obtain ⟨s, hs⟩ := Option.isSome_iff_exists.mp h
  rw [sampleLife, hs]
  rfl

theorem sampleLife_reach {events : List LifeEvent} (h : (sampleReplay events).isSome = true) :
    Reach Life.Initial (someEvent (Life.next sampleLib 3)) (sampleLife events) :=
  reach_of_replay (.init sampleStart_initial) (sampleReplay_eq h)

end Bcirc
