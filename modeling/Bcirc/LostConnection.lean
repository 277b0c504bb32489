import Bcirc.ServerPool
import Bcirc.ServerRecv

/-!
# How `server_recv` ends (`src/server.c`)

The events the receive loop raises itself are written down beside the
state (`Recorded`). Of its three ways out two go through
`server_disconnect`; after a failed `select` it returns without.
-/

namespace Bcirc

open CProg CStr

variable {σ : Type}

/-! ## Events written down -/

/-- A state, and the events raised so far with their arguments. -/
structure Recorded (σ : Type) where
  state : σ
  events : List (Str × List Arg)

/-- `m` does not raise events of its own. -/
def unrecorded {α : Type} (m : Prog σ α) : Prog (Recorded σ) α := fun s =>
  match m s.state with
  | .ok a state => .ok a { s with state := state }
  | .error e state => .error e { s with state := state }

def recorded (raise : Str → List Arg → Prog σ Int) (name : Str) (params : List Arg) :
    Prog (Recorded σ) Int := do
  modify fun s => { s with events := s.events ++ [(name, params)] }
  unrecorded (raise name params)

/-- `server_disconnect`, whatever closing the socket and raising an event
are. -/
def serverDisconnectWith (closeSocket : Prog σ Int) (raise : Str → List Arg → Prog σ Int)
    (srv : Nat) (reason : Int) : Prog σ Int := do
  let closeRes ← closeSocket
  let _ ← raise callbackServerDisconnected [.server srv, .int reason]
  pure closeRes

/-- `server_recv` with the events it raises. -/
def serverRecvRecorded (addRecvdLen : Nat → Prog σ Unit) (closeSocket : Prog σ Int)
    (raise : Str → List Arg → Prog σ Int) (srv : Nat) (events : List RecvEvent) :
    Prog (Recorded σ) Unit :=
  serverRecv (fun n => unrecorded (addRecvdLen n))
    (fun line => recorded raise callbackServerRecv [.server srv, .str line])
    (serverDisconnectWith (unrecorded closeSocket) (recorded raise) srv) events

/-- In the bot, closing the socket only reads the record. -/
def closeSocketOf {φ : Type} (srv : Nat) : Prog (Bot φ World) Int := do
  let _ ← onWorld (getServer srv)
  pure 0

theorem serverDisconnect_eq {φ : Type} (raise : Str → List Arg → Prog (Bot φ World) Int)
    (srv : Nat) (reason : Int) :
    serverDisconnect raise srv reason =
      (serverDisconnectWith (closeSocketOf srv) raise srv reason >>= fun _ => pure ()) := by
  simp [serverDisconnect, serverDisconnectWith, closeSocketOf]

/-! ## The way out -/

def RecvEvent.isData : RecvEvent → Bool
  | .data _ => true
  | _ => false

/-- How often the way out after this outcome leads through
`server_disconnect`. -/
def RecvEvent.disconnects : RecvEvent → Nat
  | .timeout => 1
  | .closed => 1
  | _ => 0

/-- What ends the loop: the first outcome that brings no data. -/
def exitEvent (events : List RecvEvent) : Option RecvEvent := events.find? (!·.isData)

/-- The firing of `CALLBACK_SERVER_DISCONNECTED` for `srv`. -/
def isDisconnect (srv : Nat) (event : Str × List Arg) : Bool :=
  event.1 == callbackServerDisconnected && event.2.head? == some (.server srv)

theorem of_unrecorded_ok {α : Type} {m : Prog σ α} {s s' : Recorded σ} {a : α}
    (h : unrecorded m s = .ok a s') : s'.events = s.events := by
  unfold unrecorded at h
  split at h
  · cases h
    rfl
  · cases h

theorem of_recorded_ok {raise : Str → List Arg → Prog σ Int} {name : Str} {params : List Arg}
    {s s' : Recorded σ} {r : Int} (h : recorded raise name params s = .ok r s') :
    s'.events = s.events ++ [(name, params)] :=
  of_unrecorded_ok h

/-- Neither the lines nor the counting of bytes is a disconnection. -/
theorem of_handleLines_ok {raise : Str → List Arg → Prog σ Int} {srv : Nat} {lines : List Str}
    {s s' : Recorded σ}
    (h : handleLines (fun line => recorded raise callbackServerRecv [.server srv, .str line])
      lines s = .ok () s') :
    s'.events.filter (isDisconnect srv) = s.events.filter (isDisconnect srv) := by
  induction lines generalizing s with
  | nil =>
      obtain rfl := (EStateM.Result.ok.inj h).2
      rfl
  | cons line lines ih =>
      obtain ⟨r, s₁, hline, hrest⟩ := of_bind_ok h
      have hname : isDisconnect srv (callbackServerRecv, [.server srv, .str line]) = false := rfl
      rw [ih hrest, of_recorded_ok hline, List.filter_append, List.filter_singleton, hname]
      simp

theorem of_serverDisconnectWith_ok {closeSocket : Prog σ Int}
    {raise : Str → List Arg → Prog σ Int} {srv : Nat} {reason r : Int} {s s' : Recorded σ}
    (h : serverDisconnectWith (unrecorded closeSocket) (recorded raise) srv reason s = .ok r s') :
    s'.events = s.events ++ [(callbackServerDisconnected, [.server srv, .int reason])] := by
  obtain ⟨closeRes, s₁, hclose, h⟩ := of_bind_ok h
  obtain ⟨code, s₂, hraise, h⟩ := of_bind_ok h
  obtain rfl := (EStateM.Result.ok.inj h).2
  rw [of_recorded_ok hraise, of_unrecorded_ok hclose]

/-- How often a run that returns has fired the event. -/
def disconnections (srv : Nat) (s : Recorded σ) : Nat :=
  (s.events.filter (isDisconnect srv)).length

theorem disconnections_serverDisconnect {closeSocket : Prog σ Int}
    {raise : Str → List Arg → Prog σ Int} {srv : Nat} {reason r : Int} {s s' : Recorded σ}
    (h : serverDisconnectWith (unrecorded closeSocket) (recorded raise) srv reason s = .ok r s') :
    disconnections srv s' = disconnections srv s + 1 := by
  have hfired : isDisconnect srv (callbackServerDisconnected, [.server srv, .int reason]) =
      true := by
    simp [isDisconnect]
  rw [disconnections, of_serverDisconnectWith_ok h, List.filter_append, List.filter_singleton,
    hfired, List.length_append]
  rfl

theorem disconnections_serverRecv {addRecvdLen : Nat → Prog σ Unit} {closeSocket : Prog σ Int}
    {raise : Str → List Arg → Prog σ Int} {srv : Nat} {events : List RecvEvent} {e : RecvEvent}
    (hexit : exitEvent events = some e) {s s' : Recorded σ}
    (h : serverRecvRecorded addRecvdLen closeSocket raise srv events s = .ok () s') :
    disconnections srv s' = disconnections srv s + e.disconnects := by
  unfold serverRecvRecorded at h
  induction events generalizing s with
  | nil => cases hexit
  | cons event events ih =>
      cases event with
      | selectFails =>
          obtain rfl := Option.some.inj hexit
          obtain rfl := (EStateM.Result.ok.inj h).2
          rfl
      | timeout =>
          obtain rfl := Option.some.inj hexit
          obtain ⟨r, s₁, hdisconnect, h⟩ := of_bind_ok h
          obtain rfl := (EStateM.Result.ok.inj h).2
          exact disconnections_serverDisconnect hdisconnect
      | closed =>
          obtain rfl := Option.some.inj hexit
          obtain ⟨r, s₁, hdisconnect, h⟩ := of_bind_ok h
          obtain rfl := (EStateM.Result.ok.inj h).2
          exact disconnections_serverDisconnect hdisconnect
      | data buf =>
          obtain ⟨_, s₁, hcount, h⟩ := of_bind_ok h
          obtain ⟨lines, -, h⟩ := of_liftExcept_bind_ok h
          obtain ⟨_, s₂, hhandle, h⟩ := of_bind_ok h
          rw [ih hexit h, disconnections, of_handleLines_ok hhandle, of_unrecorded_ok hcount]
          rfl

/-- A run of `server_recv` that returns has fired
`CALLBACK_SERVER_DISCONNECTED` for its server exactly once, if and only if
it does not return because `select` failed. -/
theorem disconnected_once_iff {addRecvdLen : Nat → Prog σ Unit} {closeSocket : Prog σ Int}
    {raise : Str → List Arg → Prog σ Int} {srv : Nat} {events : List RecvEvent} {e : RecvEvent}
    (hexit : exitEvent events = some e) {state : σ} {s' : Recorded σ}
    (h : serverRecvRecorded addRecvdLen closeSocket raise srv events ⟨state, []⟩ = .ok () s') :
    disconnections srv s' = 1 ↔ e ≠ .selectFails := by
  have hdata : e.isData = false := by simpa using List.find?_some hexit
  rw [disconnections_serverRecv hexit h]
  cases e with
  | data buf => cases hdata
  | selectFails => simp [disconnections, RecvEvent.disconnects]
  | timeout => simp [disconnections, RecvEvent.disconnects]
  | closed => simp [disconnections, RecvEvent.disconnects]

/-- A line and the end of the stream. -/
theorem disconnected_once_iff_sample :
    disconnections 0 (endState (serverRecvRecorded (σ := Unit) (fun _ => pure ()) (pure 0)
        (fun _ _ => pure bcircPluginOk) 0 [.data (ascii "PING x\r\n"), .closed] ⟨(), []⟩)) = 1 ↔
      RecvEvent.closed ≠ .selectFails := by
  obtain ⟨u, hrun⟩ := eq_ok_of_returned (r := serverRecvRecorded (σ := Unit) (fun _ => pure ())
    (pure 0) (fun _ _ => pure bcircPluginOk) 0 [.data (ascii "PING x\r\n"), .closed] ⟨(), []⟩)
    (by decide +kernel)
  exact disconnected_once_iff rfl hrun

/-- A `select` that is interrupted. -/
theorem disconnected_never :
    ¬ ∀ (events : List RecvEvent) (e : RecvEvent) (s' : Recorded Unit),
      exitEvent events = some e →
      serverRecvRecorded (fun _ => pure ()) (pure 0) (fun _ _ => pure bcircPluginOk) 0 events
        ⟨(), []⟩ = .ok () s' → disconnections 0 s' = 1 := by
  intro h
  exact absurd (h [.selectFails] .selectFails ⟨(), []⟩ rfl rfl) (by decide)

end Bcirc
