import Bcirc.SentEvents
import Bcirc.ThreadSteps

/-!
# Sending, in a whole run

What a step of a thread does to the bot, once for all steps (`BotStep`):
it raises one of three events, or touches nothing that is ever sent. So a
run keeps the bot in order. Lines enter it through `recvLines`, which is
where their ends go.
-/

namespace Bcirc

open CProg CStr Transition

/-! ## What a step does to the bot -/

/-- Nothing is sent, and nothing changes that would be. -/
def World.Quiet (w w' : World) : Prop :=
  ∀ may base, World.Orderly may base w → World.Orderly may base w'

/-- The thread is in the last part of `server_connect`, before the event. -/
def Thread.registers : Thread → Option Nat
  | .rejoin srv .register => some srv
  | .load srv .register _ => some srv
  | _ => none

/-- The server that the step announces a connection to. -/
def LifeEvent.registers : LifeEvent → Option Nat
  | .act t .none => t.registers
  | _ => none

section Steps

variable (lib : TitleLib) (depth : Nat)

inductive BotStep : LifeEvent → Bot Handler World → Bot Handler World → Prop where
  | quiet {e : LifeEvent} (he : e.registers = none) (bot : Bot Handler World) {w : World}
      (hw : bot.world.Quiet w) : BotStep e bot { bot with world := w }
  | line {srv : Nat} {line : Str} {bot bot' : Bot Handler World} {res : Int}
      (h : raiseEvent lib depth callbackServerRecv [.server srv, .str line] bot =
        .ok res bot') : BotStep (.act (.recv srv) (.line line)) bot bot'
  | connected {t : Thread} {srv : Nat} {bot bot' : Bot Handler World} {res : Int}
      (ht : t.registers = some srv)
      (h : raiseEvent lib depth callbackServerConnected [.server srv] bot = .ok res bot') :
      BotStep (.act t .none) bot bot'
  | disconnected {srv : Nat} {reason res : Int} {bot bot' : Bot Handler World}
      (h : raiseEvent lib depth callbackServerDisconnected [.server srv, .int reason] bot =
        .ok res bot') : BotStep (.act (.leave srv reason) .none) bot bot'

variable {lib depth}

theorem dispatch_bot {α : Type} {m : Prog (Bot Handler World) α} {s s' : Life}
    {new : List Thread} (h : s.dispatch m = some (new, s')) : ∃ a, m s.bot = .ok a s'.bot := by
  obtain ⟨s₁, hrun, heq⟩ := Option.map_eq_some_iff.mp h
  obtain ⟨-, rfl⟩ := Prod.mk.inj heq
  obtain ⟨a, hok, -⟩ := run_some hrun
  exact ⟨a, hok⟩

theorem BotStep.write {e : LifeEvent} (he : e.registers = none) {s s' : Life} {srv : Nat}
    {f : Server → Server} (h : s.write srv f = some s') (hf : ∀ r, r.Unbroken → (f r).Unbroken)
    (hnames : ∀ r, (f r).names = r.names) : BotStep lib depth e s.bot s'.bot := by
  obtain ⟨_, -, rfl⟩ := write_some h
  exact .quiet he s.bot fun _ _ hw => (orderly_setServer srv hf hnames s.bot.world hw).1

theorem BotStep.same {e : LifeEvent} (he : e.registers = none) (bot : Bot Handler World) :
    BotStep lib depth e bot bot :=
  .quiet he bot fun _ _ hw => hw

theorem step_connected_bot {e : LifeEvent} (he : e.registers = none) {s s' : Life} {srv : Nat}
    (h : s.connected srv = some s') : BotStep lib depth e s.bot s'.bot := by
  obtain ⟨s₁, hwrite, rfl⟩ := Option.map_eq_some_iff.mp h
  have hstep : BotStep lib depth e s.bot s₁.bot :=
    .write he hwrite (fun _ hr => hr.congr rfl rfl rfl) fun _ => rfl
  exact hstep

theorem steps_bot {t : Thread} {o : Outcome} {s s' : Life} {new : List Thread}
    (h : t.Steps lib depth s o new s') : BotStep lib depth (.act t o) s.bot s'.bot := by
  cases h with
  | line h =>
      obtain ⟨res, hraise⟩ := dispatch_bot h
      exact .line hraise
  | @disconnect srv reason _ _ h =>
      obtain ⟨_, hrun⟩ := dispatch_bot h
      obtain ⟨record, bot₁, hget, hafter⟩ := of_bind_ok hrun
      obtain ⟨w, hrecord, rfl⟩ := of_onWorld_ok hget
      obtain ⟨-, rfl⟩ := of_getServer_ok hrecord
      have hpair : (raiseEvent lib depth callbackServerDisconnected
          [.server srv, .int reason] >>= fun _ => pure PUnit.unit) s.bot = .ok _ s'.bot := hafter
      obtain ⟨res, bot₂, hraise, hend⟩ := of_bind_ok hpair
      cases hend
      exact .disconnected hraise
  | wake _ h | reopen h =>
      exact .write rfl h (fun _ hr => hr.congr rfl rfl rfl) fun _ => rfl
  | rejoined h | loaded h => exact step_connected_bot rfl h
  | rejoinRegister h | loadRegister h =>
      obtain ⟨res, hraise⟩ := dispatch_bot h
      exact .connected rfl hraise
  -- the other steps change no record
  | _ => exact .same rfl _

theorem step_bot {s s' : Life} {e : LifeEvent} (h : s.next lib depth e = some s') :
    BotStep lib depth e s.bot s'.bot := by
  cases e with
  | tick seconds =>
      cases h
      exact .quiet rfl s.bot fun _ _ hw => hw.congr rfl rfl rfl rfl
  | act t o =>
      obtain ⟨-, new, s₁, hstep, rfl⟩ := next_act h
      have hbot : BotStep lib depth (.act t o) s.bot s₁.bot := steps_bot (steps_of_step hstep)
      exact hbot

end Steps

/-! ## Runs -/

/-- Each line that is handled was cut out of what a `recv` returned. -/
def FromWire (events : List LifeEvent) : Prop :=
  ∀ srv line, .act (.recv srv) (.line line) ∈ events →
    ∃ buf lines, recvLines buf = .ok lines ∧ line ∈ lines

theorem unbroken_of_recvLines {buf : List UInt8} {lines : List Str} {line : Str}
    (h : recvLines buf = .ok lines) (hline : line ∈ lines) : Unbroken line := by
  unfold recvLines at h
  split at h
  · cases h
  cases hesc : bcircEscapeBuf escapedSize (untilNul buf) with
  | error e =>
      rw [hesc] at h
      cases h
  | ok escaped =>
      rw [hesc] at h
      cases escaped with
      | none => cases h
      | some toTokenized =>
          obtain rfl := Except.ok.inj h
          exact (of_mem_tokens hline).2.1

/-- The world that a run starts in: nothing sent, nothing queued, and no line
end in what was configured. -/
structure World.Fresh (w : World) : Prop where
  servers : ∀ r ∈ w.servers, r.Unbroken
  config : w.config.Unbroken
  sends : w.sends = []
  queue : w.privmsgQueue = []

theorem World.Fresh.orderly {w : World} (h : w.Fresh) (may : Nat → Str → Prop) :
    World.Orderly may w w where
  servers := h.servers
  names := rfl
  config := h.config
  sends := ⟨[], by simp, fun _ hcall => nomatch hcall⟩
  queue := fun entry hentry => absurd (h.queue ▸ hentry) List.not_mem_nil

/-- The lines handled in a run, with their servers. -/
def heardIn (events : List LifeEvent) (srv : Nat) (line : Str) : Prop :=
  .act (.recv srv) (.line line) ∈ events

theorem FromWire.heard {events : List LifeEvent} (h : FromWire events) {e : LifeEvent}
    (he : e ∈ events) (srv : Nat) (line : Str) (hline : e = .act (.recv srv) (.line line)) :
    heardIn events srv line ∧ Unbroken line := by
  subst hline
  obtain ⟨buf, lines, hlines, hmem⟩ := h srv line he
  exact ⟨he, unbroken_of_recvLines hlines hmem⟩

/-- The terms of a whole run: commands, one line each. -/
def Terms.ofRun (heard : Nat → Str → Prop) (w : World) (names : List CbName) : Terms where
  may srv := SentLine (Command heard srv)
  core := True
  base := w
  names := names

theorem admits_ofRun (heard : Nat → Str → Prop) (w : World) (names : List CbName) (srv : Nat) :
    (Terms.ofRun heard w names).Admits srv where
  nick _ hnick := (chat_nickLine hnick).mono fun _ => .chat
  join _ hrest := (chat_join hrest).mono fun _ => .chat

theorem inOrder_ofRun {lib : TitleLib} {depth : Nat} {heard : Nat → Str → Prop} {w : World}
    {names : List CbName} {e : LifeEvent} {bot bot' : Bot Handler World}
    (hheard : ∀ srv line, e = .act (.recv srv) (.line line) → heard srv line ∧ Unbroken line)
    (h : BotStep lib depth e bot bot') (hbot : (Terms.ofRun heard w names).InOrder bot) :
    (Terms.ofRun heard w names).InOrder bot' := by
  cases h with
  | quiet _ _ hw => exact ⟨hbot.1, hw _ _ hbot.2⟩
  | @line srv line _ _ _ h =>
      obtain ⟨hline, hunbroken⟩ := hheard srv line rfl
      refine hbot.raised (heeded_serverRecv hunbroken (fun _ => ?_) fun _ hlen hping => ?_) h
      · exact admits_ofRun heard w names srv
      · exact (chat_pongLine hline hunbroken hlen hping).mono fun _ => .chat
  | @connected t srv _ _ _ ht h =>
      refine hbot.raised (heeded_serverConnected fun _ => ⟨?_, fun record lines hr hlines => ?_⟩) h
      · exact admits_ofRun heard w names srv
      · exact command_registrationLines hr hlines
  | disconnected h => exact hbot.raised (heeded_serverDisconnected _) h

theorem inOrder_boot {heard : Nat → Str → Prop} {loads : List Load} {w : World}
    {servers : List Nat} (hw : w.Fresh) :
    (Terms.ofRun heard w (loadPlugins loads initIndex).names).InOrder
      (Life.boot loads w servers).bot := by
  refine ⟨⟨rfl, fun cbName cb hcb => ⟨?_, fun _ => trivial⟩⟩, hw.orderly _⟩
  exact (pluginsOnly_loadPlugins loads).only cbName cb hcb

/-- In any run, whatever comes in: each buffer given to `send` is one line
and one of the five commands, and the queued messages make one line each. -/
theorem run_sends_lines {lib : TitleLib} {depth : Nat} {loads : List Load} {w : World}
    {servers : List Nat} {events : List LifeEvent} {s : Life} (hw : w.Fresh)
    (hwire : FromWire events)
    (h : replay (Life.next lib depth) (Life.boot loads w servers) events = some s) :
    (∀ call ∈ s.bot.world.sends,
      SentLine (Command (heardIn events) call.srv) call.buf) ∧
    ∀ entry ∈ s.bot.world.privmsgQueue, Unbroken (privmsgCommand entry.1 entry.2.1) := by
  have hend := replay_invariant
    (I := fun s =>
      (Terms.ofRun (heardIn events) w (loadPlugins loads initIndex).names).InOrder s.bot)
    (fun s e s' he hs hnext => inOrder_ofRun (hwire.heard he) (step_bot hnext) hs)
    (inOrder_boot hw) h
  constructor
  · obtain ⟨new, hnew, hmay⟩ := hend.2.sends
    have hstart : (Terms.ofRun (heardIn events) w (loadPlugins loads initIndex).names).base.sends =
        [] := hw.sends
    rw [hnew, hstart]
    exact hmay
  · intro entry hentry
    obtain ⟨hmsg, htarget⟩ := hend.2.queue entry hentry
    exact Unbroken.append (Unbroken.append (Unbroken.append (by decide) htarget) (by decide)) hmsg

/-- The server is loaded, and asks for an answer. -/
def samplePinged : List LifeEvent :=
  sampleLoading ++ [.act (.recv 0) (.line (ascii "PING xy"))]

theorem sampleWorld_fresh : sampleWorld.Fresh := by
  refine ⟨fun r hr => ?_, fun _ hconfig => (nomatch hconfig), rfl, rfl⟩
  obtain rfl := List.mem_singleton.mp hr
  have hbot : Unbroken (ascii "bot") := by decide
  exact ⟨fun _ hpass => (nomatch hpass), hbot, hbot, hbot, by decide⟩

theorem samplePinged_fromWire : FromWire samplePinged := by
  intro srv line hmem
  have hline : line = ascii "PING xy" := by
    simp [samplePinged, sampleLoading] at hmem
    exact hmem.2
  subst hline
  exact ⟨ascii "PING xy\r\n", [ascii "PING xy"], by decide +kernel, List.mem_singleton_self _⟩

theorem run_sends_lines_sample :
    (∀ call ∈ (sampleLife samplePinged).bot.world.sends,
      SentLine (Command (heardIn samplePinged) call.srv) call.buf) ∧
    ∀ entry ∈ (sampleLife samplePinged).bot.world.privmsgQueue,
      Unbroken (privmsgCommand entry.1 entry.2.1) := by
  have hrun : sampleReplay samplePinged = some (sampleLife samplePinged) :=
    sampleReplay_eq (by decide +kernel)
  exact run_sends_lines sampleWorld_fresh samplePinged_fromWire hrun

end Bcirc
