import Bcirc.Ownership
import Bcirc.Registration
import Bcirc.SentRuns

/-!
# What one server is told

The connections to a server and all that the threads of `Thread` send to
it, in the order in which it happens (`Life.watch`). Whatever the other ones
of them do meanwhile, it is a `Conversation`: a connection comes first, on
it the three lines of the registration, and only then anything else; and
the next connection starts over. The thread of the message queue is not one
of them: it sends what is queued on whatever connection there is.

The thread that has the server knows how far it is (`Thread.Knows`): it
owns the server, so nobody else goes on with the conversation.
-/

namespace Bcirc

open CProg CStr Tokens Transition

/-! ## Conversations -/

inductive Item where
  | opened
  | sent (buf : Str)
  deriving DecidableEq, Repr

inductive Phase where
  | closed
  | opened
  | registered
  deriving DecidableEq, Repr

/-- `names` is what the record of `srv` says; `heard` are the lines that came
from the servers. -/
inductive Conversation (heard : Nat → Str → Prop) (srv : Nat) (names : Option Str × Str × Str) :
    Phase → List Item → Prop where
  | start : Conversation heard srv names .closed []
  | opened {p : Phase} {l : List Item} (h : Conversation heard srv names p l) :
      Conversation heard srv names .opened (l ++ [.opened])
  | register {l : List Item} {calls : List (Nat × Str)}
      (h : Conversation heard srv names .opened l) (hcalls : Registers srv names calls) :
      Conversation heard srv names .registered (l ++ calls.map fun call => .sent call.2)
  | chat {l : List Item} {buf : Str} (h : Conversation heard srv names .registered l)
      (hbuf : SentLine (Chat heard srv) buf) :
      Conversation heard srv names .registered (l ++ [.sent buf])

theorem Conversation.chats {heard : Nat → Str → Prop} {srv : Nat}
    {names : Option Str × Str × Str} {l : List Item}
    (h : Conversation heard srv names .registered l) {bufs : List Str}
    (hbufs : ∀ buf ∈ bufs, SentLine (Chat heard srv) buf) :
    Conversation heard srv names .registered (l ++ bufs.map .sent) := by
  induction bufs generalizing l with
  | nil =>
      rw [List.map_nil, List.append_nil]
      exact h
  | cons buf bufs ih =>
      obtain ⟨hbuf, hrest⟩ := List.forall_mem_cons.mp hbufs
      rw [List.map_cons, List.append_cons]
      exact ih (h.chat hbuf) hrest

/-! ## Watching a run -/

def Item.buf? : Item → Option Str
  | .opened => none
  | .sent buf => some buf

/-- All that was ever sent to `srv`. -/
def told (srv : Nat) (w : World) : List Str :=
  (w.said.filter fun call => call.1 = srv).map (·.2)

/-- `connect` succeeds on `srv`. -/
def LifeEvent.opens (srv : Nat) : LifeEvent → Bool
  | .act (.rejoin s .connect) .ok => s == srv
  | .act (.load s .connect _) .ok => s == srv
  | _ => false

/-- What is sent to `srv` from `w` to `w'`. -/
def spoken (srv : Nat) (w w' : World) : List Str :=
  ((w'.said.drop w.said.length).filter fun call => call.1 = srv).map (·.2)

def newItems (srv : Nat) (e : LifeEvent) (w w' : World) : List Item :=
  (if e.opens srv then [.opened] else []) ++ (spoken srv w w').map .sent

/-- A step, with what it adds to the record of each server. -/
def Life.watch (lib : TitleLib) (depth : Nat) (x : Life × (Nat → List Item)) (e : LifeEvent) :
    Option (Life × (Nat → List Item)) :=
  (x.1.next lib depth e).map fun s' =>
    (s', fun srv => x.2 srv ++ newItems srv e x.1.bot.world s'.bot.world)

theorem spoken_of_said {w w' : World} {calls : List (Nat × Str)}
    (h : w'.said = w.said ++ calls) (srv : Nat) :
    spoken srv w w' = (calls.filter fun call => call.1 = srv).map (·.2) := by
  rw [spoken, h, List.drop_left]

theorem spoken_of_same {w w' : World} (h : w'.said = w.said) (srv : Nat) :
    spoken srv w w' = [] := by
  rw [spoken_of_said (h.trans (List.append_nil w.said).symm)]
  rfl

theorem World.Orderly.said {may : Nat → Str → Prop} {w w' : World}
    (h : World.Orderly may w w') :
    ∃ calls, w'.said = w.said ++ calls ∧ ∀ call ∈ calls, may call.1 call.2 := by
  obtain ⟨new, hnew, hmay⟩ := h.sends
  refine ⟨new.map fun call => (call.srv, call.buf), ?_, ?_⟩
  · rw [World.said, hnew, List.map_append]
    rfl
  · exact List.forall_mem_map.mpr hmay

theorem World.Orderly.said_same {may : Nat → Str → Prop} {w w' : World}
    (h : World.Orderly may w w') (hmay : ∀ srv buf, ¬ may srv buf) : w'.said = w.said := by
  obtain ⟨calls, hcalls, hall⟩ := h.said
  cases calls with
  | nil => rw [hcalls, List.append_nil]
  | cons call calls => exact absurd (hall call List.mem_cons_self) (hmay _ _)

/-! ## What a step says -/

/-- The terms of one step, which starts at `bot`. -/
def Terms.ofStep (may : Nat → Str → Prop) (bot : Bot Handler World) : Terms where
  may := may
  core := HasCore bot.reg
  base := bot.world
  names := bot.reg.names

theorem inOrder_ofStep {t : Terms} {bot : Bot Handler World} (h : t.InOrder bot)
    (may : Nat → Str → Prop) : (Terms.ofStep may bot).InOrder bot := by
  refine ⟨⟨rfl, fun cbName cb hcb => ⟨(h.1.only cbName cb hcb).1, fun hcore => ?_⟩⟩,
    h.2.servers, rfl, h.2.config, ⟨[], (List.append_nil _).symm, ?_⟩, h.2.queue⟩
  · exact ⟨cbName, cb, hcb, hcore⟩
  · exact fun _ hcall => nomatch hcall

/-- No callback of the core plugin comes from nowhere. -/
theorem Terms.InOrder.hasCore {may : Nat → Str → Prop} {bot bot' : Bot Handler World}
    (h : (Terms.ofStep may bot).InOrder bot') (hcore : HasCore bot'.reg) : HasCore bot.reg := by
  obtain ⟨cbName, cb, hcb, hisCore⟩ := hcore
  exact (h.1.only cbName cb hcb).2 hisCore

/-- What is said in a step, and to whom. -/
inductive Speech (heard : Nat → Str → Prop) (e : LifeEvent) (bot bot' : Bot Handler World) :
    Prop where
  | nothing (hsaid : bot'.world.said = bot.world.said)
      (hcore : HasCore bot.reg → e.registers = none)
  | chat {srv : Nat} {line : Str} {calls : List (Nat × Str)}
      (he : e = .act (.recv srv) (.line line)) (hcore : HasCore bot.reg)
      (hsaid : bot'.world.said = bot.world.said ++ calls)
      (hcalls : ∀ call ∈ calls, call.1 = srv ∧ SentLine (Chat heard srv) call.2)
  | register {srv : Nat} {record : Server} {calls : List (Nat × Str)}
      (he : e.registers = some srv) (hcore : HasCore bot.reg)
      (hrecord : bot.world.servers[srv]? = some record)
      (hsaid : bot'.world.said = bot.world.said ++ calls)
      (hcalls : Registers srv record.names calls)

structure StepFacts (heard : Nat → Str → Prop) (e : LifeEvent) (bot bot' : Bot Handler World) :
    Prop where
  speech : Speech heard e bot bot'
  furnished : Furnished bot'.reg
  core : HasCore bot'.reg → HasCore bot.reg

section Speech

variable {heard : Nat → Str → Prop} {e : LifeEvent} {bot bot' : Bot Handler World} {srv : Nat}

theorem spoken_elsewhere {w w' : World} {calls : List (Nat × Str)}
    (hsaid : w'.said = w.said ++ calls) (hcalls : ∀ call ∈ calls, call.1 ≠ srv) :
    spoken srv w w' = [] := by
  rw [spoken_of_said hsaid, List.filter_eq_nil_iff.mpr fun call hcall => by
    simpa using hcalls call hcall]
  rfl

theorem spoken_all {w w' : World} {calls : List (Nat × Str)}
    (hsaid : w'.said = w.said ++ calls) (hcalls : ∀ call ∈ calls, call.1 = srv) :
    spoken srv w w' = calls.map (·.2) := by
  rw [spoken_of_said hsaid, List.filter_eq_self.mpr fun call hcall => by
    simpa using hcalls call hcall]

theorem Registers.to_srv {names : Option Str × Str × Str} {calls : List (Nat × Str)}
    (h : Registers srv names calls) : ∀ call ∈ calls, call.1 = srv := by
  obtain ⟨record, lines, newNick, -, -, rfl⟩ := h
  simp

/-- Nothing is said to a server in other threads. -/
theorem Speech.silent (h : Speech heard e bot bot')
    (hline : ∀ line, e ≠ .act (.recv srv) (.line line)) (hregisters : e.registers ≠ some srv) :
    spoken srv bot.world bot'.world = [] := by
  cases h with
  | nothing hsaid _ => exact spoken_of_same hsaid srv
  | chat he _ hsaid hcalls =>
      refine spoken_elsewhere hsaid fun call hcall heq => ?_
      rw [(hcalls call hcall).1] at heq
      exact hline _ (heq ▸ he)
  | register he _ _ hsaid hcalls =>
      refine spoken_elsewhere hsaid fun call hcall heq => ?_
      rw [hcalls.to_srv call hcall] at heq
      exact hregisters (heq ▸ he)

/-- The log has all that is sent. -/
theorem Speech.told (h : Speech heard e bot bot') (srv : Nat) {l : List Item}
    (hl : l.filterMap Item.buf? = Bcirc.told srv bot.world) :
    (l ++ newItems srv e bot.world bot'.world).filterMap Item.buf? =
      Bcirc.told srv bot'.world := by
  have hgrows : ∃ calls, bot'.world.said = bot.world.said ++ calls := by
    cases h with
    | nothing hsaid _ => exact ⟨[], by rw [hsaid, List.append_nil]⟩
    | chat _ _ hsaid _ => exact ⟨_, hsaid⟩
    | register _ _ _ hsaid _ => exact ⟨_, hsaid⟩
  obtain ⟨calls, hsaid⟩ := hgrows
  have hitems : (newItems srv e bot.world bot'.world).filterMap Item.buf? =
      spoken srv bot.world bot'.world := by
    have hopened : (if e.opens srv then [Item.opened] else []).filterMap Item.buf? = [] := by
      split <;> rfl
    rw [newItems, List.filterMap_append, hopened, List.nil_append, List.filterMap_map]
    exact List.filterMap_some
  rw [List.filterMap_append, hl, hitems, spoken_of_said hsaid, Bcirc.told, Bcirc.told, hsaid,
    List.filter_append, List.map_append]

theorem Speech.noCore (h : Speech heard e bot bot') (hcore : ¬ HasCore bot.reg) :
    spoken srv bot.world bot'.world = [] := by
  cases h with
  | nothing hsaid _ => exact spoken_of_same hsaid srv
  | chat _ hcore' _ _ => exact absurd hcore' hcore
  | register _ hcore' _ _ _ => exact absurd hcore' hcore

theorem Speech.chats (h : Speech heard e bot bot') (hregisters : e.registers ≠ some srv) :
    ∀ buf ∈ spoken srv bot.world bot'.world, SentLine (Chat heard srv) buf := by
  cases h with
  | nothing hsaid _ =>
      rw [spoken_of_same hsaid]
      exact fun _ hbuf => nomatch hbuf
  | chat _ _ hsaid hcalls =>
      intro buf hbuf
      rw [spoken_of_said hsaid] at hbuf
      obtain ⟨call, hcall, rfl⟩ := List.mem_map.mp hbuf
      obtain ⟨hmem, hsrv⟩ := List.mem_filter.mp hcall
      obtain ⟨hto, hchat⟩ := hcalls call hmem
      rwa [← of_decide_eq_true hsrv, hto]
  | register he _ _ hsaid hcalls =>
      rw [spoken_elsewhere hsaid fun call hcall heq =>
        hregisters (he.trans (congrArg some ((hcalls.to_srv call hcall).symm.trans heq)))]
      exact fun _ hbuf => nomatch hbuf

theorem Speech.registers (h : Speech heard e bot bot') (he : e.registers = some srv)
    (hcore : HasCore bot.reg) : ∃ record calls, bot.world.servers[srv]? = some record ∧
      Registers srv record.names calls ∧ spoken srv bot.world bot'.world = calls.map (·.2) := by
  cases h with
  | nothing _ hnone =>
      rw [hnone hcore] at he
      cases he
  | chat he' _ _ _ =>
      rw [he'] at he
      cases he
  | register he' _ hrecord hsaid hcalls =>
      obtain rfl := Option.some.inj (he'.symm.trans he)
      exact ⟨_, _, hrecord, hcalls, spoken_all hsaid hcalls.to_srv⟩

end Speech

section Steps

variable {lib : TitleLib} {depth : Nat} {heard : Nat → Str → Prop} {t : Terms}
  {bot bot' : Bot Handler World} {res : Int}

theorem stepFacts_line {srv : Nat} {line : Str} (hbot : t.InOrder bot)
    (hheard : heard srv line) (hline : Unbroken line)
    (h : raiseEvent lib depth callbackServerRecv [.server srv, .str line] bot = .ok res bot') :
    Speech heard (.act (.recv srv) (.line line)) bot bot' ∧
      (HasCore bot'.reg → HasCore bot.reg) := by
  have hstart := inOrder_ofStep hbot fun s buf =>
    HasCore bot.reg ∧ s = srv ∧ SentLine (Chat heard srv) buf
  have hend := hstart.raised (heeded_serverRecv hline (fun hcore => ⟨?_, ?_⟩) ?_) h
  · refine ⟨?_, hend.hasCore⟩
    by_cases hcore : HasCore bot.reg
    · obtain ⟨calls, hsaid, hcalls⟩ := hend.2.said
      exact .chat rfl hcore hsaid fun call hcall => (hcalls call hcall).2
    · exact .nothing (hend.2.said_same fun _ _ hmay => hcore hmay.1) fun h => absurd h hcore
  · exact fun newNick hnick => ⟨hcore, rfl, chat_nickLine hnick⟩
  · exact fun rest hrest => ⟨hcore, rfl, chat_join hrest⟩
  · exact fun hcore hlen hping => ⟨hcore, rfl, chat_pongLine hheard hline hlen hping⟩

theorem stepFacts_connected {e : LifeEvent} {srv : Nat} (he : e.registers = some srv)
    (hbot : t.InOrder bot) (hreg : Furnished bot.reg)
    (h : raiseEvent lib depth callbackServerConnected [.server srv] bot = .ok res bot') :
    Speech heard e bot bot' ∧ (HasCore bot'.reg → HasCore bot.reg) := by
  by_cases hcore : HasCore bot.reg
  · have honly : PluginsOnly bot.reg.names bot.reg :=
      ⟨rfl, fun cbName cb hcb => (hbot.1.only cbName cb hcb).1⟩
    obtain ⟨record, calls, hrecord, hregisters, htells⟩ :=
      tells_serverConnected honly hreg hcore h
    exact ⟨.register he hcore hrecord htells.said hregisters, fun _ => hcore⟩
  · have hstart := inOrder_ofStep hbot fun _ _ => False
    have hend := hstart.raised (heeded_serverConnected fun h => absurd h hcore) h
    exact ⟨.nothing (hend.2.said_same fun _ _ hmay => hmay) fun h => absurd h hcore,
      hend.hasCore⟩

theorem stepFacts {e : LifeEvent} (h : BotStep lib depth e bot bot')
    (hheard : ∀ srv line, e = .act (.recv srv) (.line line) → heard srv line ∧ Unbroken line)
    (hbot : t.InOrder bot) (hreg : Furnished bot.reg) : StepFacts heard e bot bot' := by
  have honly : PluginsOnly bot.reg.names bot.reg :=
    ⟨rfl, fun cbName cb hcb => (hbot.1.only cbName cb hcb).1⟩
  have hstart := inOrder_ofStep hbot fun _ _ => False
  cases h with
  | quiet he _ hw =>
      have hsame := (hw _ _ hstart.2).said_same fun _ _ hmay => hmay
      exact ⟨.nothing hsame fun _ => he, hreg, fun hcore => hcore⟩
  | @line srv line _ _ _ h =>
      obtain ⟨hsrv, hline⟩ := hheard srv line rfl
      obtain ⟨hspeech, hcore⟩ := stepFacts_line hbot hsrv hline h
      exact ⟨hspeech, furnished_raised honly hreg h, hcore⟩
  | @connected t srv _ _ _ ht h =>
      obtain ⟨hspeech, hcore⟩ := stepFacts_connected (e := .act t .none) ht hbot hreg h
      exact ⟨hspeech, furnished_raised honly hreg h, hcore⟩
  | disconnected h =>
      have hend := hstart.raised (heeded_serverDisconnected _) h
      exact ⟨.nothing (hend.2.said_same fun _ _ hmay => hmay) fun _ => rfl,
        furnished_raised honly hreg h, hend.hasCore⟩

end Steps

/-! ## What the threads know -/

/-- The server has been registered with, on its last connection. -/
def Thread.talks (srv : Nat) : Thread → Bool
  | .recv s => s == srv
  | .rejoin s .reopen | .rejoin s .add | .rejoin s .start => s == srv
  | .load s .add _ | .load s .start _ => s == srv
  | _ => false

/-- `t'` may come after the step `e` of `t`: it announces a connection only
if this was it, and talks only if `t` did or has announced it. -/
def Succeeds (e : LifeEvent) (t t' : Thread) : Prop :=
  ∀ srv, (t'.registers = some srv → e.opens srv = true) ∧
    (t'.talks srv = true → t.talks srv = true ∨ e.registers = some srv)

/-- A thread at any other step. -/
theorem succeeds_idle {e : LifeEvent} {t t' : Thread} (hregisters : t'.registers = none)
    (htalks : ∀ srv, t'.talks srv = false) : Succeeds e t t' :=
  fun srv => ⟨fun h => (nomatch hregisters.symm.trans h),
    fun h => (nomatch (htalks srv).symm.trans h)⟩

theorem succeeds_same {e : LifeEvent} {t t' : Thread} (hregisters : t'.registers = none)
    (htalks : ∀ srv, t'.talks srv = t.talks srv) : Succeeds e t t' :=
  fun srv => ⟨fun h => (nomatch hregisters.symm.trans h),
    fun h => Or.inl ((htalks srv).symm.trans h)⟩

section Phases

variable {lib : TitleLib} {depth srv : Nat} {o : Outcome} {s s' : Life} {new : List Thread}

theorem succeeds_started {α : Type} {e : LifeEvent} {t : Thread}
    {m : Prog (Bot Handler World) α} (h : s.dispatch m = some (new, s')) :
    ∀ t' ∈ new, Succeeds e t t' := by
  obtain ⟨s₁, -, heq⟩ := Option.map_eq_some_iff.mp h
  obtain ⟨rfl, -⟩ := Prod.mk.inj heq
  intro t' ht'
  obtain ⟨k, -, rfl⟩ := List.mem_map.mp ht'
  exact succeeds_idle rfl fun _ => rfl

theorem succeeds_connected {e : LifeEvent} {t t' : Thread} (he : e.opens srv = true)
    (hregisters : t'.registers = some srv) (htalks : ∀ k, t'.talks k = false) :
    Succeeds e t t' := by
  refine fun k => ⟨fun hk => ?_, fun hk => (nomatch (htalks k).symm.trans hk)⟩
  obtain rfl := Option.some.inj (hregisters.symm.trans hk)
  exact he

theorem succeeds_registered {e : LifeEvent} {t t' : Thread} (he : e.registers = some srv)
    (hregisters : t'.registers = none) (htalks : ∀ k, t'.talks k = (srv == k)) :
    Succeeds e t t' := by
  refine fun k => ⟨fun hk => (nomatch hregisters.symm.trans hk), fun hk => Or.inr ?_⟩
  rw [htalks, beq_iff_eq] at hk
  rw [he, hk]

theorem succeeds_loadNext {e : LifeEvent} {t : Thread} (rest : List Nat) :
    ∀ t' ∈ loadNext rest, Succeeds e t t' := by
  cases rest with
  | nil => exact fun _ ht' => nomatch ht'
  | cons srv rest => exact List.forall_mem_singleton.mpr (succeeds_idle rfl fun _ => rfl)

theorem succeeds_steps {t : Thread} (h : t.Steps lib depth s o new s') :
    ∀ t' ∈ new, Succeeds (.act t o) t t' := by
  cases h with
  | line h =>
      exact List.forall_mem_cons.mpr
        ⟨succeeds_same rfl fun _ => rfl, succeeds_started h⟩
  | disconnect h => exact succeeds_started h
  | rejoined _ | loaded _ =>
      exact List.forall_mem_singleton.mpr
        (succeeds_connected (beq_self_eq_true _) rfl fun _ => rfl)
  | rejoinRegister h | loadRegister h =>
      exact List.forall_mem_cons.mpr
        ⟨succeeds_registered rfl rfl fun _ => rfl, succeeds_started h⟩
  | reopen _ | addAgain | startAgain | add =>
      exact List.forall_mem_singleton.mpr (succeeds_same rfl fun _ => rfl)
  | @start _ rest =>
      exact List.forall_mem_cons.mpr
        ⟨succeeds_same rfl fun _ => rfl, succeeds_loadNext rest⟩
  | @startFails _ rest => exact succeeds_loadNext rest
  | timeout | closed | readClock _ | wake _ _ | remove | rejoinFails =>
      exact List.forall_mem_singleton.mpr (succeeds_idle rfl fun _ => rfl)
  | selectFails | startAgainFails | loadFails => exact fun _ ht' => nomatch ht'

end Phases

/-! ## Every run -/

section Runs

variable (heard : Nat → Str → Prop) (w : World)

/-- The conversation with `srv` is in phase `p`. -/
def At (log : Nat → List Item) (srv : Nat) (p : Phase) : Prop :=
  ∀ record, w.servers[srv]? = some record → Conversation heard srv record.names p (log srv)

/-- What a thread knows of its server. -/
structure Thread.Knows (core : Prop) (log : Nat → List Item) (t : Thread) (srv : Nat) :
    Prop where
  opened : t.registers = some srv → At heard w log srv .opened
  registered : t.talks srv = true → core → At heard w log srv .registered

structure Watched (names : List CbName) (x : Life × (Nat → List Item)) : Prop where
  told : ∀ srv, (x.2 srv).filterMap Item.buf? = told srv x.1.bot.world
  inv : Life.Inv x.1
  furnished : Furnished x.1.bot.reg
  inOrder : (Terms.ofRun heard w names).InOrder x.1.bot
  phases : ∀ srv, ∃ p, At heard w x.2 srv p
  knows : Relies Thread.servers (Thread.Knows heard w (HasCore x.1.bot.reg) x.2) x.1.threads

end Runs

section Step

variable {heard : Nat → Str → Prop} {w : World} {names : List CbName}
  {log : Nat → List Item} {e : LifeEvent} {bot bot' : Bot Handler World} {srv : Nat}

/-- The conversations after a step. -/
def nextLog (log : Nat → List Item) (e : LifeEvent) (w w' : World) (srv : Nat) : List Item :=
  log srv ++ newItems srv e w w'

theorem At.quiet {p : Phase} (h : At heard w log srv p) (hopens : e.opens srv = false)
    (hspoken : spoken srv bot.world bot'.world = []) :
    At heard w (nextLog log e bot.world bot'.world) srv p := by
  intro record hrecord
  have hsame : nextLog log e bot.world bot'.world srv = log srv := by
    simp [nextLog, newItems, hopens, hspoken]
  rw [hsame]
  exact h record hrecord

theorem At.opened {p : Phase} (h : At heard w log srv p) (hopens : e.opens srv = true)
    (hspoken : spoken srv bot.world bot'.world = []) :
    At heard w (nextLog log e bot.world bot'.world) srv .opened := by
  intro record hrecord
  have hopened : nextLog log e bot.world bot'.world srv = log srv ++ [.opened] := by
    simp [nextLog, newItems, hopens, hspoken]
  rw [hopened]
  exact (h record hrecord).opened

theorem At.chats (h : At heard w log srv .registered) (hopens : e.opens srv = false)
    (hspoken : ∀ buf ∈ spoken srv bot.world bot'.world, SentLine (Chat heard srv) buf) :
    At heard w (nextLog log e bot.world bot'.world) srv .registered := by
  intro record hrecord
  have hchats : nextLog log e bot.world bot'.world srv =
      log srv ++ (spoken srv bot.world bot'.world).map .sent := by
    simp [nextLog, newItems, hopens]
  rw [hchats]
  exact (h record hrecord).chats hspoken

theorem At.register (h : At heard w log srv .opened) (hopens : e.opens srv = false)
    {r : Server} {calls : List (Nat × Str)}
    (hnames : ∀ record, w.servers[srv]? = some record → r.names = record.names)
    (hcalls : Registers srv r.names calls)
    (hspoken : spoken srv bot.world bot'.world = calls.map (·.2)) :
    At heard w (nextLog log e bot.world bot'.world) srv .registered := by
  intro record hrecord
  have hregister : nextLog log e bot.world bot'.world srv =
      log srv ++ calls.map fun call => .sent call.2 := by
    simp [nextLog, newItems, hopens, hspoken]
  rw [hregister]
  exact (h record hrecord).register (hnames record hrecord ▸ hcalls)

end Step

/-! ### A step of a run -/

theorem Thread.mem_of_talks {t : Thread} {srv : Nat} (h : t.talks srv = true) :
    srv ∈ t.servers := by
  cases t with
  | recv s =>
      obtain rfl : s = srv := beq_iff_eq.mp h
      exact List.mem_cons_self
  | leave s reason => cases h
  | rejoin s step =>
      cases step with
      | reopen | add | start =>
          obtain rfl : s = srv := beq_iff_eq.mp h
          exact List.mem_cons_self
      | _ => cases h
  | load s step rest =>
      cases step with
      | add | start =>
          obtain rfl : s = srv := beq_iff_eq.mp h
          exact List.mem_cons_self
      | _ => cases h

theorem Thread.mem_of_registers {t : Thread} {srv : Nat} (h : t.registers = some srv) :
    srv ∈ t.servers := by
  cases t with
  | recv s | leave s reason => cases h
  | rejoin s step =>
      cases step with
      | register =>
          obtain rfl := Option.some.inj h
          exact List.mem_cons_self
      | _ => cases h
  | load s step rest =>
      cases step with
      | register =>
          obtain rfl := Option.some.inj h
          exact List.mem_cons_self
      | _ => cases h

theorem registers_act {t : Thread} {o : Outcome} {srv : Nat}
    (h : (LifeEvent.act t o).registers = some srv) : o = .none ∧ t.registers = some srv := by
  cases o with
  | none => exact ⟨rfl, h⟩
  | _ => cases h

/-- Only the step `connect` opens a connection, and not before it has one. -/
theorem opens_act {t : Thread} {o : Outcome} {srv : Nat}
    (h : (LifeEvent.act t o).opens srv = true) :
    srv ∈ t.servers ∧ o = .ok ∧ ∀ k, t.talks k = false := by
  cases o with
  | ok =>
      cases t with
      | recv s | leave s reason => cases h
      | rejoin s step =>
          cases step with
          | connect =>
              obtain rfl : s = srv := beq_iff_eq.mp h
              exact ⟨List.mem_cons_self, rfl, fun _ => rfl⟩
          | _ => cases h
      | load s step rest =>
          cases step with
          | connect =>
              obtain rfl : s = srv := beq_iff_eq.mp h
              exact ⟨List.mem_cons_self, rfl, fun _ => rfl⟩
          | _ => cases h
  | _ =>
      cases t with
      | recv s | leave s reason => cases h
      | rejoin s step => cases step <;> cases h
      | load s step rest => cases step <;> cases h

theorem opens_of_registers {t : Thread} {o : Outcome} {srv : Nat}
    (h : (LifeEvent.act t o).registers = some srv) (k : Nat) :
    (LifeEvent.act t o).opens k = false := by
  refine Bool.eq_false_iff.mpr fun hopens => ?_
  rw [(registers_act h).1] at hopens
  cases (opens_act hopens).2.1

theorem Thread.registers_of_talks {t : Thread} {srv : Nat} (h : t.talks srv = true) :
    t.registers = none := by
  cases t with
  | recv s | leave s reason => rfl
  | rejoin s step =>
      cases step with
      | register => cases h
      | _ => rfl
  | load s step rest =>
      cases step with
      | register => cases h
      | _ => rfl

section Run

variable {heard : Nat → Str → Prop} {w : World} {names : List CbName} {lib : TitleLib}
  {depth : Nat} {x x' : Life × (Nat → List Item)} {e : LifeEvent}

/-- A server that the thread of the step does not own. -/
theorem At.elsewhere {log : Nat → List Item} {t : Thread} {o : Outcome}
    {bot bot' : Bot Handler World} {srv : Nat} {p : Phase}
    (h : At heard w log srv p) (hspeech : Speech heard (.act t o) bot bot')
    (hsrv : srv ∉ t.servers) :
    At heard w (nextLog log (.act t o) bot.world bot'.world) srv p := by
  have hopens : (LifeEvent.act t o).opens srv = false :=
    Bool.eq_false_iff.mpr fun hopens => hsrv (opens_act hopens).1
  refine h.quiet hopens (hspeech.silent ?_ ?_)
  · rintro line he
    cases he
    exact hsrv List.mem_cons_self
  · exact fun he => hsrv (Thread.mem_of_registers (registers_act he).2)

theorem Watched.names_eq (h : Watched heard w names x) {srv : Nat} {r record : Server}
    (hr : x.1.bot.world.servers[srv]? = some r) (hrecord : w.servers[srv]? = some record) :
    r.names = record.names := by
  have hmap := congrArg (fun l => l[srv]?) h.inOrder.2.names
  have hbase : (Terms.ofRun heard w names).base.servers[srv]? = some record := hrecord
  simp only [List.getElem?_map, hr, hbase, Option.map_some] at hmap
  exact Option.some.inj hmap

/-- The step that announces a connection. -/
theorem Watched.register (h : Watched heard w names x) {bot' : Bot Handler World} {srv : Nat}
    (hspeech : Speech heard e x.1.bot bot') (he : e.registers = some srv)
    (hopens : e.opens srv = false) (hcore : HasCore x.1.bot.reg)
    (hat : At heard w x.2 srv .opened) :
    At heard w (nextLog x.2 e x.1.bot.world bot'.world) srv .registered := by
  obtain ⟨r, calls, hr, hcalls, hspoken⟩ := hspeech.registers he hcore
  exact hat.register hopens (fun record hrecord => h.names_eq hr hrecord) hcalls hspoken

/-- A step that opens a connection says nothing to anyone. -/
theorem Speech.silent_of_opens {t : Thread} {o : Outcome} {bot bot' : Bot Handler World}
    {srv : Nat} (h : Speech heard (.act t o) bot bot')
    (hopens : (LifeEvent.act t o).opens srv = true) (k : Nat) :
    spoken k bot.world bot'.world = [] := by
  obtain ⟨-, rfl, -⟩ := opens_act hopens
  refine h.silent (fun line he => ?_) fun he => ?_
  · cases he
  · cases (registers_act he).1

theorem Watched.phase (h : Watched heard w names x) {t : Thread} {o : Outcome}
    {bot' : Bot Handler World} (ht : t ∈ x.1.threads)
    (hspeech : Speech heard (.act t o) x.1.bot bot') (srv : Nat) :
    ∃ p, At heard w (nextLog x.2 (.act t o) x.1.bot.world bot'.world) srv p := by
  obtain ⟨p, hp⟩ := h.phases srv
  by_cases hopens : (LifeEvent.act t o).opens srv = true
  · exact ⟨.opened, hp.opened hopens (hspeech.silent_of_opens hopens srv)⟩
  have hopens : (LifeEvent.act t o).opens srv = false := Bool.eq_false_iff.mpr hopens
  by_cases hsrv : srv ∈ t.servers
  · have hknows := h.knows t ht srv hsrv
    by_cases hcore : HasCore x.1.bot.reg
    · by_cases hregisters : (LifeEvent.act t o).registers = some srv
      · exact ⟨.registered, h.register hspeech hregisters hopens hcore
          (hknows.opened (registers_act hregisters).2)⟩
      · by_cases hline : ∃ line, LifeEvent.act t o = .act (.recv srv) (.line line)
        · obtain ⟨line, he⟩ := hline
          cases he
          exact ⟨.registered, (hknows.registered (beq_self_eq_true srv) hcore).chats hopens
            (hspeech.chats hregisters)⟩
        · exact ⟨p, hp.quiet hopens (hspeech.silent (fun line he => hline ⟨line, he⟩)
            hregisters)⟩
    · exact ⟨p, hp.quiet hopens (hspeech.noCore hcore)⟩
  · exact ⟨p, hp.elsewhere hspeech hsrv⟩

/-- What the threads that follow know. -/
theorem Watched.knows_new (h : Watched heard w names x) {t t' : Thread} {o : Outcome}
    {bot' : Bot Handler World} (ht : t ∈ x.1.threads)
    (hfacts : StepFacts heard (.act t o) x.1.bot bot') (hnext : Succeeds (.act t o) t t')
    (srv : Nat) : t'.Knows heard w (HasCore bot'.reg)
      (nextLog x.2 (.act t o) x.1.bot.world bot'.world) srv := by
  obtain ⟨hopened, htalks⟩ := hnext srv
  refine ⟨fun hregisters => ?_, fun htalk hcore => ?_⟩
  · have hopens := hopened hregisters
    obtain ⟨p, hp⟩ := h.phases srv
    exact hp.opened hopens (hfacts.speech.silent_of_opens hopens srv)
  · have hcore := hfacts.core hcore
    rcases htalks htalk with hbefore | hregisters
    · have hopens : (LifeEvent.act t o).opens srv = false := by
        refine Bool.eq_false_iff.mpr fun hopens => ?_
        rw [(opens_act hopens).2.2] at hbefore
        cases hbefore
      have hat := (h.knows t ht srv (Thread.mem_of_talks hbefore)).registered hbefore hcore
      refine hat.chats hopens (hfacts.speech.chats fun hregisters => ?_)
      have hthread := (registers_act hregisters).2
      rw [Thread.registers_of_talks hbefore] at hthread
      cases hthread
    · have hthread := (registers_act hregisters).2
      exact h.register hfacts.speech hregisters (opens_of_registers hregisters srv) hcore
        ((h.knows t ht srv (Thread.mem_of_registers hthread)).opened hthread)

theorem Watched.next (h : Watched heard w names x)
    (hheard : ∀ srv line, e = .act (.recv srv) (.line line) → heard srv line ∧ Unbroken line)
    (hnext : Life.watch lib depth x e = some x') : Watched heard w names x' := by
  obtain ⟨s', hs', rfl⟩ := Option.map_eq_some_iff.mp hnext
  have hstep := step_bot hs'
  have hfacts := stepFacts hstep hheard h.inOrder h.furnished
  have hinOrder := inOrder_ofRun hheard hstep h.inOrder
  cases e with
  | tick seconds =>
      have hquiet : ∀ k p, At heard w x.2 k p →
          At heard w (nextLog x.2 (.tick seconds) x.1.bot.world s'.bot.world) k p :=
        fun k p hp => hp.quiet rfl (hfacts.speech.silent (fun _ he => (nomatch he)) nofun)
      refine ⟨fun k => hfacts.speech.told k (h.told k), h.inv.next hs', hfacts.furnished, hinOrder,
        fun k => ?_, ?_⟩
      · obtain ⟨p, hp⟩ := h.phases k
        exact ⟨p, hquiet k p hp⟩
      · cases hs'
        intro t ht k hk
        have hknows := h.knows t ht k hk
        exact ⟨fun hregisters => hquiet k _ (hknows.opened hregisters),
          fun htalks hcore => hquiet k _ (hknows.registered htalks hcore)⟩
  | act t o =>
      obtain ⟨ht, new, s₁, hthread, rfl⟩ := next_act hs'
      refine ⟨fun k => hfacts.speech.told k (h.told k), h.inv.next hs', hfacts.furnished, hinOrder,
        h.phase ht hfacts.speech, ?_⟩
      refine h.knows.replace h.inv.excl ht ?_ ?_
      · intro t' ht' k _
        exact h.knows_new ht hfacts (succeeds_steps (steps_of_step hthread) t' ht') k
      · intro t' k hk hknows
        exact ⟨fun hregisters => (hknows.opened hregisters).elsewhere hfacts.speech hk,
          fun htalks hcore => (hknows.registered htalks (hfacts.core hcore)).elsewhere
            hfacts.speech hk⟩

theorem Watched.boot {loads : List Load} {servers : List Nat} (hboots : Boots loads w servers)
    (hw : w.Fresh) : Watched heard w (loadPlugins loads initIndex).names
      (Life.boot loads w servers, fun _ => []) where
  told srv := by
    have hnone : w.said = [] := by rw [World.said, hw.sends, List.map_nil]
    show [] = Bcirc.told srv w
    rw [Bcirc.told, hnone]
    rfl
  inv := Life.Inv.boot hboots
  furnished := furnished_loadPlugins hboots.core
  inOrder := inOrder_boot hw
  phases _ := ⟨.closed, fun _ _ => .start⟩
  knows := by
    intro t ht k _
    cases servers with
    | nil => cases ht
    | cons srv rest =>
        obtain rfl := List.mem_singleton.mp ht
        constructor
        · intro hregisters
          cases hregisters
        · intro htalks
          cases htalks

end Run

/-- In any run, whatever the threads of the other servers do: what a server
is told is a conversation that starts over with each connection, and is
all that these threads send to it. -/
theorem run_conversations {lib : TitleLib} {depth : Nat} {loads : List Load} {w : World}
    {servers : List Nat} {events : List LifeEvent} {x : Life × (Nat → List Item)}
    (hboots : Boots loads w servers) (hw : w.Fresh) (hwire : FromWire events)
    (h : replay (Life.watch lib depth) (Life.boot loads w servers, fun _ => []) events = some x)
    {srv : Nat} {record : Server} (hrecord : w.servers[srv]? = some record) :
    (x.2 srv).filterMap Item.buf? = told srv x.1.bot.world ∧
      ∃ p, Conversation (heardIn events) srv record.names p (x.2 srv) := by
  have hend := replay_invariant
    (I := Watched (heardIn events) w (loadPlugins loads initIndex).names)
    (fun x e x' he hx hnext => hx.next (hwire.heard he) hnext) (Watched.boot hboots hw) h
  obtain ⟨p, hp⟩ := hend.phases srv
  exact ⟨hend.told srv, p, hp record hrecord⟩

/-- A server that asks for an answer, and closes the connection later. -/
def sampleTalk : List LifeEvent := samplePinged ++ sampleLoss ++ sampleRejoin

def sampleWatched : Life × (Nat → List Item) :=
  (replay (Life.watch sampleLib 3) (sampleStart, fun _ => []) sampleTalk).getD
    (sampleStart, fun _ => [])

theorem run_conversations_sample :
    (sampleWatched.2 0).filterMap Item.buf? = told 0 sampleWatched.1.bot.world ∧
      ∃ p, Conversation (heardIn sampleTalk) 0 sampleServer.names p (sampleWatched.2 0) := by
  have hboots : Boots sampleLoads sampleWorld [0] := by
    refine ⟨by decide, by decide, fun record hrecord => ?_⟩
    obtain rfl := List.mem_singleton.mp hrecord
    rfl
  have hwire : FromWire sampleTalk := by
    intro srv line hmem
    refine samplePinged_fromWire srv line ?_
    simpa [sampleTalk, sampleLoss, sampleRejoin] using hmem
  have hsome : (replay (Life.watch sampleLib 3) (sampleStart, fun _ => []) sampleTalk).isSome =
      true := by decide +kernel
  obtain ⟨x, hx⟩ := Option.isSome_iff_exists.mp hsome
  have hwatched : sampleWatched = x := by rw [sampleWatched, hx, Option.getD_some]
  rw [hwatched]
  exact run_conversations hboots sampleWorld_fresh hwire hx rfl

end Bcirc
