import Bcirc.Events
import Bcirc.NickPlugin
import Bcirc.NickRetry
import Bcirc.Transition

/-!
# Agreement on the nick

The bot and one server, joined by a channel of lines each way. The bot
registers, follows `!nick` commands and reacts to refusals; the server
adopts or refuses what it is asked for and otherwise says what it likes.

`nick` writes the new nick down before the server has answered, and a
refusal is answered by asking again. So the last request on its way is
always for the nick the bot has written down, and a refusal on its way
will be followed by another request (`Agree`): once neither is on its way
the two sides agree.
-/

namespace Bcirc

open CProg CStr Transition

/-! ## The bot -/

section Bot

/-- The callbacks that change the nick: core's of `got_numeric` and the nick
plugin's of `got_privmsg`. -/
def nickRaise (cbName : Str) (args : List Arg) : Prog (Bot Unit World) Int :=
  if cbName = callbackGotNumeric then handleNick idleRaise args
  else if cbName = callbackGotPrivmsg then NickPlugin.handleNick idleRaise args
  else pure bcircPluginOk

/-- The two callbacks of `server_recv` that raise these events. -/
def receiveLine (srv : Nat) (line : Str) : Prog (Bot Unit World) Unit := do
  let _ ← getPrivmsg nickRaise [.server srv, .str line]
  let _ ← getNumeric nickRaise [.server srv, .str line]

end Bot

/-! ## The network -/

structure Net where
  world : World
  registered : Bool
  toServer : List Str
  toBot : List Str
  serverNick : Option Str

/-- A numeric that core's `handle_nick` reacts to. -/
def IsRefusal (line : Str) : Prop := ∃ numeric ∈ nickNumerics, numericOf line = some numeric

/-- What the sockets took between two states of the bot. -/
def taken (w w' : World) : List Str :=
  (w'.sends.drop w.sends.length).map fun call => call.buf.take call.res.toNat

inductive Net.Step (srv : Nat) : Net → Net → Prop where
  | register {net : Net} {bot' : Bot Unit World} {code : Int}
      (hfirst : net.registered = false)
      (hrun : handleRegisteration idleRaise [.server srv] ⟨initIndex, net.world⟩ =
        .ok code bot') :
      Net.Step srv net { net with
        world := bot'.world, registered := true,
        toServer := net.toServer ++ taken net.world bot'.world }
  | adopt {net : Net} {line newNick : Str} {rest : List Str}
      (hline : net.toServer = line :: rest) (hrequest : nickRequest? line = some newNick) :
      Net.Step srv net { net with toServer := rest, serverNick := some newNick }
  | refuse {net : Net} {line newNick answer : Str} {rest : List Str}
      (hline : net.toServer = line :: rest) (hrequest : nickRequest? line = some newNick)
      (hanswer : IsRefusal answer) :
      Net.Step srv net { net with toServer := rest, toBot := net.toBot ++ [answer] }
  | skip {net : Net} {line : Str} {rest : List Str}
      (hline : net.toServer = line :: rest) (hrequest : nickRequest? line = none) :
      Net.Step srv net { net with toServer := rest }
  | say {net : Net} {message : Str} (hmessage : ¬ IsRefusal message) :
      Net.Step srv net { net with toBot := net.toBot ++ [message] }
  | receive {net : Net} {bot' : Bot Unit World} {line : Str} {rest : List Str}
      (hregistered : net.registered = true) (hline : net.toBot = line :: rest)
      (hrun : receiveLine srv line ⟨initIndex, net.world⟩ = .ok () bot') :
      Net.Step srv net { net with
        world := bot'.world, toBot := rest,
        toServer := net.toServer ++ taken net.world bot'.world }

/-- Before registration: both channels are empty and the sockets take
whatever they are given. -/
structure Net.Initial (srv : Nat) (net : Net) : Prop where
  known : ∃ nick altNick, HasNicks srv nick altNick net.world
  sendResults : net.world.sendResults = []
  registered : net.registered = false
  toServer : net.toServer = []
  toBot : net.toBot = []

def Net.Reachable (srv : Nat) (net : Net) : Prop :=
  Reach (Net.Initial srv) (Net.Step srv) net

/-! ## Runs of the bot -/

variable {φ : Type}

/-- A run of `m` asks for nicks, the last of which is the one written down;
if it asks for none, the nick stays. -/
def Asks {α : Type} (srv : Nat) (m : Prog (Bot φ World) α) : Prop :=
  ∀ (bot bot' : Bot φ World) (a : α) (nick altNick : Str), HasNicks srv nick altNick bot.world →
    m bot = .ok a bot' → ∃ nicks, Requested srv nicks bot.world bot'.world ∧
      HasNicks srv (nicks.getLastD nick) altNick bot'.world

section Asks

variable {α β : Type} {srv : Nat}

theorem Asks.pure (a : α) : Asks srv (pure a : Prog (Bot φ World) α) := by
  intro bot bot' b nick altNick h hrun
  cases hrun
  exact ⟨[], Requested.refl srv bot.world, h⟩

theorem Asks.throw (e : Fault) : Asks srv (throw e : Prog (Bot φ World) α) := by
  intro bot bot' b nick altNick h hrun
  cases hrun

theorem getLastD_append (l₁ l₂ : List Str) (nick : Str) :
    (l₁ ++ l₂).getLastD nick = l₂.getLastD (l₁.getLastD nick) := by
  cases l₂ with
  | nil => simp
  | cons x l₂ => simp [List.getLastD_eq_getLast?, List.getLast?_append]

theorem Asks.bind {m : Prog (Bot φ World) α} {f : α → Prog (Bot φ World) β}
    (hm : Asks srv m) (hf : ∀ a, Asks srv (f a)) : Asks srv (m >>= f) := by
  intro bot bot'' b nick altNick h hrun
  obtain ⟨a, bot', hfirst, hrest⟩ := of_bind_ok hrun
  obtain ⟨nicks₁, hreq₁, h₁⟩ := hm bot bot' a nick altNick h hfirst
  obtain ⟨nicks₂, hreq₂, h₂⟩ := hf a bot' bot'' b _ altNick h₁ hrest
  refine ⟨nicks₁ ++ nicks₂, hreq₁.trans hreq₂, ?_⟩
  rwa [getLastD_append]

theorem Asks.nick {raise : Str → List Arg → Prog (Bot φ World) Int} (hraise : KeepsWorld raise)
    (newNick : Str) : Asks srv (nick raise newNick srv) := by
  intro bot bot' code nick altNick h hrun
  obtain ⟨record, hsrv, -, -⟩ := id h
  obtain ⟨_, reg, hok⟩ := nick_ok raise hraise newNick hsrv
  rw [hok] at hrun
  cases hrun
  exact ⟨[newNick], afterNick_requested srv newNick bot.world, h.afterNick newNick⟩

end Asks

section Reactions

variable {srv : Nat}

theorem nickPlugin_asks (nick hostmask target : Arg) (msg : Str) :
    Asks srv (NickPlugin.handleNick (φ := φ) idleRaise
      [.server srv, nick, hostmask, target, .str msg]) := by
  rw [NickPlugin.handleNick_message]
  split
  · exact Asks.pure _
  split
  · exact Asks.throw _
  split
  · exact Asks.pure _
  split
  · split
    · exact Asks.pure _
    · exact (Asks.nick keepsWorld_idleRaise _).bind fun _ => Asks.pure _
  · exact Asks.pure _

theorem handleNick_other {numeric : Int} (h : numeric ∉ nickNumerics) (line : Str) :
    handleNick (φ := φ) idleRaise [.server srv, .int numeric, .str line] =
      pure bcircPluginOk := by
  show (if numeric ∉ nickNumerics then (pure bcircPluginOk : Prog (Bot φ World) Int)
    else _) = _
  rw [if_pos h]

theorem handleNick_asks (numeric : Int) (line : Str) :
    Asks srv (handleNick (φ := φ) idleRaise [.server srv, .int numeric, .str line]) := by
  by_cases h : numeric ∈ nickNumerics
  · intro bot bot' code nick altNick hnicks hrun
    obtain ⟨reg, hok⟩ := handleNick_ok keepsWorld_idleRaise hnicks h line
    rw [hok] at hrun
    cases hrun
    exact ⟨[nextNick nick altNick], afterNick_requested _ _ _, hnicks.afterNick _⟩
  · rw [handleNick_other h]
    exact Asks.pure _

theorem getPrivmsg_asks (line : Str) :
    Asks srv (getPrivmsg nickRaise [.server srv, .str line]) := by
  rw [getPrivmsg_str]
  cases strstr line (ascii "PRIVMSG") with
  | none => exact Asks.pure _
  | some i =>
      cases parsePrivmsg line with
      | ret code => exact Asks.pure _
      | message nick hostmask target save =>
          exact (nickPlugin_asks _ _ _ save.tail).bind fun _ => Asks.pure _

theorem getNumeric_asks (line : Str) :
    Asks srv (getNumeric nickRaise [.server srv, .str line]) := by
  rw [getNumeric_str]
  cases numericOf line with
  | none => exact Asks.pure _
  | some numeric => exact (handleNick_asks numeric line).bind fun _ => Asks.pure _

theorem receiveLine_asks (line : Str) : Asks srv (receiveLine srv line) :=
  (getPrivmsg_asks line).bind fun _ => (getNumeric_asks line).bind fun _ => Asks.pure _

/-- A refusal is answered by a request. -/
theorem receiveLine_refusal {line : Str} (hline : IsRefusal line) {bot bot' : Bot Unit World}
    {nick altNick : Str} (h : HasNicks srv nick altNick bot.world)
    (hrun : receiveLine srv line bot = .ok () bot') :
    ∃ nicks, nicks ≠ [] ∧ Requested srv nicks bot.world bot'.world ∧
      HasNicks srv (nicks.getLastD nick) altNick bot'.world := by
  obtain ⟨numeric, hmem, hnumeric⟩ := hline
  obtain ⟨_, bot₁, hprivmsg, hrun⟩ := of_bind_ok hrun
  obtain ⟨nicks, hreq, h₁⟩ := getPrivmsg_asks line bot bot₁ _ nick altNick h hprivmsg
  obtain ⟨reg, hok⟩ := handleNick_ok keepsWorld_idleRaise h₁ hmem line
  have hnum : getNumeric nickRaise [.server srv, .str line] bot₁ = .ok bcircPluginOk
      ⟨reg, afterNick srv (nextNick (nicks.getLastD nick) altNick) bot₁.world⟩ := by
    rw [getNumeric_str, hnumeric]
    exact bind_ok hok
  obtain ⟨_, bot₂, hsecond, hrun⟩ := of_bind_ok hrun
  rw [hnum] at hsecond
  cases hsecond
  cases hrun
  refine ⟨nicks ++ [nextNick (nicks.getLastD nick) altNick], by simp,
    hreq.trans (afterNick_requested _ _ _), ?_⟩
  rw [getLastD_append]
  exact h₁.afterNick _

end Reactions

/-! ## Agreement -/

/-- The nicks asked for by lines on their way. -/
def requests (lines : List Str) : List Str := lines.filterMap nickRequest?

theorem Requested.taken {srv : Nat} {nicks : List Str} {w w' : World}
    (h : Requested srv nicks w w') (hresults : w.sendResults = []) :
    requests (taken w w') = nicks ∧ w'.sendResults = [] := by
  obtain ⟨calls, hsends, rfl, hwhole⟩ := h
  obtain ⟨hresults', hcalls⟩ := hwhole hresults
  refine ⟨?_, hresults'⟩
  unfold requests Bcirc.taken requestedNicks
  rw [hsends, List.drop_left, List.filterMap_map]
  refine List.filterMap_congr fun call hcall => ?_
  obtain ⟨hsrv, hres⟩ := hcalls call hcall
  simp [hsrv, hres]

structure Net.Agree (srv : Nat) (net : Net) (nick altNick : Str) : Prop where
  nicks : HasNicks srv nick altNick net.world
  sendResults : net.world.sendResults = []
  last : net.registered = true → ∀ r, (requests net.toServer).getLast? = some r → r = nick
  settled : net.registered = true → requests net.toServer = [] →
    (∀ line ∈ net.toBot, ¬ IsRefusal line) → net.serverNick = some nick

/-- A run of the bot that asked for `nicks`. -/
theorem Net.Agree.after {srv : Nat} {net : Net} {nick altNick : Str}
    (h : net.Agree srv nick altNick) {w' : World} {nicks : List Str} {toBot : List Str}
    (hreq : Requested srv nicks net.world w')
    (hnicks : HasNicks srv (nicks.getLastD nick) altNick w')
    (hidle : nicks = [] → net.registered = true ∧
      ((∀ line ∈ toBot, ¬ IsRefusal line) → ∀ line ∈ net.toBot, ¬ IsRefusal line)) :
    Net.Agree srv { net with
      world := w', registered := true, toBot,
      toServer := net.toServer ++ taken net.world w' } (nicks.getLastD nick) altNick := by
  obtain ⟨htaken, hresults⟩ := hreq.taken h.sendResults
  have hrequests : requests (net.toServer ++ taken net.world w') =
      requests net.toServer ++ nicks := by
    rw [← htaken]
    exact List.filterMap_append
  refine ⟨hnicks, hresults, fun _ r hr => ?_, fun _ hnone hquiet => ?_⟩
  · simp only [hrequests] at hr
    cases nicks with
    | nil =>
        rw [List.append_nil] at hr
        exact h.last (hidle rfl).1 r hr
    | cons x nicks =>
        rw [List.getLast?_append_of_ne_nil _ (List.cons_ne_nil x nicks)] at hr
        rw [List.getLastD_eq_getLast?, hr, Option.getD_some]
  · simp only [hrequests] at hnone
    obtain ⟨hempty, rfl⟩ := List.append_eq_nil_iff.mp hnone
    obtain ⟨hregistered, hkeep⟩ := hidle rfl
    exact h.settled hregistered hempty (hkeep hquiet)

theorem requests_cons {line newNick : Str} (rest : List Str)
    (h : nickRequest? line = some newNick) :
    requests (line :: rest) = newNick :: requests rest := by
  unfold requests
  rw [List.filterMap_cons_some h]

/-- The request at the head has been read. -/
theorem Net.Agree.last_of_cons {srv : Nat} {net : Net} {nick altNick line newNick : Str}
    {rest : List Str} (h : net.Agree srv nick altNick) (hline : net.toServer = line :: rest)
    (hrequest : nickRequest? line = some newNick) (hregistered : net.registered = true) :
    (∀ r, (requests rest).getLast? = some r → r = nick) ∧
      (requests rest = [] → newNick = nick) := by
  have hlast := h.last hregistered
  rw [hline, requests_cons rest hrequest] at hlast
  constructor
  · intro r hr
    refine hlast r ?_
    rw [List.getLast?_cons, hr]
    rfl
  · intro hnone
    refine hlast newNick ?_
    rw [hnone]
    rfl

theorem Net.Step.agree {srv : Nat} {net net' : Net} (hstep : Net.Step srv net net')
    {nick altNick : Str} (h : net.Agree srv nick altNick) :
    ∃ nick' altNick', net'.Agree srv nick' altNick' := by
  cases hstep with
  | register hfirst hrun =>
      obtain ⟨hnicks, hreq⟩ := handleRegisteration_ok keepsWorld_idleRaise h.nicks hrun
      exact ⟨_, altNick, h.after hreq hnicks fun hnil => by cases hnil⟩
  | @adopt line newNick rest hline hrequest =>
      refine ⟨nick, altNick, h.nicks, h.sendResults, ?_, ?_⟩
      · intro hreg
        exact (h.last_of_cons hline hrequest hreg).1
      · intro hreg hnone _
        rw [(h.last_of_cons hline hrequest hreg).2 hnone]
  | @refuse line newNick answer rest hline hrequest hanswer =>
      refine ⟨nick, altNick, h.nicks, h.sendResults, ?_, ?_⟩
      · intro hreg
        exact (h.last_of_cons hline hrequest hreg).1
      · intro _ _ hquiet
        exact absurd hanswer (hquiet answer (by simp))
  | @skip line rest hline hrequest =>
      have hsame : requests net.toServer = requests rest := by
        rw [hline, requests, List.filterMap_cons_none hrequest]
        rfl
      refine ⟨nick, altNick, h.nicks, h.sendResults, ?_, ?_⟩
      · intro hreg r hr
        exact h.last hreg r (by rw [hsame]; exact hr)
      · intro hreg hnone hquiet
        exact h.settled hreg (by rw [hsame]; exact hnone) hquiet
  | say hmessage =>
      refine ⟨nick, altNick, h.nicks, h.sendResults, h.last, ?_⟩
      intro hreg hnone hquiet
      exact h.settled hreg hnone fun line hline => hquiet line (by simp [hline])
  | @receive bot' line rest hregistered hline hrun =>
      obtain ⟨w, registered, toServer, toBot, serverNick⟩ := net
      obtain rfl : registered = true := hregistered
      by_cases hrefusal : IsRefusal line
      · obtain ⟨nicks, hne, hreq, hnicks⟩ := receiveLine_refusal hrefusal h.nicks hrun
        exact ⟨_, altNick, h.after hreq hnicks fun hnil => absurd hnil hne⟩
      · obtain ⟨nicks, hreq, hnicks⟩ := receiveLine_asks line _ _ _ _ _ h.nicks hrun
        refine ⟨_, altNick, h.after hreq hnicks fun _ => ⟨rfl, ?_⟩⟩
        intro hquiet l hl
        rw [hline] at hl
        rcases List.mem_cons.mp hl with rfl | hl
        · exact hrefusal
        · exact hquiet l hl

theorem Net.Initial.agree {srv : Nat} {net : Net} (h : net.Initial srv) :
    ∃ nick altNick, net.Agree srv nick altNick := by
  obtain ⟨nick, altNick, hnicks⟩ := h.known
  refine ⟨nick, altNick, hnicks, h.sendResults, ?_, ?_⟩
  · intro hregistered
    rw [h.registered] at hregistered
    cases hregistered
  · intro hregistered
    rw [h.registered] at hregistered
    cases hregistered

theorem Net.Reachable.agree {srv : Nat} {net : Net} (h : Net.Reachable srv net) :
    ∃ nick altNick, net.Agree srv nick altNick := by
  refine Reach.invariant (I := fun net => ∃ nick altNick, net.Agree srv nick altNick) ?_ ?_ h
  · intro net hinit
    exact hinit.agree
  · rintro net net' ⟨nick, altNick, hagree⟩ hstep
    exact hstep.agree hagree

/-- Once the bot has registered, the nick it has written down is the one
the server holds whenever no request and no refusal is on its way. -/
theorem Net.Reachable.nick_agreed {srv : Nat} {net : Net} (h : Net.Reachable srv net)
    (hregistered : net.registered = true)
    (hrequests : ∀ line ∈ net.toServer, nickRequest? line = none)
    (hrefusals : ∀ line ∈ net.toBot, ¬ IsRefusal line) :
    ∃ record, net.world.servers[srv]? = some record ∧ net.serverNick = some record.nick := by
  obtain ⟨nick, altNick, hagree⟩ := h.agree
  obtain ⟨record, hsrv, rfl, -⟩ := hagree.nicks
  refine ⟨record, hsrv, hagree.settled hregistered ?_ hrefusals⟩
  exact List.filterMap_eq_nil_iff.mpr hrequests

/-- The sample bot after it has registered. -/
def sampleRegistered : World :=
  (endState (handleRegisteration idleRaise [.server 0]
    (⟨initIndex, sampleWorld⟩ : Bot Unit World))).world

def sampleRefusal : Str := ascii ":irc 433 * bot :Nickname is already in use."

/-- The bot after it has been told that its nick is in use. -/
def sampleRefused : World :=
  (endState (receiveLine 0 sampleRefusal ⟨initIndex, sampleRegistered⟩)).world

/-- The server refuses `bot`, is asked for the next nick and adopts it. -/
theorem Net.Reachable.nick_agreed_sample :
    ∃ record, sampleRefused.servers[0]? = some record ∧
      some (ascii "alt") = some record.nick := by
  have hinit : Net.Reachable 0 ⟨sampleWorld, false, [], [], none⟩ :=
    .init ⟨⟨ascii "bot", ascii "alt", sampleServer, rfl, rfl, rfl⟩, rfl, rfl, rfl, rfl⟩
  obtain ⟨code, hrun⟩ := eq_ok_of_returned (r := handleRegisteration idleRaise [.server 0]
    (⟨initIndex, sampleWorld⟩ : Bot Unit World)) (by decide +kernel)
  have hlines : taken sampleWorld sampleRegistered =
      [ascii "PASS asd\r\n", ascii "USER bot 8 * :bot\r\n", ascii "NICK bot\r\n"] := by
    decide +kernel
  have hregistered := hinit.step (.register rfl hrun)
  have hpass := hregistered.step (.skip hlines rfl)
  have huser := hpass.step (.skip rfl rfl)
  have hrefusal : IsRefusal sampleRefusal := ⟨433, by decide, by decide +kernel⟩
  have hrefused := huser.step (.refuse rfl (nickRequest?_nickLine (ascii "bot")) hrefusal)
  obtain ⟨_, hanswer⟩ := eq_ok_of_returned
    (r := receiveLine 0 sampleRefusal ⟨initIndex, sampleRegistered⟩) (by decide +kernel)
  have hasked := hrefused.step (.receive rfl rfl hanswer)
  have hnext : taken sampleRegistered sampleRefused = [nickLine (ascii "alt")] := by
    decide +kernel
  have hadopted := hasked.step (.adopt hnext (nickRequest?_nickLine (ascii "alt")))
  exact Net.Reachable.nick_agreed hadopted rfl (fun _ hline => nomatch hline)
    fun _ hline => nomatch hline

end Bcirc
