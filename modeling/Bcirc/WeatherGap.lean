import Bcirc.SharedStrings

/-!
# The requests of the weather plugin in time (`plugins/src/weather/weather.c`)

`on_privmsg` means to leave more than `WAIT_FETCH_TIME` seconds between two
requests and to tell how many of them remain. It compares the time with
`last_call`, which it never sets: from the eighth second of 1970 on every
command starts a request, and before the fifth one the comparison of the
language writes to a literal.

A command comes with the time and with the answer `curl_easy_init` has for
it. A request has been started when that answer was taken and was good.
-/

namespace Bcirc

open CProg CStr

variable {ν : Type}

/-! ## Commands and what becomes of them -/

structure WeatherCommand where
  now : Nat
  srv : Nat
  nick : Str
  hostmask : Str
  target : Str
  msg : Str
  curlOk : Bool
  inTime : now < 0x10000000000000000
  isCommand : commandLang msg ≠ none

def WeatherCommand.args (c : WeatherCommand) : List PrivmsgArg :=
  [.value (.server c.srv), .nick, .hostmask, .target, .msg]

/-- The process when `get_privmsg` has parsed the message. -/
def WeatherCommand.arrive (c : WeatherCommand) (bot : Bot (PrivmsgFunc ν) (Privmsg ν)) :
    Bot (PrivmsgFunc ν) (Privmsg ν) :=
  { bot with world := { bot.world with
    strings := ⟨some c.nick, some c.hostmask, some c.target, c.msg⟩
    world := { bot.world.world with clock := c.now, curlInits := [c.curlOk] } } }

/-- What a command has led to: a request, messages in the queue. -/
structure WeatherTurn where
  now : Nat
  target : Str
  srv : Nat
  requested : Bool
  queued : List (Str × Str × Nat)
  deriving DecidableEq, Repr

def WeatherCommand.turn (c : WeatherCommand) (before after : World) : WeatherTurn where
  now := c.now
  target := c.target
  srv := c.srv
  requested := c.curlOk && after.curlInits == []
  queued := after.privmsgQueue.drop before.privmsgQueue.length

/-- One command after the other. A fault ends the process. -/
def weatherRun (env : PrivmsgEnv ν) :
    List WeatherCommand → Bot (PrivmsgFunc ν) (Privmsg ν) → List WeatherTurn
  | [], _ => []
  | c :: cs, bot =>
      let r := weatherOnPrivmsg env c.args (c.arrive bot)
      c.turn bot.world.world (endState r).world.world ::
        if returned r then weatherRun env cs (endState r) else []

/-! ## What the plugin is to do -/

/-- `MSG_WAIT_FI` and `MSG_WAIT_EN`. -/
def waitMsgs (remaining : Nat) : List Str :=
  [ascii "Viel" ++ umlautA ++ ascii " " ++ ascii (toString remaining) ++
      ascii " sekunttia jotta s" ++ umlautA ++ umlautA ++ ascii "tietoja voidaan hakea.",
    ascii "Yet " ++ ascii (toString remaining) ++
      ascii " seconds till wetaher data can be fetched."]

/-- The only message is the time that remains after the request `a`. -/
def WeatherTurn.Announces (a b : WeatherTurn) : Prop :=
  ∃ remaining, 1 ≤ remaining ∧ remaining ≤ 7 ∧ remaining + b.now = a.now + 7 ∧
    ∃ msg ∈ waitMsgs remaining, b.queued = [(msg, b.target, b.srv)]

structure KeepsGap (turns : List WeatherTurn) : Prop where
  apart : turns.Pairwise fun a b => a.requested → b.requested → a.now + 7 < b.now
  announced : ∀ pre a mid b post, turns = pre ++ a :: (mid ++ b :: post) →
    a.requested → (∀ m ∈ mid, m.requested = false) → b.now ≤ a.now + 4 → a.Announces b

/-! ## One command -/

/-- The request that a command starts. -/
def WeatherCommand.starts (c : WeatherCommand) : Bool := c.curlOk && 7 < c.now

/-- The turn has the time of the command and its request; nothing is queued
without one. -/
structure WeatherCommand.LeadsTo (c : WeatherCommand) (turn : WeatherTurn) : Prop where
  now : turn.now = c.now
  requested : turn.requested = c.starts
  silent : turn.requested = false → turn.queued = []

section Turn

variable (env : PrivmsgEnv ν) (c : WeatherCommand) (bot : Bot (PrivmsgFunc ν) (Privmsg ν))

theorem WeatherCommand.callNow_eq : callNow c.now = c.now :=
  Int.emod_eq_of_lt (Int.natCast_nonneg _) (by have hlt := c.inTime; omega)

theorem queueMessages (msgs : List Str) (target : Str) (srv : Nat) (w : World) :
    (do for msg in msgs do addToPrivmsgQueue msg target srv : Prog World Unit) w =
      .ok () { w with privmsgQueue := w.privmsgQueue ++ msgs.map (·, target, srv) } := by
  induction msgs generalizing w with
  | nil => simp
  | cons msg msgs ih =>
      have hfirst : addToPrivmsgQueue msg target srv w =
          .ok () { w with privmsgQueue := w.privmsgQueue ++ [(msg, target, srv)] } := rfl
      simp only [List.forIn_cons, bind_assoc, pure_bind]
      rw [bind_ok hfirst]
      refine (ih _).trans ?_
      simp

/-- What `on_privmsg` does with a command, by the time. -/
theorem weatherOnPrivmsg_command : ∃ lang, commandLang c.msg = some lang ∧
    weatherOnPrivmsg env c.args (c.arrive bot) =
      (if (c.now : Int) ≤ waitFetchTime then
        if (c.now : Int) ≤ timeAnnounceTime then throw .outOfBounds else pure bcircPluginOk
      else do
        modify fun bot => { bot with world := { bot.world with
          strings := bot.world.strings.write (strtokRCut isSpace c.msg) .msg } }
        onRest (onWorld (askWeather env (strtokR isSpace c.msg).2
          [.server c.srv, .str c.nick, .str c.hostmask, .str c.target,
            .str (strtokRCut isSpace c.msg)] lang)) :
        Prog (Bot (PrivmsgFunc ν) (Privmsg ν)) Int) (c.arrive bot) := by
  obtain ⟨lang, hlang⟩ := Option.ne_none_iff_exists'.mp c.isCommand
  refine ⟨lang, hlang, ?_⟩
  have hnow : callNow (c.arrive bot).world.world.clock = c.now := c.callNow_eq
  have hparam : (c.args.map (PrivmsgArg.toArg (c.arrive bot).world.strings))[4]? =
      some (.str c.msg) := rfl
  have hmsg : c.args[4]? = some .msg := rfl
  unfold weatherOnPrivmsg
  simp only [get_bind_run, param, hparam, hmsg, orFault_some, pure_bind, Arg.toStr, deref, hlang,
    hnow]
  rfl

theorem weatherHttpRequest_run (url lang nick hostmask target msg : Str) (srv : Nat)
    (ok : Bool) {w : World} (hinit : w.curlInits = [ok]) :
    weatherHttpRequest env url [.server srv, .str nick, .str hostmask, .str target, .str msg]
        lang w =
      .ok () { w with
        curlInits := []
        privmsgQueue := w.privmsgQueue ++
          if ok then (env.weather url lang).map (·, target, srv) else [] } := by
  have hcurl : curlInit w = .ok ok { w with curlInits := [] } := by
    show EStateM.Result.ok (w.curlInits.headD true) { w with curlInits := w.curlInits.tail } = _
    rw [hinit]
    rfl
  unfold weatherHttpRequest
  rw [bind_ok hcurl]
  cases ok with
  | false =>
      show EStateM.Result.ok () { w with curlInits := [] } = _
      rw [if_neg Bool.false_ne_true, List.append_nil]
  | true => exact queueMessages (env.weather url lang) target srv { w with curlInits := [] }

theorem askWeather_run (city lang nick hostmask target msg : Str) (srv : Nat) (ok : Bool)
    {w : World} (hinit : w.curlInits = [ok]) :
    ∃ msgs, askWeather env city [.server srv, .str nick, .str hostmask, .str target, .str msg]
        lang w =
      .ok bcircPluginOk { w with
        curlInits := [], privmsgQueue := w.privmsgQueue ++ if ok then msgs else [] } :=
  ⟨_, bind_ok (weatherHttpRequest_run env _ lang nick hostmask target msg srv ok hinit)⟩

theorem onRest_ok {φ α : Type} {m : Prog (Bot φ World) α} {bot : Bot φ (Privmsg ν)} {a : α}
    {rest : Bot φ World} (h : m ⟨bot.reg, bot.world.world⟩ = .ok a rest) :
    onRest m bot = .ok a ⟨rest.reg, { bot.world with world := rest.world }⟩ := by
  unfold onRest
  rw [h]

/-- A command that comes late enough starts a request if curl lets it. -/
theorem weatherOnPrivmsg_late (hlate : 7 < c.now) : ∃ bot' msgs,
    weatherOnPrivmsg env c.args (c.arrive bot) = .ok bcircPluginOk bot' ∧
      bot'.world.world.curlInits = [] ∧
      bot'.world.world.privmsgQueue =
        bot.world.world.privmsgQueue ++ if c.curlOk then msgs else [] := by
  obtain ⟨lang, -, hrun⟩ := weatherOnPrivmsg_command env c bot
  have hwait : ¬ (c.now : Int) ≤ waitFetchTime := by
    unfold waitFetchTime
    omega
  obtain ⟨msgs, hask⟩ := askWeather_run env (strtokR isSpace c.msg).2 lang c.nick c.hostmask
    c.target (strtokRCut isSpace c.msg) c.srv c.curlOk (w := (c.arrive bot).world.world) rfl
  rw [hrun, if_neg hwait, modify_bind_run]
  exact ⟨_, msgs, onRest_ok (onWorld_ok hask), rfl, rfl⟩

/-- A command before the fifth second ends the process. -/
theorem WeatherCommand.leadsTo :
    let r := weatherOnPrivmsg env c.args (c.arrive bot)
    (returned r ↔ 4 < c.now) ∧
      c.LeadsTo (c.turn bot.world.world (endState r).world.world) := by
  obtain ⟨lang, -, hrun⟩ := weatherOnPrivmsg_command env c bot
  by_cases hlate : 7 < c.now
  · obtain ⟨bot', msgs, hok, hinits, hqueue⟩ := weatherOnPrivmsg_late env c bot hlate
    have hqueued : (c.turn bot.world.world bot'.world.world).queued =
        if c.curlOk then msgs else [] := by
      rw [WeatherCommand.turn, hqueue, List.drop_left]
    have hrequested : (c.turn bot.world.world bot'.world.world).requested = c.curlOk := by
      rw [WeatherCommand.turn, hinits]
      exact Bool.and_true _
    rw [hok]
    refine ⟨iff_of_true rfl (by omega), rfl, ?_, fun hnone => ?_⟩
    · rw [endState_ok, hrequested]
      simp [WeatherCommand.starts, hlate]
    · rw [endState_ok] at hnone ⊢
      rw [hqueued, ← hrequested, hnone]
      rfl
  · have hstays : c.LeadsTo (c.turn bot.world.world (c.arrive bot).world.world) := by
      have hinits : ([c.curlOk] == ([] : List Bool)) = false := rfl
      refine ⟨rfl, ?_, fun _ => ?_⟩
      · simp [WeatherCommand.turn, WeatherCommand.arrive, WeatherCommand.starts, hinits, hlate]
      · simp [WeatherCommand.turn, WeatherCommand.arrive]
    have hwait : (c.now : Int) ≤ waitFetchTime := by
      unfold waitFetchTime
      omega
    rw [if_pos hwait] at hrun
    by_cases hsoon : (c.now : Int) ≤ timeAnnounceTime
    · -- the literal is written to
      rw [if_pos hsoon] at hrun
      unfold timeAnnounceTime at hsoon
      rw [hrun]
      exact ⟨iff_of_false Bool.false_ne_true (by omega), hstays⟩
    · rw [if_neg hsoon] at hrun
      unfold timeAnnounceTime at hsoon
      rw [hrun]
      exact ⟨iff_of_true rfl (by omega), hstays⟩

end Turn

/-! ## A run -/

/-- Past the fourth second the process lives, and the turns are those of the
commands. -/
theorem weatherRun_leadsTo (env : PrivmsgEnv ν) {cs : List WeatherCommand}
    (hcs : ∀ c ∈ cs, 4 < c.now) (bot : Bot (PrivmsgFunc ν) (Privmsg ν)) :
    List.Forall₂ WeatherCommand.LeadsTo cs (weatherRun env cs bot) := by
  induction cs generalizing bot with
  | nil => exact List.Forall₂.nil
  | cons c cs ih =>
      obtain ⟨hc, hrest⟩ := List.forall_mem_cons.mp hcs
      obtain ⟨hreturned, hturn⟩ := c.leadsTo env bot
      rw [weatherRun, if_pos (hreturned.mpr hc)]
      exact List.Forall₂.cons hturn (ih hrest _)

/-- A process that dies of its first command has one turn. -/
theorem weatherRun_early (env : PrivmsgEnv ν) {c : WeatherCommand} (hc : c.now ≤ 4)
    (cs : List WeatherCommand) (bot : Bot (PrivmsgFunc ν) (Privmsg ν)) :
    ∃ turn, weatherRun env (c :: cs) bot = [turn] := by
  have hdies : ¬ returned (weatherOnPrivmsg env c.args (c.arrive bot)) := by
    rw [(c.leadsTo env bot).1]
    omega
  exact ⟨_, by rw [weatherRun, if_neg hdies]⟩

/-! ## The gap -/

theorem pairwise_iff_split {α : Type} {R : α → α → Prop} {l : List α} :
    l.Pairwise R ↔ ∀ pre a mid b post, l = pre ++ a :: (mid ++ b :: post) → R a b := by
  constructor
  · rintro h pre a mid b post rfl
    have htail := (List.pairwise_append.mp h).2.1
    exact (List.pairwise_cons.mp htail).1 b (by simp)
  · intro h
    induction l with
    | nil => exact List.Pairwise.nil
    | cons a l ih =>
        refine List.pairwise_cons.mpr ⟨fun b hb => ?_, ih fun pre x mid y post heq => ?_⟩
        · obtain ⟨mid, post, rfl⟩ := List.append_of_mem hb
          exact h [] a mid b post rfl
        · exact h (a :: pre) x mid y post (by rw [heq]; rfl)

/-- The last element of a kind. -/
theorem exists_last {α : Type} {p : α → Bool} {l : List α} (h : ∃ x ∈ l, p x) :
    ∃ pre a post, l = pre ++ a :: post ∧ p a ∧ ∀ m ∈ post, p m = false := by
  induction l with
  | nil =>
      obtain ⟨x, hx, -⟩ := h
      cases hx
  | cons x l ih =>
      by_cases hl : ∃ y ∈ l, p y
      · obtain ⟨pre, a, post, rfl, ha, hpost⟩ := ih hl
        exact ⟨x :: pre, a, post, rfl, ha, hpost⟩
      · have hnone : ∀ m ∈ l, p m = false := fun m hm =>
          Bool.eq_false_iff.mpr fun hp => hl ⟨m, hm, hp⟩
        obtain ⟨y, hy, hp⟩ := h
        rcases List.mem_cons.mp hy with rfl | hy
        · exact ⟨[], y, l, rfl, hp, hnone⟩
        · exact absurd ⟨y, hy, hp⟩ hl

/-- After a request the next one comes late, and no command comes soon. -/
def Gap (a b : Nat × Bool) : Prop := a.2 → a.1 + 4 < b.1 ∧ (b.2 → a.1 + 7 < b.1)

/-- The time of a command, and whether it starts a request. -/
def WeatherCommand.moment (c : WeatherCommand) : Nat × Bool := (c.now, c.starts)

def WeatherTurn.moment (turn : WeatherTurn) : Nat × Bool := (turn.now, turn.requested)

def WellSpaced (cs : List WeatherCommand) : Prop :=
  (cs.map WeatherCommand.moment).Pairwise Gap

/-- Nothing is announced, so there must be nothing to announce. -/
theorem keepsGap_iff_pairwise {turns : List WeatherTurn}
    (hsorted : turns.Pairwise fun a b => a.now ≤ b.now)
    (hsilent : ∀ t ∈ turns, t.requested = false → t.queued = []) :
    KeepsGap turns ↔ turns.Pairwise fun a b => Gap a.moment b.moment := by
  constructor
  · intro h
    refine pairwise_iff_split.mpr fun pre a mid b post hsplit ha => ?_
    refine ⟨?_, pairwise_iff_split.mp h.apart pre a mid b post hsplit ha⟩
    by_contra hsoon
    obtain ⟨pre', a', mid', hlast, ha', hmid⟩ :=
      exists_last (p := WeatherTurn.requested) (l := a :: mid) ⟨a, List.mem_cons_self, ha⟩
    have hsplit' : turns = (pre ++ pre') ++ a' :: (mid' ++ b :: post) := by
      rw [hsplit, ← List.cons_append, hlast]
      simp
    have hle : a.now ≤ a'.now := by
      cases pre' with
      | nil =>
          rw [List.nil_append] at hlast
          rw [(List.cons.inj hlast).1]
      | cons x pre' =>
          obtain ⟨rfl, rfl⟩ := List.cons.inj hlast
          exact pairwise_iff_split.mp hsorted pre a pre' a' (mid' ++ b :: post)
            (by rw [hsplit]; simp)
    have hsoon' : b.now ≤ a'.now + 4 := by
      have hnot : ¬ a.now + 4 < b.now := hsoon
      omega
    obtain ⟨remaining, -, -, -, msg, -, hqueued⟩ :=
      h.announced _ a' mid' b post hsplit' ha' hmid hsoon'
    cases hb : b.requested with
    | true =>
        have hlate := pairwise_iff_split.mp h.apart _ a' mid' b post hsplit' ha' hb
        omega
    | false =>
        rw [hsilent b (by rw [hsplit]; simp) hb] at hqueued
        cases hqueued
  · intro h
    refine ⟨h.imp fun hgap ha hb => (hgap ha).2 hb, ?_⟩
    intro pre a mid b post hsplit ha _ hsoon
    have hgap := (pairwise_iff_split.mp h pre a mid b post hsplit ha).1
    exact absurd hsoon (Nat.not_le.mpr hgap)

theorem keepsGap_singleton (turn : WeatherTurn) : KeepsGap [turn] := by
  refine ⟨List.pairwise_singleton _ _, fun pre a mid b post hsplit => ?_⟩
  have hlen := congrArg List.length hsplit
  simp only [List.length_append, List.length_cons, List.length_nil] at hlen
  omega

theorem moments_eq {cs : List WeatherCommand} {turns : List WeatherTurn}
    (h : List.Forall₂ WeatherCommand.LeadsTo cs turns) :
    turns.map WeatherTurn.moment = cs.map WeatherCommand.moment ∧
      ∀ t ∈ turns, t.requested = false → t.queued = [] := by
  induction h with
  | nil => exact ⟨rfl, fun _ ht => nomatch ht⟩
  | @cons c turn cs turns hturn _ ih =>
      refine ⟨?_, List.forall_mem_cons.mpr ⟨hturn.silent, ih.2⟩⟩
      rw [List.map_cons, List.map_cons, ih.1, WeatherTurn.moment, WeatherCommand.moment,
        hturn.now, hturn.requested]

/-- Commands whose times do not decrease, from any state of the process. -/
theorem weatherRun_keepsGap_iff (env : PrivmsgEnv ν) (bot : Bot (PrivmsgFunc ν) (Privmsg ν))
    (cs : List WeatherCommand) (hsorted : cs.Pairwise fun a b => a.now ≤ b.now) :
    KeepsGap (weatherRun env cs bot) ↔ (∃ c ∈ cs.head?, c.now ≤ 4) ∨ WellSpaced cs := by
  by_cases hearly : ∃ c ∈ cs.head?, c.now ≤ 4
  · refine iff_of_true ?_ (Or.inl hearly)
    obtain ⟨c, hc, hsoon⟩ := hearly
    obtain ⟨rest, rfl⟩ := List.head?_eq_some_iff.mp hc
    obtain ⟨turn, hrun⟩ := weatherRun_early env hsoon rest bot
    rw [hrun]
    exact keepsGap_singleton turn
  · have hlate : ∀ c ∈ cs, 4 < c.now := by
      cases cs with
      | nil => exact fun _ hc => nomatch hc
      | cons c cs =>
          have hc : 4 < c.now := Nat.lt_of_not_le fun hle => hearly ⟨c, rfl, hle⟩
          have hrest := (List.pairwise_cons.mp hsorted).1
          exact List.forall_mem_cons.mpr ⟨hc, fun d hd => Nat.lt_of_lt_of_le hc (hrest d hd)⟩
    obtain ⟨hmoments, hsilent⟩ := moments_eq (weatherRun_leadsTo env hlate bot)
    have hsortedTurns : (weatherRun env cs bot).Pairwise fun a b => a.now ≤ b.now := by
      have hmap : (cs.map WeatherCommand.moment).Pairwise fun a b => a.1 ≤ b.1 :=
        List.pairwise_map.mpr hsorted
      rw [← hmoments] at hmap
      have hturns := List.pairwise_map.mp hmap
      exact hturns
    rw [keepsGap_iff_pairwise hsortedTurns hsilent, or_iff_right hearly, WellSpaced, ← hmoments,
      List.pairwise_map]

/-! ## Commands apart and commands at once -/

def commandAt (now : Nat) (inTime : now < 0x10000000000000000) : WeatherCommand where
  now := now
  srv := 0
  nick := ascii "ann"
  hostmask := ascii "~ann@host"
  target := ascii "#chan"
  msg := ascii "!weather Turku"
  curlOk := true
  inTime := inTime
  isCommand := by decide +kernel

def sampleCommand : WeatherCommand := commandAt 1000 (by decide)

/-- Eight seconds after the one before it, each. -/
def sampleCommands : List WeatherCommand :=
  [sampleCommand, commandAt 1008 (by decide), commandAt 1016 (by decide)]

def samplePrivmsgBot : Bot (PrivmsgFunc Unit) (Privmsg Unit) :=
  ⟨initIndex, ⟨⟨none, none, none, []⟩, [], sampleWorld⟩⟩

/-- All three start a request. -/
theorem weatherRun_keepsGap_iff_sample :
    KeepsGap (weatherRun sampleEnv sampleCommands samplePrivmsgBot) ∧
      (weatherRun sampleEnv sampleCommands samplePrivmsgBot).map WeatherTurn.moment =
        [(1000, true), (1008, true), (1016, true)] := by
  constructor
  · have hspaced : WellSpaced sampleCommands := by
      unfold WellSpaced Gap
      decide
    exact (weatherRun_keepsGap_iff sampleEnv samplePrivmsgBot sampleCommands
      (by decide)).mpr (Or.inr hspaced)
  · decide +kernel

/-! ## Two commands in one second -/

/-- Both start a request. -/
theorem weatherRun_not_keepsGap :
    ¬ ∀ cs : List WeatherCommand, (cs.Pairwise fun a b => a.now ≤ b.now) →
      KeepsGap (weatherRun sampleEnv cs samplePrivmsgBot) := by
  intro h
  have hgap := h [sampleCommand, sampleCommand] (by decide)
  have hrun : (weatherRun sampleEnv [sampleCommand, sampleCommand] samplePrivmsgBot).map
      WeatherTurn.moment = [(1000, true), (1000, true)] := by
    decide +kernel
  have hpair : ((weatherRun sampleEnv [sampleCommand, sampleCommand] samplePrivmsgBot).map
      WeatherTurn.moment).Pairwise fun a b => a.2 → b.2 → a.1 + 7 < b.1 :=
    List.pairwise_map.mpr hgap.apart
  rw [hrun] at hpair
  revert hpair
  decide

end Bcirc
