import Bcirc.Ownership

/-!
# Losing a connection again and again

What `rejoin_tries` and `motd_sent` say of a server whose connections are
lost before they are welcomed. `try_rejoin` counts its try and takes the
count back before it ends, so the next one finds 0 and does not sleep
(`begin_no_sleep`). It also sets `motd_sent`, which `server_connect` has
just cleared, so `get_chan_event` takes a new connection for a welcomed one
(`gated_iff`).
-/

namespace Bcirc

open CProg CStr Relation Tokens Transition

variable {lib : TitleLib} {depth : Nat} {s s' : Life}

/-! ## The wait before a reconnect -/

/-- The `try_rejoin` that begins now sleeps for `WAIT_TIME` at least. -/
def Life.BacksOff (s : Life) (srv : Nat) : Prop :=
  ∃ record, s.bot.world.servers[srv]? = some record ∧ waitTime ≤ rejoinSleep record s.clock

theorem begin_no_sleep (hinv : Life.Inv s) {srv : Nat} (ht : .rejoin srv .begin ∈ s.threads)
    {record : Server} (hrecord : s.bot.world.servers[srv]? = some record) :
    rejoinSleep record s.clock = 0 := by
  have hzero := (hinv.sound _ ht srv List.mem_cons_self).tries rfl record hrecord
  exact if_neg fun hwait => hwait.2 hzero

/-- The second quick loss in a row, or a later one: the sleep that should
follow it does in the runs in which there is none. -/
theorem backOff_iff {events : List LifeEvent} {s₀ : Life} (hinit : s₀.Initial)
    (hrun : replay (Life.next lib depth) s₀ events = some s) :
    (∀ pre srv s', pre ++ [.act (.rejoin srv .begin) .none] <+: events →
        replay (Life.next lib depth) s₀ pre = some s' →
        2 ≤ (s'.conns srv).quickLosses → s'.BacksOff srv) ↔
      ∀ pre srv s', pre ++ [.act (.rejoin srv .begin) .none] <+: events →
        replay (Life.next lib depth) s₀ pre = some s' → (s'.conns srv).quickLosses < 2 := by
  constructor
  · intro hsleeps pre srv s' hprefix hpre
    by_contra hlosses
    obtain ⟨record, hrecord, hwait⟩ := hsleeps pre srv s' hprefix hpre (not_lt.mp hlosses)
    obtain ⟨post, rfl⟩ := hprefix
    rw [List.append_assoc] at hrun
    obtain ⟨s₁, s₂, hs₁, hbegin, -⟩ := replay_at hrun
    obtain rfl : s' = s₁ := Option.some.inj (hpre.symm.trans hs₁)
    have hinv : Life.Inv s' := Life.Inv.reach (reach_of_replay (.init hinit) hpre)
    rw [begin_no_sleep hinv (next_act hbegin).1 hrecord] at hwait
    exact absurd hwait (by decide)
  · intro hnone pre srv s' hprefix hpre htwo
    exact absurd (hnone pre srv s' hprefix hpre) (not_lt.mpr htwo)

/-- A run with two quick losses. -/
def sampleLosses : List LifeEvent := sampleLoading ++ sampleLoss ++ sampleRejoin ++ sampleLoss

def sampleWelcome : Str := ascii ":irc 001 me :Welcome"

/-- A run in which RPL_WELCOME comes in between the two. -/
def sampleWelcomedLosses : List LifeEvent :=
  sampleLoading ++ sampleLoss ++ sampleRejoin ++
    .act (.recv 0) (.line sampleWelcome) :: sampleLoss ++
    [.act (.rejoin 0 .begin) .none]

theorem backOff_iff_sample :
    (∀ pre srv s', pre ++ [.act (.rejoin srv .begin) .none] <+: sampleWelcomedLosses →
      replay (Life.next sampleLib 3) sampleStart pre = some s' →
      2 ≤ (s'.conns srv).quickLosses → s'.BacksOff srv) ∧
    ¬ ∀ pre srv s', pre ++ [.act (.rejoin srv .begin) .none] <+:
        sampleLosses ++ [.act (.rejoin 0 .begin) .none] →
      replay (Life.next sampleLib 3) sampleStart pre = some s' →
      2 ≤ (s'.conns srv).quickLosses → s'.BacksOff srv := by
  constructor
  · have hrun : sampleReplay sampleWelcomedLosses = some _ := sampleReplay_eq (by decide +kernel)
    refine (backOff_iff sampleStart_initial hrun).mpr fun pre srv s' hprefix hpre => ?_
    obtain rfl : srv = 0 := by
      have hmem : .act (.rejoin srv .begin) .none ∈ sampleWelcomedLosses :=
        hprefix.subset (List.mem_append_right _ List.mem_cons_self)
      simpa [sampleWelcomedLosses, sampleLoading, sampleLoss, sampleRejoin] using hmem
    have hfew : ∀ pre ∈ sampleWelcomedLosses.inits,
        ((sampleReplay pre).all fun s => (s.conns 0).quickLosses < 2) = true := by
      decide +kernel
    have hone := hfew pre ((List.mem_inits _ _).mpr ((List.prefix_append _ _).trans hprefix))
    rw [show sampleReplay pre = some s' from hpre] at hone
    simpa using hone
  · intro hsleeps
    have hrun : sampleReplay (sampleLosses ++ [.act (.rejoin 0 .begin) .none]) = some _ :=
      sampleReplay_eq (by decide +kernel)
    have hpre : sampleReplay sampleLosses = some _ := sampleReplay_eq (by decide +kernel)
    have hfew := (backOff_iff sampleStart_initial hrun).mp hsleeps sampleLosses 0 _
      (List.prefix_refl _) hpre
    exact absurd hfew (by decide +kernel)

/-- The second loss: nothing tells it from the first. -/
theorem backOff_missed :
    let s := sampleLife sampleLosses
    Reach Life.Initial (someEvent (Life.next sampleLib 3)) s ∧ .rejoin 0 .begin ∈ s.threads ∧
      2 ≤ (s.conns 0).quickLosses ∧ ¬ s.BacksOff 0 := by
  intro s
  refine ⟨sampleLife_reach (by decide +kernel), by decide +kernel, by decide +kernel, ?_⟩
  rintro ⟨record, hrecord, hwait⟩
  have hsleep : s.bot.world.servers[0]?.map (rejoinSleep · s.clock) = some 0 := by decide +kernel
  rw [hrecord] at hsleep
  have hzero : rejoinSleep record s.clock = 0 := Option.some.inj hsleep
  rw [hzero] at hwait
  exact absurd hwait (by decide)

/-! ## The gate of `get_chan_event` -/

/-- `motd_sent` is up on welcomed connections only. -/
def Life.Flag (s : Life) : Prop :=
  ∀ srv record, s.bot.world.servers[srv]? = some record → (s.conns srv).made = true →
    record.motdSent ≠ 0 → (s.conns srv).welcomed = true

/-- `get_chan_event` raises something for the line: it depends on what that does. -/
def ChanEventRaised (bot : Bot Handler World) (srv : Nat) (line : Str) : Prop :=
  ∃ raise raise' : Str → List Arg → Prog (Bot Handler World) Int,
    getChanEvent raise [.server srv, .str line] bot ≠
      getChanEvent raise' [.server srv, .str line] bot

/-- The flag tells the truth, and `get_chan_event` acts on welcomed connections
only, wherever it is called in the handling of the next line: `w` is the world
as the callbacks before it have left it. -/
structure Life.Gated (s : Life) : Prop where
  flag : s.Flag
  event : ∀ srv line w, (s.conns srv).made = true → WelcomeRead line →
    ReflTransGen (Effect (lineCause srv line)) s.bot.world w →
    ChanEventRaised { s.bot with world := w } srv line →
    ((s.conns srv).heard line).welcomed = true

/-- With the flag down the result is settled before anything is raised. -/
theorem getChanEvent_down {bot : Bot Handler World} {srv : Nat} (line : Str)
    (hdown : ∀ record, bot.world.servers[srv]? = some record → record.motdSent = 0) :
    ∃ r, ∀ raise, getChanEvent raise [.server srv, .str line] bot = r := by
  by_cases hlen : line.length + 1 ≤ 20
  · refine ⟨.ok bcircPluginContinue bot, fun raise => ?_⟩
    show (if line.length + 1 ≤ 20 then pure bcircPluginContinue else
      _ : Prog (Bot Handler World) Int) bot = _
    rw [if_pos hlen]
    rfl
  · cases hrecord : bot.world.servers[srv]? with
    | none =>
        have hget : onWorld (getServer srv) bot = .error .nullPointer bot := by
          unfold onWorld getServer
          rw [get_bind_run, hrecord]
          rfl
        refine ⟨.error .nullPointer bot, fun raise => ?_⟩
        show (if line.length + 1 ≤ 20 then pure bcircPluginContinue else do
          let record ← onWorld (getServer srv)
          _ : Prog (Bot Handler World) Int) bot = _
        rw [if_neg hlen, bind_error hget]
    | some record =>
        have hget : onWorld (getServer srv) bot = .ok record bot :=
          onWorld_ok (getServer_ok hrecord)
        refine ⟨.ok 0 bot, fun raise => ?_⟩
        show (if line.length + 1 ≤ 20 then pure bcircPluginContinue else do
          let record ← onWorld (getServer srv)
          _ : Prog (Bot Handler World) Int) bot = _
        rw [if_neg hlen, bind_ok hget, if_pos (hdown record hrecord)]
        rfl

theorem ChanEventRaised.flag {bot : Bot Handler World} {srv : Nat} {line : Str}
    (h : ChanEventRaised bot srv line) :
    ∃ record, bot.world.servers[srv]? = some record ∧ record.motdSent ≠ 0 := by
  obtain ⟨raise, raise', hne⟩ := h
  by_contra hup
  have hdown : ∀ record, bot.world.servers[srv]? = some record → record.motdSent = 0 :=
    fun record hrecord => not_not.mp fun hset => hup ⟨record, hrecord, hset⟩
  obtain ⟨r, hsettled⟩ := getChanEvent_down line hdown
  exact hne ((hsettled raise).trans (hsettled raise').symm)

theorem gated_of_flag (h : s.Flag) : s.Gated where
  flag := h
  event := by
    intro srv line w hmade hread heffects hraised
    obtain ⟨record', hrecord', hup⟩ := hraised.flag
    obtain ⟨record, hrecord, hlinked⟩ := effects_linked heffects hrecord'
    rcases hlinked.motd with hsame | ⟨-, hnumeric⟩
    · have hwelcomed := h srv record hrecord hmade (hsame ▸ hup)
      simp [Conn.heard, hwelcomed]
    · simp [Conn.heard, hread hnumeric]

/-- The first callback of the line, with nothing before it. -/
theorem Life.Gated.now (h : s.Gated) {srv : Nat} {line : Str} (hmade : (s.conns srv).made = true)
    (hread : WelcomeRead line) (hraised : ChanEventRaised s.bot srv line) :
    ((s.conns srv).heard line).welcomed = true :=
  h.event srv line s.bot.world hmade hread .refl hraised

/-! ### Steps that keep it -/

theorem Life.Flag.raised {c : Cause} {started : List Thread} (h : s.Flag)
    (hraised : Raised c s started s')
    (hwelcome : ∀ srv, c.welcomed srv → (s.conns srv).welcomed = true) : s'.Flag := by
  intro srv record' hrecord' hmade hup
  rw [hraised.conns] at hmade ⊢
  obtain ⟨record, hrecord, hlinked⟩ := effects_linked hraised.effects hrecord'
  rcases hlinked.motd with hsame | hwelcomed
  · exact h srv record hrecord hmade (hsame ▸ hup)
  · exact hwelcome srv hwelcomed

theorem Life.Flag.setConn {srv : Nat} {f : Conn → Conn} (h : s.Flag)
    (hmade : ∀ conn, (f conn).made = conn.made)
    (hkept : ∀ conn, conn.welcomed = true → (f conn).welcomed = true) :
    (s.setConn srv f).Flag := by
  intro k record hrecord hk hup
  by_cases hne : k = srv
  · subst hne
    have hself : (s.setConn k f).conns k = f (s.conns k) := Function.update_self _ _ _
    rw [hself] at hk ⊢
    exact hkept _ (h k record hrecord (hmade _ ▸ hk) hup)
  · rw [setConn_ne hne] at hk ⊢
    exact h k record hrecord hk hup

/-- A write to one record, seen from any record. -/
theorem write_record {srv k : Nat} {f : Server → Server} (h : s.write srv f = some s')
    {record' : Server} (hrecord' : s'.bot.world.servers[k]? = some record') :
    ∃ record, s.bot.world.servers[k]? = some record ∧
      record' = if k = srv then f record else record := by
  obtain ⟨r, -, rfl⟩ := write_some h
  have hmodify : (s.bot.world.servers.modify srv f)[k]? = some record' := hrecord'
  rw [List.getElem?_modify] at hmodify
  obtain ⟨record, hrecord, rfl⟩ := Option.map_eq_some_iff.mp hmodify
  exact ⟨record, hrecord, by simp [eq_comm]⟩

theorem Life.Flag.connected {srv : Nat} (h : s.Flag) (hconnected : s.connected srv = some s') :
    s'.Flag := by
  obtain ⟨s₁, hwrite, rfl⟩ := connected_some hconnected
  intro k record' hrecord' hmade hup
  obtain ⟨record, hrecord, rfl⟩ := write_record hwrite hrecord'
  by_cases hk : k = srv
  · rw [if_pos hk] at hup
    exact absurd rfl hup
  · rw [if_neg hk] at hup
    rw [setConn_ne hk, (write_reg hwrite).2.1] at hmade ⊢
    exact h k record hrecord hmade hup

/-- `rejoin_tries++`. -/
theorem Life.Flag.counted {srv : Nat} (h : s.Flag)
    (hwrite : s.write srv (fun record =>
      { record with rejoinTries := record.rejoinTries + 1 }) = some s') : s'.Flag := by
  intro k record' hrecord' hmade hup
  obtain ⟨record, hrecord, rfl⟩ := write_record hwrite hrecord'
  rw [(write_reg hwrite).2.1] at hmade ⊢
  refine h k record hrecord hmade ?_
  by_cases hk : k = srv
  · rw [if_pos hk] at hup
    exact hup
  · rw [if_neg hk] at hup
    exact hup

theorem Life.Flag.heard {srv : Nat} {line : Str} {started : List Thread} (h : s.Flag)
    (hread : WelcomeRead line)
    (hraised : Raised (lineCause srv line) (s.setConn srv (Conn.heard line)) started s') :
    s'.Flag := by
  have hheard : (s.setConn srv (Conn.heard line)).Flag :=
    h.setConn (fun _ => rfl) fun conn hconn => by
      show (conn.welcomed || _) = true
      rw [hconn, Bool.true_or]
  refine hheard.raised hraised ?_
  -- only RPL_WELCOME puts the flag up, and the connection has heard it
  rintro k ⟨rfl, hnumeric⟩
  have hself : (s.setConn k (Conn.heard line)).conns k = (s.conns k).heard line :=
    Function.update_self _ _ _
  rw [hself]
  simp [Conn.heard, hread hnumeric]

theorem Life.Flag.steps {t : Thread} {o : Outcome} {new : List Thread} (h : s.Flag)
    (hwired : Wired s.bot.reg) (hreopen : ∀ srv, t ≠ .rejoin srv .reopen)
    (hread : ∀ srv line, t = .recv srv → o = .line line → WelcomeRead line)
    (hsteps : t.Steps lib depth s o new s') : s'.Flag := by
  cases hsteps with
  | line hline => exact h.heard (hread _ _ rfl rfl) (step_line hwired hline).1
  | timeout | closed => exact h.setConn (fun _ => rfl) fun _ hconn => hconn
  | disconnect hlost =>
      exact h.raised (step_leave hwired hlost).1 fun _ hwelcomed => hwelcomed.elim
  | rejoinRegister hconnected | loadRegister hconnected =>
      exact h.raised (step_register hwired hconnected).1 fun _ hwelcomed => hwelcomed.elim
  | wake _ hwrite => exact h.counted hwrite
  | reopen _ => exact absurd rfl (hreopen _)
  | rejoined hconnected | loaded hconnected => exact h.connected hconnected
  -- the other steps leave connections and records alone
  | _ => exact h

/-! ### Runs -/

theorem Life.Flag.next {e : LifeEvent} (h : s.Flag) (hwired : Wired s.bot.reg)
    (hreopen : ∀ srv o, e ≠ .act (.rejoin srv .reopen) o)
    (hread : ∀ srv line, e = .act (.recv srv) (.line line) → WelcomeRead line)
    (hnext : s.next lib depth e = some s') : s'.Flag := by
  cases e with
  | tick seconds =>
      cases hnext
      exact h
  | act t o =>
      obtain ⟨-, new, s₁, hstep, rfl⟩ := next_act hnext
      have hflag : s₁.Flag := by
        refine h.steps hwired ?_ ?_ (steps_of_step hstep)
        · rintro srv rfl
          exact hreopen srv o rfl
        · rintro srv line rfl rfl
          exact hread srv line rfl
      exact hflag

theorem flag_initial (h : s.Initial) : s.Flag := by
  obtain ⟨loads, w, servers, -, rfl⟩ := h
  intro srv record hrecord hmade
  cases hmade

/-- `motd_sent = 1` on a connection on which nothing has been received. -/
theorem reopen_flag {srv : Nat} (hinv : Life.Inv s)
    (hnext : s.next lib depth (.act (.rejoin srv .reopen) .none) = some s') : ¬ s'.Flag := by
  obtain ⟨ht, new, s₁, hstep, rfl⟩ := next_act hnext
  have hrun : (s.write srv fun record => { record with motdSent := 1, rejoinTries := 0 }).map
      (fun s => ([Thread.rejoin srv .add], s)) = some (new, s₁) := hstep
  obtain ⟨s₂, hwrite, heq⟩ := Option.map_eq_some_iff.mp hrun
  obtain ⟨-, rfl⟩ := Prod.mk.inj heq
  obtain ⟨hmade, hunwelcomed⟩ := (hinv.sound _ ht srv List.mem_cons_self).fresh rfl
  obtain ⟨record, hrecord, rfl⟩ := write_some hwrite
  intro hflag
  have hset : (s.bot.world.servers.modify srv fun record =>
      { record with motdSent := 1, rejoinTries := 0 })[srv]? =
      some { record with motdSent := 1, rejoinTries := 0 } := by
    rw [List.getElem?_modify_eq, hrecord]
    rfl
  have hwelcomed := hflag srv _ hset hmade Int.one_ne_zero
  exact Bool.false_ne_true (hunwelcomed.symm.trans hwelcomed)

/-- The gate stands in every state of a run in which only RPL_WELCOME is read
as such, if and only if no `try_rejoin` gets past its `server_connect`. -/
theorem gated_iff {events : List LifeEvent} {s₀ : Life} (hinit : s₀.Initial)
    (hread : ∀ srv line, .act (.recv srv) (.line line) ∈ events → WelcomeRead line)
    (hrun : replay (Life.next lib depth) s₀ events = some s) :
    (∀ pre s', pre <+: events → replay (Life.next lib depth) s₀ pre = some s' → s'.Gated) ↔
      ∀ srv o, .act (.rejoin srv .reopen) o ∉ events := by
  constructor
  · intro hgated srv o hmem
    obtain ⟨pre, post, rfl⟩ := List.append_of_mem hmem
    obtain ⟨s₁, s₂, hs₁, hreopen, hs₂⟩ := replay_at hrun
    have hprefix : pre ++ [.act (.rejoin srv .reopen) o] <+:
        pre ++ .act (.rejoin srv .reopen) o :: post := ⟨post, by simp⟩
    have hinv : Life.Inv s₁ := Life.Inv.reach (reach_of_replay (.init hinit) hs₁)
    obtain rfl : o = .none := by
      obtain ⟨-, new, s', hstep, -⟩ := next_act hreopen
      cases o with
      | none => rfl
      | ok => cases hstep
      | fails => cases hstep
      | line line => cases hstep
      | selectFails => cases hstep
      | timeout => cases hstep
      | closed => cases hstep
    exact reopen_flag hinv hreopen (hgated _ s₂ hprefix hs₂).flag
  · rintro hnone pre s' ⟨post, rfl⟩ hpre
    refine gated_of_flag (replay_invariant (I := fun s => Life.Inv s ∧ s.Flag) ?_
      ⟨?_, flag_initial hinit⟩ hpre).2
    · rintro s e s₁ he ⟨hinv, hflag⟩ hnext
      refine ⟨hinv.next hnext, hflag.next hinv.wired ?_ ?_ hnext⟩
      · rintro srv o rfl
        exact hnone srv o (List.mem_append_left _ he)
      · rintro srv line rfl
        exact hread srv line (List.mem_append_left _ he)
    · exact Life.Inv.initial hinit

/-- A welcomed connection that is lost, and a reconnect up to the end of its
`server_connect`. -/
def sampleRelogin : List LifeEvent :=
  sampleLoading ++ .act (.recv 0) (.line sampleWelcome) :: (sampleLoss ++ sampleRejoin.take 5)

theorem gated_iff_sample : (sampleLife sampleRelogin).Gated := by
  have hrun : sampleReplay sampleRelogin = some _ := sampleReplay_eq (by decide +kernel)
  refine (gated_iff sampleStart_initial ?_ hrun).mpr ?_ _ _ (List.prefix_refl _) hrun
  · intro srv line hmem
    obtain ⟨-, rfl⟩ : srv = 0 ∧ line = sampleWelcome := by
      simpa [sampleRelogin, sampleLoading, sampleLoss, sampleRejoin] using hmem
    exact fun _ => by decide +kernel
  · intro srv o hmem
    simp [sampleRelogin, sampleLoading, sampleLoss, sampleRejoin] at hmem

/-- The first reconnect: a JOIN is acted on, and nothing has welcomed the bot. -/
theorem gate_open :
    let s := sampleLife (sampleLoading ++ sampleLoss ++ sampleRejoin)
    let line := ascii ":bot!bot@example.org JOIN :#lean"
    Reach Life.Initial (someEvent (Life.next sampleLib 3)) s ∧ (s.conns 0).made = true ∧
      ((s.conns 0).heard line).welcomed = false ∧ ChanEventRaised s.bot 0 line ∧ ¬ s.Gated := by
  intro s line
  have hraised : ChanEventRaised s.bot 0 line := by
    refine ⟨fun _ _ => pure 0, fun _ _ => do
      modify fun bot => { bot with world := { bot.world with hasFilter := true } }
      pure 0, fun heq => ?_⟩
    have hsame := congrArg (fun r => (endState r).world.hasFilter) heq
    revert hsame
    decide +kernel
  have hmade : (s.conns 0).made = true := by decide +kernel
  have hunwelcomed : ((s.conns 0).heard line).welcomed = false := by decide +kernel
  refine ⟨sampleLife_reach (by decide +kernel), hmade, hunwelcomed, hraised, fun hgated => ?_⟩
  have hread : WelcomeRead line := fun hnumeric => absurd hnumeric (by decide +kernel)
  have hwelcomed := hgated.now hmade hread hraised
  exact Bool.false_ne_true (hunwelcomed.symm.trans hwelcomed)

end Bcirc
