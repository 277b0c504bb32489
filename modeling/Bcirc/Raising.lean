import Bcirc.Dispatch
import Bcirc.Effects
import Bcirc.Lifecycle

/-!
# Events raised by the threads of a server

What a step that raises an event leaves behind: the registry keeps its one
`server_rejoin`, the records change as the cause of the event allows, and
only the loss of a connection starts a thread, at most one
(`step_leave`).
-/

namespace Bcirc

open CProg CStr Relation

/-! ## One `server_rejoin` -/

/-- At most one function waits for `server_disconnected`. -/
def OneRejoin (reg : Registry Handler) : Prop :=
  (bucket reg.indexList callbackServerDisconnected).length ≤ 1

theorem OneRejoin.remove {reg : Registry Handler} (h : OneRejoin reg) (ptr : Nat) :
    OneRejoin (removePlugin ptr reg) :=
  (bucket_removePlugin_sublist ptr reg callbackServerDisconnected).length_le.trans h

theorem length_bucket_loadPlugins (loads : List Load) (reg : Registry Handler) :
    (bucket (loadPlugins loads reg).indexList callbackServerDisconnected).length =
      (bucket reg.indexList callbackServerDisconnected).length +
        (loads.filter (·.plugin = .core)).length := by
  induction loads generalizing reg with
  | nil => rfl
  | cons l loads ih =>
      have hcalls : l.plugin.calls.countP (·.registers callbackServerDisconnected) =
          if l.plugin = .core then 1 else 0 := by
        cases l.plugin <;> decide +kernel
      have hload : (bucket (loadPlugin l.path (some (l.plugin.sharedObject l.handle))
          reg).2.indexList callbackServerDisconnected).length =
          (bucket reg.indexList callbackServerDisconnected).length +
            l.plugin.calls.countP (·.registers callbackServerDisconnected) :=
        length_bucket_runCalls _ _ _ _ _
      rw [loadPlugins, ih, hload, hcalls, List.filter_cons]
      by_cases hcore : l.plugin = .core
      · simp only [hcore, if_true, decide_true, List.length_cons]
        omega
      · simp only [hcore, if_false, decide_false, Bool.false_eq_true]
        omega

/-- The plugins of the repository, and one core plugin among them. -/
structure Wired (reg : Registry Handler) : Prop where
  only : PluginsOnly reg.names reg
  one : OneRejoin reg

theorem wired_loadPlugins {loads : List Load}
    (hcore : (loads.filter (·.plugin = .core)).length ≤ 1) :
    Wired (loadPlugins loads initIndex) where
  only := pluginsOnly_loadPlugins loads
  one := by
    unfold OneRejoin
    rw [length_bucket_loadPlugins]
    simpa [initIndex, bucket] using hcore

/-! ## Raising an event -/

/-- What a dispatch keeps and what it does to the world. -/
def FollowsWired (c : Cause) (names : List CbName) (w : World) (bot : Bot Handler World) : Prop :=
  Follows c names w bot ∧ OneRejoin bot.reg

theorem dispatchInv_followsWired (c : Cause) (names : List CbName) (w : World) :
    DispatchInv (fun cbName f => f ∈ listeners cbName) names (FollowsWired c names w) where
  routed _ h := h.1.1
  pause _ ptr h := ⟨⟨h.1.1.pause ptr, h.1.2⟩, h.2⟩
  remove _ ptr h := ⟨⟨h.1.1.remove ptr, h.1.2⟩, h.2.remove ptr⟩

theorem FollowsWired.world {c : Cause} {names : List CbName} {w w' : World}
    {bot : Bot Handler World} (h : FollowsWired c names w bot) (heffect : Effect c bot.world w') :
    FollowsWired c names w { bot with world := w' } :=
  ⟨h.1.world heffect, h.2⟩

theorem moves_raiseEvent (lib : TitleLib) (depth : Nat) (c : Cause) (names : List CbName)
    (w : World) : Moves c (FollowsWired c names w) (raiseEvent lib depth) where
  world _ _ heffect h := h.world heffect
  raise htrue := dispatch_ensures lib (dispatchInv_followsWired c names w)
    (fun _ _ heffect h => h.world heffect) depth htrue

/-- A step that raises events for the cause `c`. -/
structure Raised (c : Cause) (s : Life) (started : List Thread) (s' : Life) : Prop where
  wired : Wired s'.bot.reg
  effects : ReflTransGen (Effect c) s.bot.world s'.bot.world
  rest : s' = { s with bot := s'.bot }
  started : started =
    (s'.bot.world.rejoining.drop s.bot.world.rejoining.length).map (.rejoin · .begin)

theorem run_some {α : Type} {s s' : Life} {m : Prog (Bot Handler World) α}
    (h : s.run m = some s') : ∃ a, m s.bot = .ok a s'.bot ∧ s' = { s with bot := s'.bot } := by
  unfold Life.run at h
  split at h
  · rename_i a bot hrun
    cases h
    exact ⟨a, hrun, rfl⟩
  · cases h

theorem raised_of_dispatch {α : Type} {c : Cause} {s s' : Life} {started : List Thread}
    {m : Prog (Bot Handler World) α} (hwired : Wired s.bot.reg)
    (hm : ∀ names w, Ensures (FollowsWired c names w) m fun _ => True)
    (h : s.dispatch m = some (started, s')) : Raised c s started s' := by
  obtain ⟨s₁, hrun, heq⟩ := Option.map_eq_some_iff.mp h
  obtain ⟨rfl, rfl⟩ := Prod.mk.inj heq
  obtain ⟨a, hok, hrest⟩ := run_some hrun
  have hend := (hm s.bot.reg.names s.bot.world s.bot ⟨⟨hwired.only, .refl⟩, hwired.one⟩).1
  rw [hok, endState_ok] at hend
  obtain ⟨⟨honly, heffects⟩, hone⟩ := hend
  exact ⟨⟨⟨rfl, honly.only⟩, hone⟩, heffects, hrest, rfl⟩

/-! ### What the changes mean for a record -/

/-- What the link fields of the record of `srv` may become. -/
structure Linked (c : Cause) (srv : Nat) (r r' : Server) : Prop where
  tries : r'.rejoinTries = r.rejoinTries ∨ r'.rejoinTries = 0
  motd : r'.motdSent = r.motdSent ∨ c.welcomed srv

theorem Linked.refl (c : Cause) (srv : Nat) (r : Server) : Linked c srv r r :=
  ⟨Or.inl rfl, Or.inl rfl⟩

theorem Linked.trans {c : Cause} {srv : Nat} {r r' r'' : Server} (h : Linked c srv r r')
    (h' : Linked c srv r' r'') : Linked c srv r r'' where
  tries := by
    rcases h'.tries with heq | heq
    · rw [heq]
      exact h.tries
    · exact Or.inr heq
  motd := by
    rcases h'.motd with heq | heq
    · rw [heq]
      exact h.motd
    · exact Or.inr heq

theorem linked_modify {c : Cause} {srv i : Nat} {servers : List Server} {f : Server → Server}
    (hf : srv = i → ∀ r, Linked c srv r (f r)) {r' : Server}
    (h : (servers.modify i f)[srv]? = some r') :
    ∃ r, servers[srv]? = some r ∧ Linked c srv r r' := by
  by_cases hi : srv = i
  · subst hi
    rw [List.getElem?_modify_eq] at h
    obtain ⟨r, hr, rfl⟩ := Option.map_eq_some_iff.mp h
    exact ⟨r, hr, hf rfl r⟩
  · rw [List.getElem?_modify_ne _ _ (Ne.symm hi)] at h
    exact ⟨r', h, .refl c srv r'⟩

theorem Effect.linked {c : Cause} {w w' : World} (h : Effect c w w') {srv : Nat} {r' : Server}
    (hr' : w'.servers[srv]? = some r') :
    ∃ r, w.servers[srv]? = some r ∧ Linked c srv r r' := by
  cases h with
  | outside hservers hchannels hrejoining hclock =>
      rw [hservers] at hr'
      exact ⟨r', hr', .refl c srv r'⟩
  | server i f hf =>
      refine linked_modify (fun _ r => ?_) hr'
      obtain ⟨hmotd, -, htries⟩ := hf r
      exact ⟨Or.inl htries, Or.inl hmotd⟩
  | welcome hsrv =>
      refine linked_modify (fun hi r => ?_) hr'
      exact ⟨Or.inr rfl, Or.inr (hi ▸ hsrv)⟩
  | connect hsrv =>
      refine linked_modify (fun _ r => ?_) hr'
      exact ⟨Or.inl rfl, Or.inl rfl⟩
  | lose results hsrv => exact ⟨r', hr', .refl c srv r'⟩
  | create record hnew => exact ⟨r', hr', .refl c srv r'⟩
  | channel chan f hf => exact ⟨r', hr', .refl c srv r'⟩

theorem effects_linked {c : Cause} {w w' : World} (h : ReflTransGen (Effect c) w w') {srv : Nat}
    {r' : Server} (hr' : w'.servers[srv]? = some r') :
    ∃ r, w.servers[srv]? = some r ∧ Linked c srv r r' := by
  induction h generalizing r' with
  | refl => exact ⟨r', hr', .refl c srv r'⟩
  | tail _ heffect ih =>
      obtain ⟨r₁, hr₁, hlast⟩ := heffect.linked hr'
      obtain ⟨r, hr, hfirst⟩ := ih hr₁
      exact ⟨r, hr, hfirst.trans hlast⟩

theorem effects_rejoining {c : Cause} (hlost : ∀ srv, ¬ c.lost srv) {w w' : World}
    (h : ReflTransGen (Effect c) w w') : w'.rejoining = w.rejoining := by
  induction h with
  | refl => rfl
  | tail _ heffect ih =>
      cases heffect with
      | outside hservers hchannels hrejoining hclock => exact hrejoining.trans ih
      | lose results hsrv => exact absurd hsrv (hlost _)
      | server i f hf => exact ih
      | welcome hsrv => exact ih
      | connect hsrv => exact ih
      | create record hnew => exact ih
      | channel chan f hf => exact ih

/-- Only a lost connection starts a thread. -/
theorem Raised.none_started {c : Cause} (hlost : ∀ srv, ¬ c.lost srv) {s s' : Life}
    {started : List Thread} (h : Raised c s started s') : started = [] := by
  rw [h.started, effects_rejoining hlost h.effects, List.drop_length]
  rfl

/-! ### The event of a lost connection -/

def lostCause (srv : Nat) : Cause where
  welcomed _ := False
  connected _ := False
  lost s := s = srv

theorem listeners_serverDisconnected : listeners callbackServerDisconnected = [.serverRejoin] := by
  decide +kernel

theorem truthful_serverDisconnected (srv : Nat) (reason : Int) :
    Truthful (lostCause srv) callbackServerDisconnected [.server srv, .int reason] := by
  intro f hf
  rw [listeners_serverDisconnected] at hf
  obtain rfl := List.mem_singleton.mp hf
  intro srv' hsrv
  cases hsrv
  rfl

theorem serverRejoin_rejoining {srv : Nat} {reason res : Int} {w w' : World}
    (h : serverRejoin [.server srv, .int reason] w = .ok res w') :
    w'.rejoining = w.rejoining ∨ w'.rejoining = w.rejoining ++ [srv] := by
  have hrun : (if reason = serverIntentionalDc then pure bcircPluginOk else do
      let ok ← startRejoin srv
      pure (if ok then bcircPluginOk else bcircPluginFail) : Prog World Int) w = .ok res w' := h
  split at hrun
  · cases hrun
    exact Or.inl rfl
  · obtain ⟨ok, w₁, hstart, hrun⟩ := of_bind_ok hrun
    cases hrun
    cases hstart
    by_cases hok : w.threadResults.headD true = true
    · exact Or.inr (if_pos hok)
    · exact Or.inl (if_neg hok)

/-- A dispatch of an event nobody has registered for. -/
theorem executeBody_empty {lib : TitleLib} {depth : Nat} {cbName : Str}
    {nested : List Arg → Prog (Bot Handler World) Int} {args : List Arg}
    {bot bot' : Bot Handler World} {res : Int} (hempty : bucket bot.reg.indexList cbName = [])
    (hlast : cbName = callbackCallbacksExecuted)
    (h : executeBody (invoke lib depth) .str nested cbName args bot = .ok res bot') :
    bot' = bot := by
  cases hindex : getCbIndex bot.reg.indexList cbName with
  | none =>
      rw [executeBody_unknown _ _ _ _ hindex] at h
      cases h
      rfl
  | some indexPoint =>
      rw [executeBody_known _ _ _ _ hindex, hempty] at h
      obtain ⟨o, bot₁, hloop, h⟩ := of_bind_ok h
      cases hloop
      rw [if_neg (not_not.mpr hlast)] at h
      cases h
      rfl

theorem bucket_callbacksExecuted {names : List CbName} {reg : Registry Handler}
    (h : PluginsOnly names reg) : bucket reg.indexList callbackCallbacksExecuted = [] := by
  refine List.eq_nil_iff_forall_not_mem.mpr fun cb hcb => ?_
  have hmem := h.only _ cb hcb
  rw [listeners_callbacksExecuted] at hmem
  cases hmem

/-- One invocation of `server_rejoin`. -/
theorem invoke_serverRejoin {lib : TitleLib} {depth srv : Nat} {reason res : Int}
    {cb : Callback Handler} {bot bot' : Bot Handler World} (hcb : cb.cbFunc = .serverRejoin)
    (h : invoke lib depth cb [.server srv, .int reason] bot = .ok res bot') :
    bot'.world.rejoining = bot.world.rejoining ∨
      bot'.world.rejoining = bot.world.rejoining ++ [srv] := by
  cases depth with
  | zero => cases h
  | succ depth =>
      have hfunc : cb.cbFunc.run lib (executeCallbacks (invoke lib depth) .str)
          [.server srv, .int reason] bot = .ok res bot' := h
      rw [hcb] at hfunc
      obtain ⟨w, hrejoin, rfl⟩ := of_onWorld_ok hfunc
      exact serverRejoin_rejoining hrejoin

/-- A loop of one round at most. -/
theorem callbackLoop_serverDisconnected {lib : TitleLib} {depth srv indexPoint n : Nat}
    {reason : Int} {o : Option Int} {bot bot' : Bot Handler World} (hn : n ≤ 1)
    (hcbs : ∀ cb, bot.reg.callbackAt? indexPoint 0 = some cb → cb.cbFunc = .serverRejoin)
    (h : callbackLoop (invoke lib depth) indexPoint [.server srv, .int reason] n 0 bot =
      .ok o bot') :
    bot'.world.rejoining = bot.world.rejoining ∨
      bot'.world.rejoining = bot.world.rejoining ++ [srv] := by
  match n, hn with
  | 0, _ =>
      cases h
      exact Or.inl rfl
  | 1, _ =>
      rw [callbackLoop, get_bind_run] at h
      cases hcb : bot.reg.callbackAt? indexPoint 0 with
      | none =>
          rw [hcb] at h
          cases h
      | some cb =>
          rw [hcb, orFault_some, pure_bind_run] at h
          obtain ⟨res, bot₁, hcall, h⟩ := of_bind_ok h
          obtain ⟨act, bot₂, hact, h⟩ := of_bind_ok h
          have hrejoin := invoke_serverRejoin (hcbs cb hcb) hcall
          have hworld := afterCallback_world 0 res bot₁
          rw [hact, endState_ok] at hworld
          have hend : bot' = bot₂ := by
            cases act with
            | some r =>
                cases h
                rfl
            | none =>
                cases h
                rfl
          rw [hend, hworld]
          exact hrejoin

theorem callbackAt_serverDisconnected {bot : Bot Handler World} {indexPoint : Nat}
    (hwired : Wired bot.reg)
    (hindex : getCbIndex bot.reg.indexList callbackServerDisconnected = some indexPoint)
    {cb : Callback Handler} (hcb : bot.reg.callbackAt? indexPoint 0 = some cb) :
    cb.cbFunc = .serverRejoin := by
  obtain ⟨entry, hentry, -, hbucket⟩ := getCbIndex_some hindex
  rw [Registry.callbackAt?, hentry] at hcb
  have hmem : cb ∈ entry.callbacks := List.mem_of_getElem? hcb
  have hlistens := hwired.only.only callbackServerDisconnected cb (hbucket ▸ hmem)
  rw [listeners_serverDisconnected] at hlistens
  exact List.mem_singleton.mp hlistens

/-- The loop leaves the plugins of the repository. -/
theorem callbackLoop_pluginsOnly {lib : TitleLib} {depth srv indexPoint n : Nat} {reason : Int}
    {o : Option Int} {bot bot' : Bot Handler World} (hwired : Wired bot.reg)
    (hindex : getCbIndex bot.reg.indexList callbackServerDisconnected = some indexPoint)
    (h : callbackLoop (invoke lib depth) indexPoint [.server srv, .int reason] n 0 bot =
      .ok o bot') : PluginsOnly bot.reg.names bot'.reg := by
  have hI := dispatchInv_followsWired (lostCause srv) bot.reg.names bot.world
  have hstays : ∀ b, FollowsWired (lostCause srv) bot.reg.names bot.world b →
      getCbIndex b.reg.indexList callbackServerDisconnected = some indexPoint :=
    fun b hb => (getCbIndex_congr hb.1.1.names _).trans hindex
  have hcall : ∀ cb : Callback Handler, cb.cbFunc ∈ listeners callbackServerDisconnected →
      Ensures (FollowsWired (lostCause srv) bot.reg.names bot.world)
        (invoke lib depth cb [.server srv, .int reason]) fun _ => True :=
    fun cb hcb => invoke_ensures lib hI (fun _ _ heffect h => h.world heffect) depth
      (truthful_serverDisconnected srv reason cb.cbFunc hcb)
  have hkept := (hI.callbackLoop hstays hcall n 0 bot ⟨⟨hwired.only, .refl⟩, hwired.one⟩).1
  rw [h, endState_ok] at hkept
  exact hkept.1.1

/-- The only callback is `server_rejoin`, and it is invoked once. -/
theorem raise_serverDisconnected {lib : TitleLib} {depth : Nat} {srv : Nat} {reason res : Int}
    {bot bot' : Bot Handler World} (hwired : Wired bot.reg)
    (h : raiseEvent lib depth callbackServerDisconnected [.server srv, .int reason] bot =
      .ok res bot') :
    bot'.world.rejoining = bot.world.rejoining ∨
      bot'.world.rejoining = bot.world.rejoining ++ [srv] := by
  unfold raiseEvent at h
  cases hindex : getCbIndex bot.reg.indexList callbackServerDisconnected with
  | none =>
      rw [executeCallbacks, executeBody_unknown _ _ _ _ hindex] at h
      cases h
      exact Or.inl rfl
  | some indexPoint =>
      rw [executeCallbacks, executeBody_known _ _ _ _ hindex] at h
      obtain ⟨o, bot₁, hloop, hrest⟩ := of_bind_ok h
      have hrejoin := callbackLoop_serverDisconnected hwired.one
        (fun cb hcb => callbackAt_serverDisconnected hwired hindex hcb) hloop
      -- nobody is notified, so nothing more happens
      have hworld : bot'.world = bot₁.world := by
        cases o with
        | some r =>
            cases hrest
            rfl
        | none =>
            rw [if_pos (by decide)] at hrest
            obtain ⟨_, bot₂, hnote, hrest⟩ := of_bind_ok hrest
            cases hrest
            have hnobody := bucket_callbacksExecuted (callbackLoop_pluginsOnly hwired hindex hloop)
            rw [executeBody_empty hnobody rfl hnote]
      rw [hworld]
      exact hrejoin

/-- The end of a receive loop starts one `try_rejoin`, or none. -/
theorem step_leave {lib : TitleLib} {depth srv : Nat} {reason : Int} {s s' : Life}
    {started : List Thread} (hwired : Wired s.bot.reg)
    (h : s.dispatch (serverDisconnect (raiseEvent lib depth) srv reason) = some (started, s')) :
    Raised (lostCause srv) s started s' ∧ (started = [] ∨ started = [.rejoin srv .begin]) := by
  have hraised : Raised (lostCause srv) s started s' := by
    refine raised_of_dispatch hwired (fun names w => ?_) h
    have hmoves := moves_raiseEvent lib depth (lostCause srv) names w
    refine hmoves.afterWorld (does_getServer _ srv) fun _ => ?_
    exact Ensures.bind (hmoves.raise (truthful_serverDisconnected srv reason)) fun _ _ =>
      Ensures.pure trivial
  refine ⟨hraised, ?_⟩
  obtain ⟨s₁, hrun, heq⟩ := Option.map_eq_some_iff.mp h
  obtain ⟨-, rfl⟩ := Prod.mk.inj heq
  obtain ⟨_, hok, -⟩ := run_some hrun
  obtain ⟨record, bot₁, hget, hafter⟩ := of_bind_ok hok
  have hpair : (raiseEvent lib depth callbackServerDisconnected [.server srv, .int reason] >>=
      fun _ => pure PUnit.unit) bot₁ = .ok _ s₁.bot := hafter
  obtain ⟨res, bot₂, hraise, hend⟩ := of_bind_ok hpair
  obtain ⟨w, hrecord, rfl⟩ := of_onWorld_ok hget
  obtain ⟨-, rfl⟩ := of_getServer_ok hrecord
  obtain ⟨-, heq⟩ := EStateM.Result.ok.inj hend
  rw [heq] at hraise
  rw [hraised.started]
  rcases raise_serverDisconnected hwired hraise with hsame | hone
  · rw [hsame, List.drop_length]
    exact Or.inl rfl
  · rw [hone, List.drop_left]
    exact Or.inr rfl

/-! ### The other events -/

def lineCause (srv : Nat) (line : Str) : Cause where
  welcomed s := s = srv ∧ numericOf line = some rplWelcome
  connected _ := False
  lost _ := False

theorem truthful_serverRecv (srv : Nat) (line : Str) :
    Truthful (lineCause srv line) callbackServerRecv [.server srv, .str line] := by
  intro f hf
  rw [listeners_serverRecv] at hf
  simp only [List.mem_cons, List.not_mem_nil, or_false] at hf
  rcases hf with rfl | rfl | rfl | rfl
  · trivial
  · trivial
  · intro srv' line' hsrv hline hnumeric
    cases hsrv
    cases hline
    exact ⟨rfl, hnumeric⟩
  · trivial

def connectedCause (srv : Nat) : Cause where
  welcomed _ := False
  connected s := s = srv
  lost _ := False

theorem listeners_serverConnected : listeners callbackServerConnected = [.handleRegisteration] := by
  decide +kernel

theorem truthful_serverConnected (srv : Nat) :
    Truthful (connectedCause srv) callbackServerConnected [.server srv] := by
  intro f hf
  rw [listeners_serverConnected] at hf
  obtain rfl := List.mem_singleton.mp hf
  intro srv' hsrv
  cases hsrv
  rfl

theorem step_line {lib : TitleLib} {depth srv : Nat} {line : Str} {s s' : Life}
    {started : List Thread} (hwired : Wired s.bot.reg)
    (h : (s.setConn srv (Conn.heard line)).dispatch (executeRecv lib depth srv line) =
      some (started, s')) :
    Raised (lineCause srv line) (s.setConn srv (Conn.heard line)) [] s' ∧ started = [] := by
  have hraised : Raised (lineCause srv line) (s.setConn srv (Conn.heard line)) started s' :=
    raised_of_dispatch hwired
      (fun names w => (moves_raiseEvent lib depth _ names w).raise (truthful_serverRecv srv line))
      h
  obtain rfl := hraised.none_started fun _ hlost => hlost
  exact ⟨hraised, rfl⟩

theorem step_register {lib : TitleLib} {depth srv : Nat} {s s' : Life}
    {started : List Thread} (hwired : Wired s.bot.reg)
    (h : s.dispatch (raiseEvent lib depth callbackServerConnected [.server srv]) =
      some (started, s')) :
    Raised (connectedCause srv) s [] s' ∧ started = [] := by
  have hraised : Raised (connectedCause srv) s started s' :=
    raised_of_dispatch hwired
      (fun names w => (moves_raiseEvent lib depth _ names w).raise (truthful_serverConnected srv))
      h
  obtain rfl := hraised.none_started fun _ hlost => hlost
  exact ⟨hraised, rfl⟩

/-- A write reaches one record. -/
theorem write_some {s s' : Life} {srv : Nat} {f : Server → Server} (h : s.write srv f = some s') :
    ∃ r, s.bot.world.servers[srv]? = some r ∧ s' = { s with bot := { s.bot with
      world := { s.bot.world with servers := s.bot.world.servers.modify srv f } } } := by
  obtain ⟨_, hrun, hrest⟩ := run_some h
  obtain ⟨w, hworld, hbot⟩ := of_onWorld_ok hrun
  obtain ⟨r, w₁, hget, hset⟩ := of_bind_ok hworld
  obtain ⟨hr, rfl⟩ := of_getServer_ok hget
  cases hset
  refine ⟨r, hr, hrest.trans ?_⟩
  rw [hbot]

end Bcirc
