import Bcirc.LoadedImages
import Bcirc.ChannelMap
import Bcirc.SentEvents

/-!
# Registration

Raising `server_connected` sends PASS, USER and NICK, in this order and
nothing else, as long as the core plugin is loaded; without it nothing is
ever sent. In between there is nothing: a plugin goes with all its
callbacks (`Furnished`).
-/

namespace Bcirc

open CProg CStr

/-! ## The loaded plugins -/

def RepoPlugin.handlers (plugin : RepoPlugin) : List (CallbackEntry Handler) :=
  plugin.calls.filterMap RegisterCall.handler?

/-- The registry mirrors plugins of the repository, with the core plugin at
most once among them. -/
def Furnished (reg : Registry Handler) : Prop :=
  ∃ (l : Loaded Handler) (plugins : List RepoPlugin), reg.Mirrors l ∧
    l.images.map (·.handlers) = plugins.map RepoPlugin.handlers ∧ plugins.count .core ≤ 1

/-- Some callback of the core plugin is there. -/
def HasCore (reg : Registry Handler) : Prop :=
  ∃ cbName, ∃ cb ∈ bucket reg.indexList cbName, cb.cbFunc.isCore = true

theorem imageOf_sharedObject (plugin : RepoPlugin) (path : Str) (handle : Nat) :
    imageOf path (some (plugin.sharedObject handle)) =
      some ⟨path, handle, plugin.pluginName, plugin.pluginVersion, ascii "Joona",
        plugin.handlers⟩ := rfl

theorem failsBare_sharedObject (plugin : RepoPlugin) (handle : Nat) :
    FailsBare (some (plugin.sharedObject handle)) := by
  intro handle' init hinit hfails
  cases hinit
  exact absurd rfl hfails

theorem furnished_loadPlugins {loads : List Load}
    (hcore : (loads.filter (·.plugin = .core)).length ≤ 1) :
    Furnished (loadPlugins loads initIndex) := by
  have hloads : ∀ (loads : List Load) (reg : Registry Handler) (l : Loaded Handler)
      (plugins : List RepoPlugin), reg.Mirrors l →
      l.images.map (·.handlers) = plugins.map RepoPlugin.handlers →
      ∃ l', (loadPlugins loads reg).Mirrors l' ∧ l'.images.map (·.handlers) =
        (plugins ++ loads.map (·.plugin)).map RepoPlugin.handlers := by
    intro loads
    induction loads with
    | nil =>
        intro reg l plugins hl hplugins
        exact ⟨l, hl, by simpa using hplugins⟩
    | cons load loads ih =>
        intro reg l plugins hl hplugins
        obtain ⟨l', hl', hplugins'⟩ := ih _ _ (plugins ++ [load.plugin])
          (hl.load load.path (failsBare_sharedObject load.plugin load.handle)) (by
            simp [Loaded.load, imageOf_sharedObject, hplugins])
        exact ⟨l', hl', by simpa using hplugins'⟩
  obtain ⟨l, hl, hplugins⟩ := hloads loads initIndex ⟨[], []⟩ [] initIndex_mirrors rfl
  refine ⟨l, loads.map (·.plugin), hl, by simpa using hplugins, ?_⟩
  rw [List.count, List.countP_map, List.countP_eq_length_filter]
  refine le_trans (le_of_eq (congrArg List.length (List.filter_congr fun load _ => ?_))) hcore
  exact Bool.beq_eq_decide_eq _ _

theorem removePlugin_absent {ptr : Nat} {reg : Registry Handler}
    (h : ∀ p ∈ reg.pluginList, p.serial ≠ ptr) : removePlugin ptr reg = reg := by
  have hnone : reg.pluginList.filter (fun p => p.serial == ptr) = [] :=
    List.filter_eq_nil_iff.mpr fun p hp => by simpa using h p hp
  have hall : reg.pluginList.filter (fun p => p.serial != ptr) = reg.pluginList :=
    List.filter_eq_self.mpr fun p hp => by simpa using h p hp
  unfold removePlugin
  rw [hnone, hall]
  rfl

theorem Furnished.remove {reg : Registry Handler} (h : Furnished reg) (ptr : Nat) :
    Furnished (removePlugin ptr reg) := by
  by_cases hptr : ∃ p ∈ reg.pluginList, p.serial = ptr
  · obtain ⟨p, hp, rfl⟩ := hptr
    obtain ⟨i, hi⟩ := List.mem_iff_getElem?.mp hp
    obtain ⟨l, plugins, hl, hplugins, hcount⟩ := h
    refine ⟨l.drop i, plugins.eraseIdx i, hl.remove hi, ?_, ?_⟩
    · rw [Loaded.drop, ← List.eraseIdx_map, hplugins, List.eraseIdx_map]
    · exact ((List.eraseIdx_sublist plugins i).count_le _).trans hcount
  · rw [removePlugin_absent fun p hp heq => hptr ⟨p, hp, heq⟩]
    exact h

theorem Furnished.pause {reg : Registry Handler} (h : Furnished reg) (ptr : Nat) :
    Furnished (pausePlugin ptr reg) := by
  obtain ⟨l, plugins, hl, hplugins, hcount⟩ := h
  exact ⟨l, plugins, hl.pause ptr, hplugins, hcount⟩

theorem filter_handlers (plugins : List RepoPlugin) :
    (plugins.flatMap RepoPlugin.handlers).filter
        (fun h => h.cbName == callbackServerConnected) =
      List.replicate (plugins.count .core)
        ⟨callbackServerConnected, .handleRegisteration, 5⟩ := by
  induction plugins with
  | nil => rfl
  | cons plugin plugins ih =>
      have hfirst : plugin.handlers.filter (fun h => h.cbName == callbackServerConnected) =
          List.replicate (if plugin == .core then 1 else 0)
            ⟨callbackServerConnected, .handleRegisteration, 5⟩ := by
        cases plugin <;> decide +kernel
      rw [List.flatMap_cons, List.filter_append, hfirst, ih, List.count_cons,
        List.replicate_append_replicate, Nat.add_comm]

/-- With the core plugin there is one callback for a connection. -/
theorem Furnished.serverConnected {reg : Registry Handler} (h : Furnished reg)
    (hcore : HasCore reg) : ∃ cb, bucket reg.indexList callbackServerConnected = [cb] ∧
      cb.cbFunc = .handleRegisteration := by
  obtain ⟨l, plugins, hl, hplugins, hcount⟩ := h
  have hall : l.images.flatMap (·.handlers) = plugins.flatMap RepoPlugin.handlers := by
    rw [List.flatMap_def, hplugins, ← List.flatMap_def]
  have hbucket : ∀ cbName, ((bucket reg.indexList cbName).map Callback.handler).Perm
      ((plugins.flatMap RepoPlugin.handlers).filter fun h => h.cbName == cbName) := by
    intro cbName
    rw [hl.bucket, Loaded.handlers, hall]
    exact Msort.msort_perm _ _
  -- a callback of the core plugin shows that the plugin is in the list
  obtain ⟨cbName, cb, hcb, hisCore⟩ := hcore
  have hmem : .core ∈ plugins := by
    have hhandler := (hbucket cbName).subset (List.mem_map_of_mem hcb)
    obtain ⟨plugin, hplugin, hregisters⟩ :=
      List.mem_flatMap.mp (List.mem_filter.mp hhandler).1
    have honly : ∀ h ∈ plugin.handlers, h.cbFunc.isCore = true → plugin = .core := by
      cases plugin <;> decide
    exact honly _ hregisters hisCore ▸ hplugin
  have hone : plugins.count .core = 1 := le_antisymm hcount (List.count_pos_iff.mpr hmem)
  have hlist := hbucket callbackServerConnected
  rw [filter_handlers, hone] at hlist
  obtain ⟨cb', hcb', hhandler⟩ := List.map_eq_singleton_iff.mp (List.perm_singleton.mp hlist)
  exact ⟨cb', hcb', congrArg CallbackEntry.cbFunc hhandler⟩

/-! ## Raising an event -/

section Raise

variable {lib : TitleLib} {depth : Nat} {cbName : Str} {args : List Arg} {res : Int}
  {bot bot' : Bot Handler World}

theorem furnished_raised (honly : PluginsOnly bot.reg.names bot.reg) (hreg : Furnished bot.reg)
    (h : raiseEvent lib depth cbName args bot = .ok res bot') : Furnished bot'.reg := by
  have hI : DispatchInv (fun cbName f => f ∈ listeners cbName) bot.reg.names
      fun b : Bot Handler World => PluginsOnly bot.reg.names b.reg ∧ Furnished b.reg :=
    ⟨fun _ hb => hb.1, fun _ ptr hb => ⟨hb.1.pause ptr, hb.2.pause ptr⟩,
      fun _ ptr hb => ⟨hb.1.remove ptr, hb.2.remove ptr⟩⟩
  have hend := (dispatch_ensures lib hI (fun _ _ _ hb => hb) depth
    (truthful_anyCause cbName args) bot ⟨honly, hreg⟩).1
  rw [show executeCallbacks _ _ _ _ bot = _ from h] at hend
  exact hend.2

theorem bucket_nobody {names : List CbName} (honly : PluginsOnly names bot.reg)
    (hnone : listeners cbName = []) : bucket bot.reg.indexList cbName = [] := by
  refine List.eq_nil_iff_forall_not_mem.mpr fun cb hcb => ?_
  have hmem := honly.only _ cb hcb
  rw [hnone] at hmem
  cases hmem

/-- An event nobody listens to. -/
theorem raise_nobody {names : List CbName} (honly : PluginsOnly names bot.reg)
    (hnone : listeners cbName = [])
    (h : executeCallbacks (invoke lib depth) .str cbName args bot = .ok res bot') :
    bot' = bot := by
  unfold executeCallbacks at h
  cases hindex : getCbIndex bot.reg.indexList cbName with
  | none =>
      rw [executeBody_unknown _ _ _ _ hindex] at h
      cases h
      rfl
  | some indexPoint =>
      rw [executeBody_known _ _ _ _ hindex, bucket_nobody honly hnone] at h
      obtain ⟨o, bot₁, hloop, hrest⟩ := of_bind_ok h
      cases hloop
      by_cases hlast : cbName ≠ callbackCallbacksExecuted
      · rw [if_pos hlast] at hrest
        obtain ⟨_, bot₂, hnote, hend⟩ := of_bind_ok hrest
        cases hend
        exact executeBody_empty (bucket_callbacksExecuted honly) rfl hnote
      · rw [if_neg hlast] at hrest
        cases hrest
        rfl

end Raise

/-! ## What is said -/

/-- The calls of `send`, without what they returned. -/
def World.said (w : World) : List (Nat × Str) := w.sends.map fun call => (call.srv, call.buf)

/-- From `bot` to `bot'` just `calls` were made. -/
structure Tells (calls : List (Nat × Str)) (bot bot' : Bot Handler World) : Prop where
  reg : bot'.reg = bot.reg
  said : bot'.world.said = bot.world.said ++ calls
  names : bot'.world.servers.map Server.names = bot.world.servers.map Server.names

theorem Tells.trans {calls calls' : List (Nat × Str)} {bot bot' bot'' : Bot Handler World}
    (h : Tells calls bot bot') (h' : Tells calls' bot' bot'') :
    Tells (calls ++ calls') bot bot'' :=
  ⟨h'.reg.trans h.reg, by rw [h'.said, h.said, List.append_assoc], h'.names.trans h.names⟩

theorem Tells.only {names : List CbName} {calls : List (Nat × Str)} {bot bot' : Bot Handler World}
    (h : Tells calls bot bot') (honly : PluginsOnly names bot.reg) :
    PluginsOnly names bot'.reg := by
  rw [h.reg]
  exact honly

section Tells

variable {lib : TitleLib} {depth srv : Nat} {bot bot' : Bot Handler World}

theorem tells_setServer {f : Server → Server} {u : Unit}
    (h : onWorld (setServer srv f) bot = .ok u bot') (hnames : ∀ r, (f r).names = r.names) :
    Tells [] bot bot' := by
  obtain ⟨w, hset, rfl⟩ := of_onWorld_ok h
  cases hset
  exact ⟨rfl, (List.append_nil _).symm, names_modify srv hnames bot.world.servers⟩

theorem tells_serverSend {names : List CbName} (honly : PluginsOnly names bot.reg) {buf : Str}
    {res : Int}
    (h : serverSend (executeCallbacks (invoke lib depth) .str) (some buf) srv bot =
      .ok res bot') : Tells [(srv, buf)] bot bot' := by
  obtain ⟨_, bot₁, hraise, hafter⟩ := of_bind_ok h
  obtain rfl := (raise_nobody honly listeners_serverSend hraise).symm
  have hrun : (onWorld (send srv buf) >>= fun res => if res ≤ 0 then pure res
      else onWorld (setServer srv fun s => { s with sentLen := s.sentLen + res }) >>=
        fun _ => pure res : Prog (Bot Handler World) Int) bot = .ok res bot' := hafter
  obtain ⟨sent, bot₂, hsend, hrest⟩ := of_bind_ok hrun
  have htold : Tells [(srv, buf)] bot bot₂ := by
    obtain ⟨w, hworld, rfl⟩ := of_onWorld_ok hsend
    obtain ⟨record, w₁, hget, hlog⟩ := of_bind_ok hworld
    obtain ⟨-, rfl⟩ := of_getServer_ok hget
    cases hlog
    exact ⟨rfl, by simp [World.said], rfl⟩
  split at hrest
  · cases hrest
    exact htold
  · obtain ⟨u, bot₃, hset, hend⟩ := of_bind_ok hrest
    cases hend
    exact htold.trans (tells_setServer hset fun _ => rfl)

theorem tells_nick {names : List CbName} (honly : PluginsOnly names bot.reg) {newNick : Str}
    {res : Int}
    (h : nick (executeCallbacks (invoke lib depth) .str) newNick srv bot = .ok res bot') :
    Tells [(srv, nickLine newNick)] bot bot' := by
  obtain ⟨record, bot₁, hget, hafter⟩ := of_bind_ok h
  obtain ⟨w, hworld, rfl⟩ := of_onWorld_ok hget
  obtain ⟨-, rfl⟩ := of_getServer_ok hworld
  obtain ⟨u, bot₂, hset, hsend⟩ := of_bind_ok hafter
  have hsame := tells_setServer hset fun _ => rfl
  exact hsame.trans (tells_serverSend (hsame.only honly) hsend)

/-- The three lines for a record, the last with some nick. -/
def Registers (srv : Nat) (names : Option Str × Str × Str) (calls : List (Nat × Str)) : Prop :=
  ∃ record lines newNick, record.names = names ∧ registrationLines record = .ok lines ∧
    calls = [(srv, lines.1), (srv, lines.2), (srv, nickLine newNick)]

theorem tells_handleRegisteration {names : List CbName} (honly : PluginsOnly names bot.reg)
    {res : Int}
    (h : handleRegisteration (executeCallbacks (invoke lib depth) .str) [.server srv] bot =
      .ok res bot') : res = bcircPluginOk ∧ ∃ record calls,
        bot.world.servers[srv]? = some record ∧ Registers srv record.names calls ∧
          Tells calls bot bot' := by
  have hbody : (do
      let _ ← onWorld (getServer srv)
      onWorld (markConnected srv)
      let record ← onWorld (getServer srv)
      let lines ← liftExcept (registrationLines record)
      let _ ← serverSend (executeCallbacks (invoke lib depth) .str) (some lines.1) srv
      let _ ← serverSend (executeCallbacks (invoke lib depth) .str) (some lines.2) srv
      let record ← onWorld (getServer srv)
      let _ ← nick (executeCallbacks (invoke lib depth) .str) record.nick srv
      pure bcircPluginOk : Prog (Bot Handler World) Int) bot = .ok res bot' := h
  obtain ⟨_, bot₁, hget₁, h₁⟩ := of_bind_ok hbody
  obtain ⟨w₁, hrecord₁, rfl⟩ := of_onWorld_ok hget₁
  obtain ⟨-, rfl⟩ := of_getServer_ok hrecord₁
  obtain ⟨u, bot₂, hmark, h₂⟩ := of_bind_ok h₁
  have hmarked : Tells [] bot bot₂ := by
    obtain ⟨w₂, hworld, rfl⟩ := of_onWorld_ok hmark
    cases hworld
    refine ⟨rfl, (List.append_nil _).symm, names_modify srv ?_ _⟩
    exact fun _ => rfl
  obtain ⟨record, bot₃, hget₃, h₃⟩ := of_bind_ok h₂
  obtain ⟨w₃, hrecord₃, rfl⟩ := of_onWorld_ok hget₃
  obtain ⟨hmem, rfl⟩ := of_getServer_ok hrecord₃
  obtain ⟨lines, hlines, h₄⟩ := of_liftExcept_bind_ok h₃
  obtain ⟨_, bot₄, hpass, h₅⟩ := of_bind_ok h₄
  have hpassed := tells_serverSend (hmarked.only honly) hpass
  obtain ⟨_, bot₅, huser, h₆⟩ := of_bind_ok h₅
  have husered := tells_serverSend (hpassed.only (hmarked.only honly)) huser
  obtain ⟨record', bot₆, hget₆, h₇⟩ := of_bind_ok h₆
  obtain ⟨w₆, hrecord₆, rfl⟩ := of_onWorld_ok hget₆
  obtain ⟨-, rfl⟩ := of_getServer_ok hrecord₆
  obtain ⟨_, bot₇, hnick, hend⟩ := of_bind_ok h₇
  obtain ⟨rfl, rfl⟩ := EStateM.Result.ok.inj hend
  have hnicked := tells_nick (husered.only (hpassed.only (hmarked.only honly))) hnick
  -- the record that is read is the server's, up to `time_connected`
  have hbefore : ∃ r, bot.world.servers[srv]? = some r ∧ r.names = record.names := by
    have hmap := congrArg (fun l => l[srv]?) hmarked.names
    simp only [List.getElem?_map, hmem, Option.map_some] at hmap
    obtain ⟨r, hr, hnames⟩ := Option.map_eq_some_iff.mp hmap.symm
    exact ⟨r, hr, hnames⟩
  obtain ⟨r, hr, hnames⟩ := hbefore
  refine ⟨rfl, r, _, hr, ⟨record, lines, record'.nick, hnames.symm, hlines, rfl⟩, ?_⟩
  exact ((hmarked.trans hpassed).trans husered).trans hnicked

/-- With the core plugin, a connection is announced with the three lines. -/
theorem tells_serverConnected {names : List CbName} {res : Int} (honly : PluginsOnly names bot.reg)
    (hreg : Furnished bot.reg) (hcore : HasCore bot.reg)
    (h : raiseEvent lib depth callbackServerConnected [.server srv] bot = .ok res bot') :
    ∃ record calls, bot.world.servers[srv]? = some record ∧
      Registers srv record.names calls ∧ Tells calls bot bot' := by
  obtain ⟨cb, hbucket, hfunc⟩ := hreg.serverConnected hcore
  cases hindex : getCbIndex bot.reg.indexList callbackServerConnected with
  | none =>
      rw [bucket_of_getCbIndex_none hindex] at hbucket
      cases hbucket
  | some indexPoint =>
      have hat : bot.reg.callbackAt? indexPoint 0 = some cb := by
        obtain ⟨entry, hentry, -, hcbs⟩ := getCbIndex_some hindex
        rw [Registry.callbackAt?, hentry, Option.bind_some, hcbs, hbucket]
        rfl
      unfold raiseEvent executeCallbacks at h
      rw [executeBody_known _ _ _ _ hindex, hbucket] at h
      obtain ⟨o, bot₁, hloop, hrest⟩ := of_bind_ok h
      rw [List.length_singleton, callbackLoop, get_bind_run, hat, orFault_some,
        pure_bind_run] at hloop
      obtain ⟨code, bot₂, hcall, hact⟩ := of_bind_ok hloop
      obtain ⟨record, calls, hrecord, hregisters, htells⟩ : ∃ record calls,
          bot.world.servers[srv]? = some record ∧ Registers srv record.names calls ∧
            code = bcircPluginOk ∧ Tells calls bot bot₂ := by
        cases depth with
        | zero => cases hcall
        | succ depth =>
            have hfuncRun : cb.cbFunc.run lib (executeCallbacks (invoke lib depth) .str)
                [.server srv] bot = .ok code bot₂ := hcall
            rw [hfunc] at hfuncRun
            obtain ⟨hcode, record, calls, hrecord, hregisters, htells⟩ :=
              tells_handleRegisteration honly hfuncRun
            exact ⟨record, calls, hrecord, hregisters, hcode, htells⟩
      obtain ⟨rfl, htells⟩ := htells
      rw [bind_ok (afterCallback_pass (by decide) (by decide) (by decide) 0 bot₂)] at hact
      cases hact
      rw [if_pos (by decide)] at hrest
      obtain ⟨_, bot₃, hnote, hend⟩ := of_bind_ok hrest
      cases hend
      have hnobody : PluginsOnly names bot₁.reg := htells.reg ▸ honly
      rw [executeBody_empty (bucket_callbacksExecuted hnobody) rfl hnote]
      exact ⟨record, calls, hrecord, hregisters, htells⟩

end Tells

end Bcirc
