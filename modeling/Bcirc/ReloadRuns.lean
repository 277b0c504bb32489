import Bcirc.CAgree
import Bcirc.LoadedImages

/-!
# Reloading while events are dispatched

The bot as its plugins see it, on two levels. `BotTurn` is what can happen
between two of them: a file is reloaded, or an event is raised. Below it
is the registry of `plugin_handler.c`, with its index and its pointers;
above it `Host`, that has the list of loaded files and nothing else.

`executeCallbacks_host` is the simulation of one dispatch, whatever the
callbacks answer, `turns_host` that of a whole run: the same calls with
the same arguments and answers, the same faults, and in the end the same
files. Names of events are values on both levels, also those whose image is
gone: `readCbIndex` is the lookup that does not find these any more.
-/

namespace Bcirc

open CProg CStr

variable {φ α W : Type}

/-! ## Above: a list of files -/

/-- A callback was called with `args` and answered `res`. -/
structure Heard (φ α : Type) where
  handler : CallbackEntry φ
  args : List α
  res : Int
  deriving DecidableEq, Repr

structure Host (φ α W : Type) where
  loaded : Loaded φ
  world : W
  log : List (Heard φ α)

/-- What the code of a callback answers, and the world it leaves; it does
not see the record it was found by. -/
abbrev Behaviour (φ α W : Type) := φ → List α → W → Int × W

/-- The world and the log once `h` has answered. -/
def Host.heard (g : Behaviour φ α W) (h : CallbackEntry φ) (args : List α) (s : Host φ α W) :
    Host φ α W :=
  let r := g h.cbFunc args s.world
  { s with world := r.2, log := s.log ++ [⟨h, args, r.1⟩] }

def Host.call (g : Behaviour φ α W) (h : CallbackEntry φ) (args : List α) :
    Prog (Host φ α W) Int :=
  fun s => .ok (g h.cbFunc args s.world).1 (Host.heard g h args s)

/-- STOP asks for a file at that place, FAIL takes it off the list. -/
def Host.afterHandler (i : Nat) (res : Int) : Prog (Host φ α W) (Option Int) :=
  if res = bcircPluginStop then do
    let s ← get
    let _ ← orFault .outOfBounds s.loaded.images[i]?
    pure none
  else if res = bcircPluginFail then do
    let s ← get
    let _ ← orFault .outOfBounds s.loaded.images[i]?
    modify fun s => { s with loaded := s.loaded.drop i }
    pure none
  else if res = bcircPluginBreak then pure (some bcircPluginFail)
  else pure none

section Dispatch

variable (g : Behaviour φ α W) (strArg : Str → α)

def Host.loop (cbName : Str) (args : List α) : Nat → Nat → Prog (Host φ α W) (Option Int)
  | 0, _ => pure none
  | n + 1, i => do
      let s ← get
      let h ← orFault .outOfBounds (s.loaded.handlers cbName)[i]?
      let res ← Host.call g h args
      match ← Host.afterHandler i res with
      | some r => pure (some r)
      | none => Host.loop cbName args n (i + 1)

def Host.body (nested : List α → Prog (Host φ α W) Int) (cbName : Str) (args : List α) :
    Prog (Host φ α W) Int := do
  let s ← get
  if cbName ∈ s.loaded.known then
    match ← Host.loop g cbName args (s.loaded.handlers cbName).length 0 with
    | some r => pure r
    | none =>
        if cbName ≠ callbackCallbacksExecuted then
          let _ ← nested (args ++ [strArg cbName])
          pure bcircPluginOk
        else pure bcircPluginOk
  else pure bcircPluginOk

def Host.dispatch (cbName : Str) (args : List α) : Prog (Host φ α W) Int :=
  Host.body g strArg
    (Host.body g strArg (fun _ => pure bcircPluginOk) callbackCallbacksExecuted) cbName args

end Dispatch

/-! ## One dispatch -/

def Invocation.heard (inv : Invocation φ α) : Heard φ α := ⟨inv.cb.handler, inv.args, inv.res⟩

/-- The code behind a callback decides what it answers. -/
def Behaviour.answer (g : Behaviour φ α W) : Answer φ α W := fun cb => g cb.cbFunc

/-- The two levels, between two callbacks. -/
structure SameHost (b : Bot φ (W × List (Invocation φ α))) (s : Host φ α W) : Prop where
  reg : b.reg.Mirrors s.loaded
  paths : b.reg.paths.Nodup
  world : b.world.1 = s.world
  log : b.world.2.map Invocation.heard = s.log

theorem SameHost.call {b : Bot φ (W × List (Invocation φ α))} {s : Host φ α W}
    (h : SameHost b s) (g : Behaviour φ α W) (cb : Callback φ) (args : List α) {cbName : Str}
    {o : Option Nat} (hix : getCbIndex b.reg.indexList cbName = o) :
    SameEnd (fun b s => SameHost b s ∧ getCbIndex b.reg.indexList cbName = o) Eq
      (traced g.answer cb args b) (Host.call g cb.handler args s) := by
  refine .ok (by rw [h.world]; rfl) ⟨⟨h.reg, h.paths, ?_, ?_⟩, hix⟩
  · simp only [Bcirc.record, Host.heard, Behaviour.answer, h.world]
    rfl
  · simp only [Bcirc.record, Host.heard, Behaviour.answer, h.world, List.map_append, h.log,
      List.map_singleton]
    rfl

theorem SameHost.plugin {b : Bot φ (W × List (Invocation φ α))} {s : Host φ α W}
    (h : SameHost b s) (i : Nat) :
    Option.Rel (fun p image => image = p.image ∧ b.reg.pluginList[i]? = some p)
      b.reg.pluginList[i]? s.loaded.images[i]? := by
  rw [← h.reg.images, List.getElem?_map]
  cases b.reg.pluginList[i]? with
  | none => exact .none
  | some p => exact .some ⟨rfl, rfl⟩

/-- The action on the plugin at the place of the round. -/
theorem SameHost.afterCallback {b : Bot φ (W × List (Invocation φ α))} {s : Host φ α W}
    (h : SameHost b s) (i : Nat) (res : Int) :
    SameEnd (fun b' s' => SameHost b' s' ∧
        ∀ cbName, getCbIndex b'.reg.indexList cbName = getCbIndex b.reg.indexList cbName)
      Eq (afterCallback i res b) (Host.afterHandler i res s) := by
  by_cases hbreak : res = bcircPluginBreak
  · rw [hbreak, afterCallback_break]
    exact .ok rfl ⟨h, fun _ => rfl⟩
  by_cases hact : res = bcircPluginStop ∨ res = bcircPluginFail
  · have hrel := h.plugin i
    cases hp : b.reg.pluginList[i]? with
    | none =>
        rw [hp] at hrel
        cases himage : s.loaded.images[i]? with
        | some image =>
            rw [himage] at hrel
            cases hrel
        | none =>
            rw [afterCallback_outOfBounds hact hp]
            rcases hact with rfl | rfl
            · rw [Host.afterHandler, if_pos rfl, get_bind_run, himage]
              exact .error ⟨h, fun _ => rfl⟩
            · rw [Host.afterHandler, if_neg (by decide), if_pos rfl, get_bind_run, himage]
              exact .error ⟨h, fun _ => rfl⟩
    | some p =>
        rw [hp] at hrel
        cases himage : s.loaded.images[i]? with
        | none =>
            rw [himage] at hrel
            cases hrel
        | some image =>
            rcases hact with rfl | rfl
            · -- a plugin that is paused stays on the list as it is
              rw [afterCallback_stop hp, Host.afterHandler, if_pos rfl, get_bind_run, himage]
              refine .ok rfl ⟨⟨h.reg.pause _, ?_, h.world, h.log⟩, fun _ => rfl⟩
              rw [(h.reg.pause _).paths, ← h.reg.paths]
              exact h.paths
            · rw [afterCallback_fail hp, Host.afterHandler, if_neg (by decide), if_pos rfl,
                get_bind_run, himage]
              refine .ok rfl ⟨⟨h.reg.remove hp, ?_, h.world, h.log⟩,
                fun cbName => getCbIndex_removePlugin _ _ _⟩
              exact h.paths.sublist ((pluginList_removePlugin _ _).map _)
  · rw [not_or] at hact
    rw [afterCallback_pass hbreak hact.1 hact.2, Host.afterHandler, if_neg hact.1,
      if_neg hact.2, if_neg hbreak]
    exact .ok rfl ⟨h, fun _ => rfl⟩

section Simulation

variable (g : Behaviour φ α W) (strArg : Str → α)

/-- The round finds the callback that the files say. -/
theorem SameHost.callbackAt {b : Bot φ (W × List (Invocation φ α))} {s : Host φ α W}
    (h : SameHost b s) {cbName : Str} {indexPoint : Nat}
    (hix : getCbIndex b.reg.indexList cbName = some indexPoint) (i : Nat) :
    Option.Rel (fun cb handler => handler = cb.handler)
      (b.reg.callbackAt? indexPoint i) (s.loaded.handlers cbName)[i]? := by
  obtain ⟨entry, hentry, -, hcbs⟩ := getCbIndex_some hix
  rw [Registry.callbackAt?, hentry, Option.bind_some, hcbs, ← h.reg.bucket cbName,
    List.getElem?_map]
  cases (bucket b.reg.indexList cbName)[i]? with
  | none => exact .none
  | some cb => exact .some rfl

/-- The event stays at its place in the index while its callbacks run. -/
theorem callbackLoop_host {cbName : Str} {indexPoint : Nat} (args : List α) (n i : Nat)
    {b : Bot φ (W × List (Invocation φ α))} {s : Host φ α W} (h : SameHost b s)
    (hix : getCbIndex b.reg.indexList cbName = some indexPoint) :
    SameEnd (fun b s => SameHost b s ∧ getCbIndex b.reg.indexList cbName = some indexPoint) Eq
      (callbackLoop (traced g.answer) indexPoint args n i b) (Host.loop g cbName args n i s) := by
  induction n generalizing i b s with
  | zero => exact .ok rfl ⟨h, hix⟩
  | succ n ih =>
      have hcb := h.callbackAt hix i
      rw [callbackLoop, Host.loop, get_bind_run, get_bind_run]
      refine SameEnd.bind (.orFault hcb ⟨h, hix⟩) ?_
      rintro cb _ b s rfl ⟨h, hix⟩
      refine SameEnd.bind (h.call g cb args hix) ?_
      rintro res _ b s rfl ⟨h, hix⟩
      have hact := h.afterCallback i res
      refine SameEnd.bind (hact.mono fun b' s' h' => ⟨h'.1, (h'.2 cbName).trans hix⟩) ?_
      rintro o _ b' s' rfl ⟨h', hix'⟩
      cases o with
      | some r => exact .ok rfl ⟨h', hix'⟩
      | none => exact ih (i + 1) h' hix'

theorem executeBody_host {nested : List α → Prog (Bot φ (W × List (Invocation φ α))) Int}
    {nested' : List α → Prog (Host φ α W) Int}
    (hnested : ∀ args b s, SameHost b s → SameEnd SameHost Eq (nested args b) (nested' args s))
    (cbName : Str) (args : List α) {b : Bot φ (W × List (Invocation φ α))} {s : Host φ α W}
    (h : SameHost b s) :
    SameEnd SameHost Eq (executeBody (traced g.answer) strArg nested cbName args b)
      (Host.body g strArg nested' cbName args s) := by
  rw [Host.body, get_bind_run]
  cases hix : getCbIndex b.reg.indexList cbName with
  | none =>
      rw [executeBody_unknown _ strArg nested args hix, if_neg ((h.reg.known cbName).mp hix)]
      exact .ok rfl h
  | some indexPoint =>
      have hknown : cbName ∈ s.loaded.known := by
        by_contra hnot
        rw [(h.reg.known cbName).mpr hnot] at hix
        cases hix
      have hlen : (s.loaded.handlers cbName).length = (bucket b.reg.indexList cbName).length := by
        rw [← h.reg.bucket cbName, List.length_map]
      rw [executeBody_known _ strArg nested args hix, if_pos hknown, hlen]
      refine SameEnd.bind ((callbackLoop_host g args _ 0 h hix).mono fun _ _ h' => h'.1) ?_
      rintro o _ b' s' rfl h'
      cases o with
      | some r => exact .ok rfl h'
      | none =>
          simp only
          split
          · refine SameEnd.bind (hnested _ b' s' h') ?_
            rintro _ _ b'' s'' - h''
            exact .ok rfl h''
          · exact .ok rfl h'

/-- A dispatch does on the registry what it does on the list of files. -/
theorem executeCallbacks_host (cbName : Str) (args : List α)
    {b : Bot φ (W × List (Invocation φ α))} {s : Host φ α W} (h : SameHost b s) :
    SameEnd SameHost Eq (executeCallbacks (traced g.answer) strArg cbName args b)
      (Host.dispatch g strArg cbName args s) :=
  executeBody_host g strArg
    (fun _ _ _ h => executeBody_host g strArg (fun _ _ _ h => .ok rfl h) _ _ h) cbName args h

end Simulation

/-! ## Whole runs -/

/-- A file in the directory of plugins was written, or an event is raised. -/
inductive BotTurn (φ α : Type) where
  | reload (name : Str) (so : Option (SharedObject φ))
  | raise (cbName : Str) (args : List α)

def BotTurn.FailsBare : BotTurn φ α → Prop
  | .reload _ so => Bcirc.FailsBare so
  | .raise _ _ => True

section Runs

variable (dirPath : Str) (g : Behaviour φ α W) (strArg : Str → α)

def BotTurn.run : BotTurn φ α → Prog (Bot φ (W × List (Invocation φ α))) Unit
  | .reload name so =>
      modify fun b => { b with reg := (loadNewPlugin dirPath name so b.reg).2 }
  | .raise cbName args => do
      let _ ← executeCallbacks (traced g.answer) strArg cbName args
      pure ()

def runTurns : List (BotTurn φ α) → Prog (Bot φ (W × List (Invocation φ α))) Unit
  | [] => pure ()
  | t :: ts => do
      t.run dirPath g strArg
      runTurns ts

def Host.turn : BotTurn φ α → Prog (Host φ α W) Unit
  | .reload name so =>
      modify fun s => { s with loaded := s.loaded.reload (pluginPath dirPath name) so }
  | .raise cbName args => do
      let _ ← Host.dispatch g strArg cbName args
      pure ()

def Host.turns : List (BotTurn φ α) → Prog (Host φ α W) Unit
  | [] => pure ()
  | t :: ts => do
      Host.turn dirPath g strArg t
      Host.turns ts

/-- The files that `get_plugins` loads. -/
def Loaded.start (dirPath : Str) :
    List (DirEntry × Option (SharedObject φ)) → Loaded φ → Loaded φ
  | [], l => l
  | (dir, so) :: entries, l =>
      Loaded.start dirPath entries
        (if dir.accepted then l.load (pluginPath dirPath dir.dName) so else l)

theorem getPlugins_mirrors {entries : List (DirEntry × Option (SharedObject φ))}
    (hbare : ∀ e ∈ entries, FailsBare e.2) {reg : Registry φ} {l : Loaded φ}
    (h : reg.Mirrors l) :
    (getPlugins dirPath entries reg).Mirrors (Loaded.start dirPath entries l) := by
  induction entries generalizing reg l with
  | nil => exact h
  | cons e entries ih =>
      obtain ⟨he, hentries⟩ := List.forall_mem_cons.mp hbare
      rw [getPlugins, Loaded.start]
      split
      · exact ih hentries (h.load _ he)
      · exact ih hentries h

theorem turn_host (t : BotTurn φ α) (ht : t.FailsBare) {b : Bot φ (W × List (Invocation φ α))}
    {s : Host φ α W} (h : SameHost b s) :
    SameEnd SameHost Eq (t.run dirPath g strArg b) (Host.turn dirPath g strArg t s) := by
  cases t with
  | reload name so =>
      exact .ok rfl ⟨h.reg.reload h.paths dirPath name ht,
        nodup_paths_loadNewPlugin h.reg.inv h.paths dirPath name so, h.world, h.log⟩
  | raise cbName args =>
      refine SameEnd.bind (executeCallbacks_host g strArg cbName args h) ?_
      rintro _ _ b' s' - h'
      exact .ok rfl h'

theorem runTurns_host {ts : List (BotTurn φ α)} (hts : ∀ t ∈ ts, t.FailsBare)
    {b : Bot φ (W × List (Invocation φ α))} {s : Host φ α W} (h : SameHost b s) :
    SameEnd SameHost Eq (runTurns dirPath g strArg ts b)
      (Host.turns dirPath g strArg ts s) := by
  induction ts generalizing b s with
  | nil => exact .ok rfl h
  | cons t ts ih =>
      obtain ⟨ht, hrest⟩ := List.forall_mem_cons.mp hts
      refine SameEnd.bind (turn_host dirPath g strArg t ht h) ?_
      rintro _ _ b' s' - h'
      exact ih hrest h'

/-- Where a run starts: the directory has been loaded, and nothing has been
raised yet. -/
theorem sameHost_start {entries : List (DirEntry × Option (SharedObject φ))}
    (hnames : (entries.map (·.1.dName)).Nodup) (hbare : ∀ e ∈ entries, FailsBare e.2) (w : W) :
    SameHost (⟨getPlugins dirPath entries initIndex, (w, [])⟩ :
        Bot φ (W × List (Invocation φ α)))
      ⟨Loaded.start dirPath entries ⟨[], []⟩, w, []⟩ :=
  ⟨getPlugins_mirrors dirPath hbare initIndex_mirrors, nodup_paths_getPlugins hnames, rfl, rfl⟩

end Runs

/-! ## A run -/

section Sample

/-- The callback of the file with handle 3 answers FAIL, the others OK. -/
def failingThird : Behaviour Nat Str Unit :=
  fun code _ w => (if code = 3 then bcircPluginFail else bcircPluginOk, w)

def sampleEntries : List (DirEntry × Option (SharedObject Nat)) :=
  [(⟨ascii "a.so", true⟩, some (reloadedObject 1)),
    (⟨ascii "b.so", true⟩, some (reloadedObject 2))]

theorem failsBare_sampleEntries : ∀ e ∈ sampleEntries, FailsBare e.2 :=
  List.forall_mem_cons.mpr ⟨failsBare_reloadedObject 1,
    List.forall_mem_singleton.mpr (failsBare_reloadedObject 2)⟩

/-- `a.so` is written anew between two events. -/
def sampleTurns : List (BotTurn Nat Str) :=
  [.raise callbackServerRecv [ascii "one"], .reload (ascii "a.so") (some (reloadedObject 3)),
    .raise callbackServerRecv [ascii "two"]]

theorem failsBare_sampleTurns : ∀ t ∈ sampleTurns, t.FailsBare :=
  List.forall_mem_cons.mpr ⟨trivial, List.forall_mem_cons.mpr
    ⟨failsBare_reloadedObject 3, List.forall_mem_singleton.mpr trivial⟩⟩

/-- The new file is called last, and its FAIL takes the file at its place. -/
example : ((endState (Host.turns (ascii "bin") failingThird id sampleTurns
    ⟨Loaded.start (ascii "bin") sampleEntries ⟨[], []⟩, (), []⟩)).log.map
      fun c => c.handler.cbFunc) = [1, 2, 2, 3] := by
  decide +kernel

end Sample

end Bcirc
