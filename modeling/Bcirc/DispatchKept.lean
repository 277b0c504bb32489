import Bcirc.RegistryInv

/-!
# Dispatch that unloads nothing

A callback that answers FAIL costs a plugin its place in `plugin_list`. A
dispatch whose callbacks answer otherwise leaves index and plugins as they
are (`executeCallbacks_kept`); which callbacks these can be is known from
what was registered (`Registry.RegistersOnly`).
-/

namespace Bcirc

open CProg CStr

/-! ## What the index can lead to -/

section Index

variable {φ : Type}

/-- Every callback in the index was registered with an event and a function
that `R` relates. -/
def Registry.RegistersOnly (R : Str → φ → Prop) (reg : Registry φ) : Prop :=
  ∀ cbName, ∀ cb ∈ bucket reg.indexList cbName, R cbName cb.cbFunc

theorem registersOnly_initIndex (R : Str → φ → Prop) : initIndex.RegistersOnly R :=
  fun _ _ hcb => nomatch hcb

theorem registerCallback_registersOnly {R : Str → φ → Prop} {reg : Registry φ}
    (h : reg.RegistersOnly R) {cbName : Option CbName} {cbFunc : Option φ}
    (hR : ∀ name f, cbName = some name → cbFunc = some f → R name.str f) (priority : Int)
    (p : Plugin φ) : (registerCallback cbName cbFunc priority p reg).2.2.RegistersOnly R := by
  match cbName, cbFunc with
  | none, _ => exact h
  | some _, none => exact h
  | some name, some f =>
      intro event cb hcb
      have hcb : cb ∈ bucket (indexCallback ⟨reg.nextSerial, name, f, priority⟩ reg.indexList)
        event := hcb
      rw [bucket_indexCallback] at hcb
      split at hcb
      · rename_i hname
        rcases List.mem_append.mp ((Msort.msort_perm _ _).mem_iff.mp hcb) with hold | hnew
        · exact h event cb hold
        · rw [List.mem_singleton.mp hnew, ← hname]
          exact hR name f rfl rfl
      · exact h event cb hcb

theorem runCalls_registersOnly {R : Str → φ → Prop} {calls : List (RegisterCall φ)}
    (hR : ∀ c ∈ calls, ∀ name f, c.cbName = some name → c.cbFunc = some f → R name f)
    (handle : Nat) (p : Plugin φ) {reg : Registry φ} (h : reg.RegistersOnly R) :
    (runCalls handle calls p reg).2.RegistersOnly R := by
  induction calls generalizing p reg with
  | nil => exact h
  | cons c calls ih =>
      refine ih (fun c hc => hR c (List.mem_cons_of_mem _ hc)) _ ?_
      refine registerCallback_registersOnly h (fun name f hname hf => ?_) c.priority p
      obtain ⟨str, hstr, rfl⟩ := Option.map_eq_some_iff.mp hname
      exact hR c List.mem_cons_self str f hstr hf

theorem loadPlugin_registersOnly {R : Str → φ → Prop} {so : SharedObject φ}
    (hR : ∀ init, so.pluginInit = some init → ∀ c ∈ init.calls, ∀ name f,
      c.cbName = some name → c.cbFunc = some f → R name f)
    (path : Str) {reg : Registry φ} (h : reg.RegistersOnly R) :
    (loadPlugin path (some so) reg).2.RegistersOnly R := by
  unfold loadPlugin
  simp only
  split
  · split
    · exact h
    · rename_i init hinit
      split
      · exact runCalls_registersOnly (hR init hinit) so.handle _ h
      · exact runCalls_registersOnly (hR init hinit) so.handle _ h
  · exact h

end Index

/-! ## Dispatch without FAIL -/

section Dispatch

variable {φ α W : Type}

/-- `plugin_list`, whichever of its plugins are paused. -/
def Registry.plugins (reg : Registry φ) : List (Plugin φ) :=
  reg.pluginList.map fun p => { p with status := .running }

/-- Index and plugins are still those of `reg₀`. -/
structure Kept (reg₀ : Registry φ) (bot : Bot φ W) : Prop where
  index : bot.reg.indexList = reg₀.indexList
  plugins : bot.reg.plugins = reg₀.plugins

theorem pausePlugin_plugins (ptr : Nat) (reg : Registry φ) :
    (pausePlugin ptr reg).plugins = reg.plugins :=
  map_pausePlugin ptr reg fun _ _ => rfl

variable {reg₀ : Registry φ}

theorem afterCallback_kept (i : Nat) {res : Int} (hres : res ≠ bcircPluginFail) :
    Ensures (Kept reg₀ (W := W)) (afterCallback i res) fun _ => True := by
  refine Ensures.ite ?_ ?_
  · intro _
    refine Ensures.ite ?_ ?_
    · -- STOP: the pause is not seen by `plugins`
      intro _
      refine Ensures.get_bind ?_
      intro bot _
      refine Ensures.bind (Ensures.orFault _ fun p _ => trivial) ?_
      intro p _
      refine Ensures.bind (Ensures.modify ?_) fun _ _ => Ensures.pure trivial
      intro bot hbot
      exact ⟨hbot.index, (pausePlugin_plugins p.serial bot.reg).trans hbot.plugins⟩
    · intro _
      rw [if_neg hres]
      exact Ensures.ite (fun _ => Ensures.pure trivial) fun _ => Ensures.pure trivial
  · intro _
    exact Ensures.pure trivial

variable {call : Callback φ → List α → Prog (Bot φ W) Int} {args : List α} {cbName : Str}

theorem callbackLoop_kept {indexPoint : Nat}
    (hindex : getCbIndex reg₀.indexList cbName = some indexPoint)
    (hcall : ∀ cb ∈ bucket reg₀.indexList cbName,
      Ensures (Kept reg₀) (call cb args) (· ≠ bcircPluginFail)) (n i : Nat) :
    Ensures (Kept reg₀) (callbackLoop call indexPoint args n i) fun _ => True := by
  obtain ⟨entry, hentry, -, hbucket⟩ := getCbIndex_some hindex
  induction n generalizing i with
  | zero => exact Ensures.pure trivial
  | succ n ih =>
      refine Ensures.get_bind ?_
      intro bot hbot
      have hread : ∀ cb, bot.reg.callbackAt? indexPoint i = some cb →
          cb ∈ bucket reg₀.indexList cbName := by
        intro cb hcb
        rw [Registry.callbackAt?, hbot.index, hentry] at hcb
        rw [← hbucket]
        exact List.mem_of_getElem? hcb
      refine Ensures.bind (Ensures.orFault _ hread) ?_
      intro cb hcb
      refine Ensures.bind (hcall cb hcb) ?_
      intro res hres
      refine Ensures.bind (afterCallback_kept i hres) ?_
      intro o _
      cases o with
      | some r => exact Ensures.pure trivial
      | none => exact ih (i + 1)

theorem executeBody_kept {strArg : Str → α} {nested : List α → Prog (Bot φ W) Int}
    (hcall : ∀ cb ∈ bucket reg₀.indexList cbName,
      Ensures (Kept reg₀) (call cb args) (· ≠ bcircPluginFail))
    (hnested : ∀ args, Ensures (Kept reg₀) (nested args) fun _ => True) :
    Ensures (Kept reg₀) (executeBody call strArg nested cbName args) fun _ => True := by
  refine Ensures.get_bind ?_
  intro bot hbot
  rw [hbot.index]
  cases hindex : getCbIndex reg₀.indexList cbName with
  | none => exact Ensures.pure trivial
  | some indexPoint =>
      refine Ensures.bind (callbackLoop_kept hindex hcall _ 0) ?_
      intro o _
      cases o with
      | some r => exact Ensures.pure trivial
      | none =>
          refine Ensures.ite ?_ ?_
          · intro _
            exact Ensures.bind (hnested _) fun _ _ => Ensures.pure trivial
          · intro _
            exact Ensures.pure trivial

/-- A dispatch in which no callback answers FAIL, when nothing is registered
for `callback_callbacks_executed`. -/
theorem executeCallbacks_kept {strArg : Str → α}
    (hidle : bucket reg₀.indexList callbackCallbacksExecuted = [])
    (hcall : ∀ cb ∈ bucket reg₀.indexList cbName,
      Ensures (Kept reg₀) (call cb args) (· ≠ bcircPluginFail)) :
    Ensures (Kept reg₀) (executeCallbacks call strArg cbName args) fun _ => True := by
  refine executeBody_kept hcall fun args => executeBody_kept (fun cb hcb => ?_)
    fun _ => Ensures.pure trivial
  rw [hidle] at hcb
  cases hcb

end Dispatch

end Bcirc
