import Bcirc.Dispatch
import Bcirc.DispatchKept

/-!
# Dispatch keeps an invariant

Whatever the callbacks of an event keep, a dispatch of the event keeps,
the actions of the dispatcher on plugins included. Removing and pausing
leave the names of the index in their places and lead to no new callback
(`Routed`).
-/

namespace Bcirc

open CProg CStr

variable {φ α W : Type}

/-! ## An index whose names stay -/

/-- The index has these names, and leads to functions that `R` allows. -/
structure Routed (R : Str → φ → Prop) (names : List CbName) (reg : Registry φ) : Prop where
  names : reg.names = names
  only : reg.RegistersOnly R

theorem getCbIndex_congr {l l' : List (CallbackIndex φ)} (h : indexNames l = indexNames l')
    (cbName : Str) : getCbIndex l cbName = getCbIndex l' cbName := by
  have hfind : ∀ l : List (CallbackIndex φ),
      getCbIndex l cbName = (indexNames l).findIdx? fun name => name.str == cbName := by
    intro l
    rw [indexNames, List.findIdx?_map]
    rfl
  rw [hfind, hfind, h]

theorem bucket_removePlugin_sublist (ptr : Nat) (reg : Registry φ) (cbName : Str) :
    (bucket (removePlugin ptr reg).indexList cbName).Sublist (bucket reg.indexList cbName) := by
  unfold removePlugin
  simp only
  generalize reg.pluginList.filter (fun p => p.serial == ptr) = removed
  generalize reg.indexList = indexList
  induction removed generalizing indexList with
  | nil => exact List.Sublist.refl _
  | cons p removed ih =>
      refine (ih _).trans ?_
      rw [bucket_foldl_removeIndex]
      exact List.filter_sublist

theorem Routed.remove {R : Str → φ → Prop} {names : List CbName} {reg : Registry φ}
    (h : Routed R names reg) (ptr : Nat) : Routed R names (removePlugin ptr reg) where
  names := (names_removePlugin ptr reg).trans h.names
  only cbName cb hcb := h.only cbName cb ((bucket_removePlugin_sublist ptr reg cbName).subset hcb)

theorem Routed.pause {R : Str → φ → Prop} {names : List CbName} {reg : Registry φ}
    (h : Routed R names reg) (ptr : Nat) : Routed R names (pausePlugin ptr reg) :=
  ⟨h.names, h.only⟩

/-! ## The rule -/

/-- `I` knows the names of the index, and outlives pauses and removals. -/
structure DispatchInv (R : Str → φ → Prop) (names : List CbName) (I : Bot φ W → Prop) :
    Prop where
  routed : ∀ bot, I bot → Routed R names bot.reg
  pause : ∀ bot ptr, I bot → I { bot with reg := pausePlugin ptr bot.reg }
  remove : ∀ bot ptr, I bot → I { bot with reg := removePlugin ptr bot.reg }

variable {R : Str → φ → Prop} {names : List CbName} {I : Bot φ W → Prop}

theorem DispatchInv.afterCallback (h : DispatchInv R names I) (i : Nat) (res : Int) :
    Ensures I (afterCallback i res) fun _ => True := by
  refine Ensures.ite ?_ ?_
  · intro _
    refine Ensures.ite ?_ ?_
    · intro _
      refine Ensures.get_bind fun bot _ => ?_
      refine Ensures.bind (Ensures.orFault _ fun p _ => trivial) fun p (_ : True) => ?_
      exact Ensures.bind (Ensures.modify fun bot hbot => h.pause bot p.serial hbot)
        fun _ _ => Ensures.pure trivial
    · intro _
      refine Ensures.ite ?_ ?_
      · intro _
        refine Ensures.get_bind fun bot _ => ?_
        refine Ensures.bind (Ensures.orFault _ fun p _ => trivial) fun p (_ : True) => ?_
        exact Ensures.bind (Ensures.modify fun bot hbot => h.remove bot p.serial hbot)
          fun _ _ => Ensures.pure trivial
      · intro _
        exact Ensures.ite (fun _ => Ensures.pure trivial) fun _ => Ensures.pure trivial
  · intro _
    exact Ensures.pure trivial

variable {call : Callback φ → List α → Prog (Bot φ W) Int} {args : List α} {cbName : Str}

theorem DispatchInv.callbackLoop (h : DispatchInv R names I) {indexPoint : Nat}
    (hindex : ∀ bot, I bot → getCbIndex bot.reg.indexList cbName = some indexPoint)
    (hcall : ∀ cb, R cbName cb.cbFunc → Ensures I (call cb args) fun _ => True) (n i : Nat) :
    Ensures I (callbackLoop call indexPoint args n i) fun _ => True := by
  induction n generalizing i with
  | zero => exact Ensures.pure trivial
  | succ n ih =>
      refine Ensures.get_bind fun bot hbot => ?_
      have hread : ∀ cb, bot.reg.callbackAt? indexPoint i = some cb → R cbName cb.cbFunc := by
        intro cb hcb
        obtain ⟨entry, hentry, -, hbucket⟩ := getCbIndex_some (hindex bot hbot)
        rw [Registry.callbackAt?, hentry] at hcb
        have hmem : cb ∈ entry.callbacks := List.mem_of_getElem? hcb
        exact (h.routed bot hbot).only cbName cb (hbucket ▸ hmem)
      refine Ensures.bind (Ensures.orFault _ hread) fun cb hcb => ?_
      refine Ensures.bind (hcall cb hcb) fun res _ => ?_
      refine Ensures.bind (h.afterCallback i res) fun o _ => ?_
      cases o with
      | some r => exact Ensures.pure trivial
      | none => exact ih (i + 1)

theorem DispatchInv.executeBody (h : DispatchInv R names I) {strArg : Str → α}
    {nested : List α → Prog (Bot φ W) Int}
    (hcall : ∀ cb, R cbName cb.cbFunc → Ensures I (call cb args) fun _ => True)
    (hnested : ∀ args, Ensures I (nested args) fun _ => True) :
    Ensures I (executeBody call strArg nested cbName args) fun _ => True := by
  refine Ensures.get_bind fun bot hbot => ?_
  cases hindex : getCbIndex bot.reg.indexList cbName with
  | none => exact Ensures.pure trivial
  | some indexPoint =>
      have hstays : ∀ bot', I bot' →
          getCbIndex bot'.reg.indexList cbName = some indexPoint := by
        intro bot' hbot'
        rw [← hindex]
        exact getCbIndex_congr
          ((h.routed bot' hbot').names.trans (h.routed bot hbot).names.symm) cbName
      refine Ensures.bind (h.callbackLoop hstays hcall _ 0) fun o _ => ?_
      cases o with
      | some r => exact Ensures.pure trivial
      | none =>
          refine Ensures.ite ?_ ?_
          · intro _
            exact Ensures.bind (hnested _) fun _ _ => Ensures.pure trivial
          · intro _
            exact Ensures.pure trivial

/-- A dispatch keeps what its callbacks keep, when nothing may be registered
for `callback_callbacks_executed`. -/
theorem DispatchInv.executeCallbacks (h : DispatchInv R names I) {strArg : Str → α}
    (hidle : ∀ f, ¬ R callbackCallbacksExecuted f)
    (hcall : ∀ cb, R cbName cb.cbFunc → Ensures I (call cb args) fun _ => True) :
    Ensures I (executeCallbacks call strArg cbName args) fun _ => True :=
  h.executeBody hcall fun _ => h.executeBody (fun cb hcb => absurd hcb (hidle cb.cbFunc))
    fun _ => Ensures.pure trivial

/-! ## What the registry does not matter for -/

section World

variable {J : W → Prop}

theorem afterCallback_keeps (i : Nat) (res : Int) :
    Ensures (fun bot : Bot φ W => J bot.world) (afterCallback i res) fun _ => True := by
  intro bot hbot
  have hend : J (endState (Bcirc.afterCallback i res bot)).world := by
    rw [afterCallback_world]
    exact hbot
  exact ⟨hend, fun _ _ _ => trivial⟩

theorem callbackLoop_keeps (indexPoint : Nat)
    (hcall : ∀ cb, Ensures (fun bot => J bot.world) (call cb args) fun _ => True) (n i : Nat) :
    Ensures (fun bot => J bot.world) (callbackLoop call indexPoint args n i) fun _ => True := by
  induction n generalizing i with
  | zero => exact Ensures.pure trivial
  | succ n ih =>
      refine Ensures.get_bind fun bot _ => ?_
      refine Ensures.bind (Ensures.orFault _ fun cb _ => trivial) fun cb (_ : True) => ?_
      refine Ensures.bind (hcall cb) fun res _ => ?_
      refine Ensures.bind (afterCallback_keeps i res) fun o _ => ?_
      cases o with
      | some r => exact Ensures.pure trivial
      | none => exact ih (i + 1)

theorem executeBody_keeps {strArg : Str → α} {nested : List α → Prog (Bot φ W) Int}
    (hcall : ∀ cb, Ensures (fun bot => J bot.world) (call cb args) fun _ => True)
    (hnested : Ensures (fun bot => J bot.world) (nested (args ++ [strArg cbName]))
      fun _ => True) :
    Ensures (fun bot => J bot.world) (executeBody call strArg nested cbName args)
      fun _ => True := by
  refine Ensures.get_bind fun bot _ => ?_
  cases getCbIndex bot.reg.indexList cbName with
  | none => exact Ensures.pure trivial
  | some indexPoint =>
      refine Ensures.bind (callbackLoop_keeps indexPoint hcall _ 0) fun o _ => ?_
      cases o with
      | some r => exact Ensures.pure trivial
      | none =>
          refine Ensures.ite ?_ ?_
          · intro _
            exact Ensures.bind hnested fun _ _ => Ensures.pure trivial
          · intro _
            exact Ensures.pure trivial

/-- What every function keeps of the world, called with the arguments of the
event or with those of its notification, any dispatch keeps. -/
theorem executeCallbacks_keeps {strArg : Str → α}
    (hcall : ∀ cb, Ensures (fun bot => J bot.world) (call cb args) fun _ => True)
    (hnote : ∀ cb, Ensures (fun bot => J bot.world) (call cb (args ++ [strArg cbName]))
      fun _ => True) :
    Ensures (fun bot => J bot.world) (executeCallbacks call strArg cbName args)
      fun _ => True := by
  refine executeBody_keeps hcall ?_
  exact executeBody_keeps hnote (Ensures.pure trivial)

end World

end Bcirc
