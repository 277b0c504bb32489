import Bcirc.Dispatch
import Bcirc.NameOwners

/-!
# Names in images that are gone

The name of a bucket is a string in the image of the plugin that was the
first to register for its event. Once `remove_plugin` has closed that image
with `dlclose`, `strcmp` reads memory that is no longer mapped, and that is
the end of the process. `getCbIndex` takes names as values; `readCbIndex`
reads them where they are, and finds the same as long as all the names it
compares are mapped (`readCbIndex_of_mapped`). `executeCallbacksMapped` is
the dispatcher with that lookup. The name of the event that is raised is a
string of some image as well; it is compared and copied once more after the
loop, in which that image may have been closed.

A load that fails after `dlopen` never closes its image: `leaked` are the
images that such loads have left open, and that of the program itself.
-/

namespace Bcirc

open CProg CStr

variable {φ α W : Type}

/-! ## The lookup -/

def Registry.mapped (reg : Registry φ) (leaked : List Nat) (image : Nat) : Bool :=
  (reg.images ++ leaked).contains image

/-- `get_cb_index`, with a fault for a name that is not mapped. -/
def readCbIndex (mapped : Nat → Bool) :
    List (CallbackIndex φ) → Str → Except Fault (Option Nat)
  | [], _ => .ok none
  | entry :: indexList, cbName =>
      if mapped entry.cbName.image then
        if entry.cbName.str == cbName then .ok (some 0)
        else do
          let i ← readCbIndex mapped indexList cbName
          pure (i.map (· + 1))
      else .error .outOfBounds

/-- The names that a lookup compares, up to the one it finds. -/
def compared (cbName : Str) : List CbName → List CbName
  | [] => []
  | name :: names => if name.str == cbName then [name] else name :: compared cbName names

def NamesMapped (mapped : Nat → Bool) (names : List CbName) (cbName : Str) : Prop :=
  ∀ name ∈ compared cbName names, mapped name.image = true

instance (mapped : Nat → Bool) (names : List CbName) (cbName : Str) :
    Decidable (NamesMapped mapped names cbName) :=
  inferInstanceAs (Decidable (∀ name ∈ compared cbName names, mapped name.image = true))

/-- What the notification of an event reads: the event's name, a string of
`image`, and the names that its own lookup compares. -/
structure NoteMapped (mapped : Nat → Bool) (names : List CbName) (image : Nat) : Prop where
  event : mapped image = true
  note : NamesMapped mapped names callbackCallbacksExecuted

section Lookup

variable {mapped : Nat → Bool} {cbName : Str}

theorem namesMapped_cons {name : CbName} {names : List CbName} :
    NamesMapped mapped (name :: names) cbName ↔
      mapped name.image = true ∧ (name.str ≠ cbName → NamesMapped mapped names cbName) := by
  unfold NamesMapped
  rw [compared]
  by_cases hname : name.str = cbName
  · simp [hname]
  · simp [hname]

theorem readCbIndex_of_mapped {indexList : List (CallbackIndex φ)}
    (h : NamesMapped mapped (indexNames indexList) cbName) :
    readCbIndex mapped indexList cbName = .ok (getCbIndex indexList cbName) := by
  induction indexList with
  | nil => rfl
  | cons entry indexList ih =>
      obtain ⟨hentry, hrest⟩ := namesMapped_cons.mp h
      rw [readCbIndex, if_pos hentry, getCbIndex, List.findIdx?_cons]
      by_cases hname : entry.cbName.str = cbName
      · simp [hname]
      · have hne : ¬ (entry.cbName.str == cbName) = true := by simpa using hname
        rw [if_neg hne, if_neg hne, ih (hrest hname)]
        rfl

theorem readCbIndex_of_not_mapped {indexList : List (CallbackIndex φ)}
    (h : ¬ NamesMapped mapped (indexNames indexList) cbName) :
    readCbIndex mapped indexList cbName = .error .outOfBounds := by
  induction indexList with
  | nil => exact absurd (fun _ hname => by cases hname) h
  | cons entry indexList ih =>
      rw [readCbIndex]
      by_cases hentry : mapped entry.cbName.image = true
      · rw [if_pos hentry]
        have hrest : ¬ (entry.cbName.str ≠ cbName →
            NamesMapped mapped (indexNames indexList) cbName) :=
          fun hrest => h (namesMapped_cons.mpr ⟨hentry, hrest⟩)
        obtain ⟨hname, hnot⟩ := Classical.not_imp.mp hrest
        have hne : ¬ (entry.cbName.str == cbName) = true := by simpa using hname
        rw [if_neg hne, ih hnot]
        rfl
      · rw [if_neg hentry]

theorem mem_of_mem_compared {name : CbName} {names : List CbName}
    (h : name ∈ compared cbName names) : name ∈ names := by
  induction names with
  | nil => exact h
  | cons first names ih =>
      rw [compared] at h
      split at h
      · rw [List.mem_singleton.mp h]
        exact List.mem_cons_self
      · rcases List.mem_cons.mp h with rfl | h
        · exact List.mem_cons_self
        · exact List.mem_cons_of_mem _ (ih h)

/-- Names that all have an owner are mapped, whatever else is. -/
theorem NamesOwned.namesMapped {reg : Registry φ} (h : NamesOwned reg) (leaked : List Nat)
    (cbName : Str) : NamesMapped (reg.mapped leaked) reg.names cbName := fun name hname =>
  List.contains_iff_mem.mpr (List.mem_append_left _ (h name (mem_of_mem_compared hname)))

end Lookup

/-! ## The dispatcher -/

section Dispatch

variable (leaked : List Nat) (call : Callback φ → List α → Prog (Bot φ W) Int) (strArg : Str → α)

/-- The lookup reads the names; then it is the body of `execute_callbacks`. -/
def executeBodyMapped (nested : List α → Prog (Bot φ W) Int) (cbName : Str) (args : List α) :
    Prog (Bot φ W) Int := do
  let bot ← get
  let _ ← liftExcept (readCbIndex (bot.reg.mapped leaked) bot.reg.indexList cbName)
  executeBody call strArg nested cbName args

/-- The end of `execute_callbacks`, from `strcmp` with the event's name on. -/
def notifyMapped (image : Nat) (args : List α) : Prog (Bot φ W) Int := do
  let bot ← get
  let _ ← orFault .outOfBounds (if bot.reg.mapped leaked image then some () else none)
  executeBodyMapped leaked call strArg (fun _ => pure bcircPluginOk) callbackCallbacksExecuted args

/-- `execute_callbacks`, for a name that the code which raises the event
still has when it does. -/
def executeCallbacksMapped (cbName : CbName) (args : List α) : Prog (Bot φ W) Int :=
  executeBodyMapped leaked call strArg (notifyMapped leaked call strArg cbName.image) cbName.str
    args

variable {leaked call strArg} {nested : List α → Prog (Bot φ W) Int} {args : List α}
  {s : Bot φ W}

theorem executeBodyMapped_of_mapped {cbName : Str}
    (h : NamesMapped (s.reg.mapped leaked) s.reg.names cbName) :
    executeBodyMapped leaked call strArg nested cbName args s =
      executeBody call strArg nested cbName args s := by
  rw [executeBodyMapped, get_bind_run, readCbIndex_of_mapped h, liftExcept_ok, pure_bind_run]

theorem executeBodyMapped_of_not_mapped {cbName : Str}
    (h : ¬ NamesMapped (s.reg.mapped leaked) s.reg.names cbName) :
    executeBodyMapped leaked call strArg nested cbName args s = .error .outOfBounds s := by
  rw [executeBodyMapped, get_bind_run, readCbIndex_of_not_mapped h, liftExcept_error]
  rfl

theorem notifyMapped_of_mapped {image : Nat}
    (h : NoteMapped (s.reg.mapped leaked) s.reg.names image) :
    notifyMapped leaked call strArg image args s =
      executeBody call strArg (fun _ => pure bcircPluginOk) callbackCallbacksExecuted args s := by
  rw [notifyMapped, get_bind_run, if_pos h.event, orFault_some, pure_bind_run,
    executeBodyMapped_of_mapped h.note]

theorem notifyMapped_of_not_mapped {image : Nat}
    (h : ¬ NoteMapped (s.reg.mapped leaked) s.reg.names image) :
    notifyMapped leaked call strArg image args s = .error .outOfBounds s := by
  rw [notifyMapped, get_bind_run]
  by_cases hevent : s.reg.mapped leaked image = true
  · rw [if_pos hevent, orFault_some, pure_bind_run,
      executeBodyMapped_of_not_mapped fun hnote => h ⟨hevent, hnote⟩]
  · rw [if_neg hevent, orFault_none]
    rfl

theorem returned_notifyMapped {image : Nat} :
    returned (notifyMapped leaked call strArg image args s) ↔
      NoteMapped (s.reg.mapped leaked) s.reg.names image ∧
        returned (executeBody call strArg (fun _ => pure bcircPluginOk) callbackCallbacksExecuted
          args s) := by
  by_cases h : NoteMapped (s.reg.mapped leaked) s.reg.names image
  · rw [notifyMapped_of_mapped h, and_iff_right h]
  · rw [notifyMapped_of_not_mapped h]
    exact iff_of_false Bool.false_ne_true fun hboth => h hboth.1

end Dispatch

/-! ## Dispatches that unload nothing -/

section Quiet

variable {leaked : List Nat} (f : Answer φ α W) (strArg : Str → α)

theorem notifyMapped_log_extends (image : Nat) (args : List α)
    (s : Bot φ (W × List (Invocation φ α))) :
    s.world.2 <+:
      (endState (notifyMapped leaked (traced f) strArg image args s)).world.2 := by
  by_cases h : NoteMapped (s.reg.mapped leaked) s.reg.names image
  · rw [notifyMapped_of_mapped h]
    exact executeBody_log_extends f strArg (fun _ _ => List.prefix_refl _) _ args s
  · rw [notifyMapped_of_not_mapped h]
    exact List.prefix_refl _

variable {reg : Registry φ} {cbName : CbName} {args : List α} {w : W}
  (hmapped : NamesMapped (reg.mapped leaked) reg.names cbName.str)

include hmapped

/-- The event's own walk shows in the log. -/
theorem quiet_of_mapped
    (hquiet : Quiet (endState (executeCallbacksMapped leaked (traced f) strArg cbName args
      ⟨reg, (w, [])⟩)).world.2) :
    Quiet (invocations f args (bucket reg.indexList cbName.str) w).1 := by
  by_contra hnoisy
  rw [executeCallbacksMapped, executeBodyMapped_of_mapped hmapped] at hquiet
  exact executeBody_noisy f strArg (notifyMapped_log_extends f strArg cbName.image) cbName.str args
    reg w [] hnoisy hquiet

/-- With the names mapped for the event and the notification it is the
dispatcher of the plugin handler. -/
theorem executeCallbacksMapped_of_quiet
    (hnote : NoteMapped (reg.mapped leaked) reg.names cbName.image)
    (hown : Quiet (invocations f args (bucket reg.indexList cbName.str) w).1) :
    executeCallbacksMapped leaked (traced f) strArg cbName args ⟨reg, (w, [])⟩ =
      executeCallbacks (traced f) strArg cbName.str args ⟨reg, (w, [])⟩ := by
  rw [executeCallbacksMapped, executeBodyMapped_of_mapped hmapped, executeCallbacks,
    executeBody_quiet f strArg _ cbName.str args reg w [] hown,
    executeBody_quiet f strArg _ cbName.str args reg w [] hown]
  exact if_congr Iff.rfl rfl
    (if_congr Iff.rfl rfl (bind_congr_run (notifyMapped_of_mapped hnote)))

/-- The names are mapped for the event only: no callback is called for the
notification. -/
theorem executeCallbacksMapped_of_not_note
    (hnote : ¬ NoteMapped (reg.mapped leaked) reg.names cbName.image)
    (hown : Quiet (invocations f args (bucket reg.indexList cbName.str) w).1) :
    (endState (executeCallbacksMapped leaked (traced f) strArg cbName args
        ⟨reg, (w, [])⟩)).world =
      ((invocations f args (bucket reg.indexList cbName.str) w).2,
        (invocations f args (bucket reg.indexList cbName.str) w).1) := by
  rw [executeCallbacksMapped, executeBodyMapped_of_mapped hmapped,
    executeBody_quiet f strArg _ cbName.str args reg w [] hown]
  simp only [List.nil_append]
  split
  · rfl
  · split
    · rfl
    · rw [bind_error (notifyMapped_of_not_mapped hnote)]
      rfl

end Quiet

end Bcirc
