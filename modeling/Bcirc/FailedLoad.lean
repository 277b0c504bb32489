import Bcirc.DispatchActions

/-!
# A load that fails in the plugin's init

`load_plugin` gives up on a plugin whose init does not return OK, but what
the init registered stays in the event index: `LeavesRegistry` holds of
the failed load exactly when the init registered nothing
(`loadPlugin_failed_iff`).

One direction is that a dispatch does not see the allocation counter
(`executeCallbacks_blind`), the other that every registration makes the
bucket of its event longer (`length_bucket_runCalls`).
-/

namespace Bcirc

open CProg CStr

variable {φ α W : Type}

/-! ## Dispatch does not see the allocation counter -/

def withSerial (next : Nat) (s : Bot φ W) : Bot φ W :=
  { s with reg := { s.reg with nextSerial := next } }

theorem afterCallback_blind (next i : Nat) (res : Int) :
    Blind (withSerial next) (afterCallback i res : Prog (Bot φ W) (Option Int)) := by
  unfold afterCallback
  split
  · split
    · refine .get_bind (fun _ => rfl) fun s => .bind (.orFault _ _) fun p => ?_
      exact .bind (.modify fun _ => rfl) fun _ => .pure _
    · split
      · refine .get_bind (fun _ => rfl) fun s => .bind (.orFault _ _) fun p => ?_
        exact .bind (.modify fun _ => rfl) fun _ => .pure _
      · split <;> exact .pure _
  · exact .pure _

section Blind

variable (f : Answer φ α W) (strArg : Str → α)

theorem callbackLoop_blind (next indexPoint : Nat) (args : List α) (n i : Nat) :
    Blind (withSerial next) (callbackLoop (traced f) indexPoint args n i) := by
  induction n generalizing i with
  | zero => exact .pure _
  | succ n ih =>
      rw [callbackLoop]
      refine .get_bind (fun _ => rfl) fun s => .bind (.orFault _ _) fun cb => ?_
      refine .bind (fun _ => rfl) fun res => .bind (afterCallback_blind next i res) fun o => ?_
      cases o with
      | some r => exact .pure _
      | none => exact ih (i + 1)

theorem executeBody_blind {next : Nat}
    {nested : List α → Prog (Bot φ (W × List (Invocation φ α))) Int}
    (hnested : ∀ args, Blind (withSerial next) (nested args)) (cbName : Str)
    (args : List α) :
    Blind (withSerial next) (executeBody (traced f) strArg nested cbName args) := by
  unfold executeBody
  refine .get_bind (fun _ => rfl) fun s => ?_
  split
  · exact .pure _
  · refine .bind (callbackLoop_blind f next _ args _ 0) fun o => ?_
    cases o with
    | some r => exact .pure _
    | none =>
        simp only
        split
        · exact .bind (hnested _) fun _ => .pure _
        · exact .pure _

theorem executeCallbacks_blind (next : Nat) (cbName : Str) (args : List α) :
    Blind (withSerial next) (executeCallbacks (traced f) strArg cbName args) :=
  executeBody_blind f strArg (executeBody_blind f strArg (fun _ => .pure _) _) cbName args

end Blind

theorem getCbIndex_of_bucket_ne_nil {indexList : List (CallbackIndex φ)} {cbName : Str}
    (h : bucket indexList cbName ≠ []) : getCbIndex indexList cbName ≠ none :=
  fun hnone => h (bucket_of_getCbIndex_none hnone)

/-! ## The failed load -/

/-- The load of `so` fails with `-4` and leaves the registry as it was: the
plugins, their number, and what every dispatch invokes. -/
def LeavesRegistry (path : Str) (so : SharedObject φ) (reg : Registry φ) : Prop :=
  (loadPlugin path (some so) reg).1 = -4 ∧
    (loadPlugin path (some so) reg).2.pluginList = reg.pluginList ∧
    (loadPlugin path (some so) reg).2.pluginCount = reg.pluginCount ∧
    ∀ (α W : Type) (f : Answer φ α W) (strArg : Str → α) (cbName : Str) (args : List α) (w : W),
      (endState (executeCallbacks (traced f) strArg cbName args
        ⟨(loadPlugin path (some so) reg).2, (w, [])⟩)).world.2 =
      (endState (executeCallbacks (traced f) strArg cbName args ⟨reg, (w, [])⟩)).world.2

/-- A plugin with every symbol, whose init registers `calls`. -/
def failingObject (handle : Nat) (author name version : Str) (calls : List (RegisterCall φ))
    (result : Int) : SharedObject φ :=
  ⟨handle, some author, some name, some version, some ⟨calls, result⟩⟩

/-- The number of invocations when every callback answers OK. -/
theorem length_log_ok (reg : Registry φ) (cbName : Str) (args : List Str) :
    (endState (executeCallbacks (traced (answering bcircPluginOk)) id cbName args
        ⟨reg, ((), [])⟩)).world.2.length =
      (bucket reg.indexList cbName).length +
        if cbName = callbackCallbacksExecuted ∨ getCbIndex reg.indexList cbName = none then 0
        else (bucket reg.indexList callbackCallbacksExecuted).length := by
  rw [executeCallbacks_ok]
  split <;> simp

/-- A registration shows in the next dispatch of its event. -/
theorem length_log_runCalls (handle : Nat) {calls : List (RegisterCall φ)} {c : RegisterCall φ}
    (hc : c ∈ calls) {cbName : Str} (hregisters : c.registers cbName) (p : Plugin φ)
    (reg : Registry φ) (args : List Str) :
    (endState (executeCallbacks (traced (answering bcircPluginOk)) id cbName args
        ⟨reg, ((), [])⟩)).world.2.length <
      (endState (executeCallbacks (traced (answering bcircPluginOk)) id cbName args
        ⟨(runCalls handle calls p reg).2, ((), [])⟩)).world.2.length := by
  have hcount : 0 < calls.countP (·.registers cbName) :=
    List.countP_pos_iff.mpr ⟨c, hc, hregisters⟩
  have hown := length_bucket_runCalls handle calls p reg cbName
  have hnote := length_bucket_runCalls handle calls p reg callbackCallbacksExecuted
  have hknown : getCbIndex (runCalls handle calls p reg).2.indexList cbName ≠ none :=
    getCbIndex_of_bucket_ne_nil (List.length_pos_iff.mp (by omega))
  rw [length_log_ok, length_log_ok]
  by_cases hlast : cbName = callbackCallbacksExecuted
  · simp only [hlast, true_or, if_true] at hown hcount ⊢
    omega
  · simp only [hlast, hknown, or_self, if_false, false_or]
    split
    · omega
    · omega

theorem loadPlugin_failed_iff (path : Str) (reg : Registry φ) (handle : Nat)
    (author name version : Str) (calls : List (RegisterCall φ)) {result : Int}
    (hresult : result ≠ bcircPluginOk) :
    LeavesRegistry path (failingObject handle author name version calls result) reg ↔
      ∀ c ∈ calls, c.cbName = none ∨ c.cbFunc = none := by
  have hload : loadPlugin path
      (some (failingObject handle author name version calls result)) reg =
      (-4, (runCalls handle calls
        ⟨reg.nextSerial, handle, name, version, author, path, .running, []⟩
        { reg with nextSerial := reg.nextSerial + 1 }).2) := by
    simp only [loadPlugin, failingObject, if_pos hresult]
  unfold LeavesRegistry
  rw [hload]
  constructor
  · rintro ⟨-, -, -, hsame⟩ c hc
    by_contra hvalid
    rw [not_or] at hvalid
    obtain ⟨cbName, hname⟩ := Option.ne_none_iff_exists'.mp hvalid.1
    obtain ⟨cbFunc, hfunc⟩ := Option.ne_none_iff_exists'.mp hvalid.2
    have hregisters : c.registers cbName := by
      simp [RegisterCall.registers, hname, hfunc]
    have hlonger := length_log_runCalls handle hc hregisters
      ⟨reg.nextSerial, handle, name, version, author, path, .running, []⟩
      { reg with nextSerial := reg.nextSerial + 1 } []
    have hlen := congrArg List.length
      (hsame Str Unit (answering bcircPluginOk) id cbName [] ())
    rw [hlen, length_log_ok, length_log_ok] at hlonger
    exact absurd hlonger (Nat.lt_irrefl _)
  · intro hnone
    rw [runCalls_of_none hnone]
    refine ⟨rfl, rfl, rfl, ?_⟩
    intro α W f strArg cbName args w
    have hblind := executeCallbacks_blind f strArg (reg.nextSerial + 1) cbName args
      ⟨reg, (w, [])⟩
    rw [withSerial] at hblind
    rw [hblind, endState_mapState]
    rfl

/-- An init that registers one callback and then fails. -/
def failingSample : SharedObject Nat :=
  failingObject 3 (ascii "author") (ascii "name") (ascii "0.1")
    [⟨some callbackServerRecv, some 30, 1⟩] bcircPluginFail

theorem loadPlugin_failed_iff_sample :
    LeavesRegistry (ascii "c.so") (failingObject 3 (ascii "author") (ascii "name")
      (ascii "0.1") [⟨none, some 30, 1⟩] bcircPluginFail) sampleRegistry :=
  (loadPlugin_failed_iff (ascii "c.so") sampleRegistry 3 (ascii "author") (ascii "name")
    (ascii "0.1") [⟨none, some 30, 1⟩] (by decide)).mpr (by simp)

/-- The orphan is invoked by the next dispatch. -/
theorem not_leavesRegistry_sample :
    ¬ LeavesRegistry (ascii "c.so") failingSample sampleRegistry := by
  rintro ⟨-, -, -, hsame⟩
  have hlen := congrArg List.length
    (hsame Str Unit (answering bcircPluginOk) id callbackServerRecv [] ())
  revert hlen
  decide +kernel

end Bcirc
