import Bcirc.Dispatch

/-!
# Which callbacks an event reaches, and in which order

`InvokesRegistered` is what a dispatch is for: of the event's own
callbacks it invokes those that the loaded plugins registered, each once
and with the same arguments, by priority and among equals by age, until
one answers BREAK. The notification `callback_callbacks_executed` is a
dispatch of its own and comes after, to that event's callbacks only.

The theorem is for every history of loads and removals: the registry
invariant says what a bucket holds (`RegistryInv`), and the walk along a
bucket is the run of the loop (`Dispatch`).
-/

namespace Bcirc

open CProg CStr

variable {φ α W : Type}

/-- The run of `execute_callbacks(cbName, args)` from `reg` serves exactly
the callbacks registered for `cbName`. -/
def InvokesRegistered (f : Answer φ α W) (strArg : Str → α) (reg : Registry φ)
    (cbName : Str) (args : List α) (w : W) : Prop :=
  ∃ (order : List (Callback φ)) (own note : List (Invocation φ α)) (res : Int) (w' : W),
    executeCallbacks (traced f) strArg cbName args ⟨reg, (w, [])⟩ =
        .ok res ⟨reg, (w', own ++ note)⟩ ∧
      order.Perm (reg.registeredFor cbName) ∧
      order.Pairwise Before ∧
      UpToBreak args order own ∧
      (res = bcircPluginFail ↔ ∃ inv ∈ own, inv.res = bcircPluginBreak) ∧
      ∀ inv ∈ note, cbName ≠ callbackCallbacksExecuted ∧
        inv.cb.cbName.str = callbackCallbacksExecuted ∧ inv.args = args ++ [strArg cbName]

theorem mem_of_mem_invocations {f : Answer φ α W} {args : List α}
    {order : List (Callback φ)} {w : W} {inv : Invocation φ α}
    (h : inv ∈ (invocations f args order w).1) : inv.cb ∈ order ∧ inv.args = args := by
  induction order generalizing w with
  | nil => simp [invocations] at h
  | cons cb rest ih =>
      rw [invocations] at h
      split at h
      · obtain rfl := List.mem_singleton.mp h
        exact ⟨List.mem_cons_self, rfl⟩
      · rcases List.mem_cons.mp h with rfl | h
        · exact ⟨List.mem_cons_self, rfl⟩
        · exact ⟨List.mem_cons_of_mem _ (ih h).1, (ih h).2⟩

/-- The notification only reaches callbacks registered for it. -/
theorem notified_mem {f : Answer φ α W} {strArg : Str → α} {reg : Registry φ}
    (h : reg.Inv []) {cbName : Str} {args : List α} {w : W} {inv : Invocation φ α}
    (hinv : inv ∈ (notified f strArg reg cbName args w).1) :
    cbName ≠ callbackCallbacksExecuted ∧ inv.cb.cbName.str = callbackCallbacksExecuted ∧
      inv.args = args ++ [strArg cbName] := by
  unfold notified at hinv
  split at hinv
  · cases hinv
  · rename_i hlast
    obtain ⟨hcb, hargs⟩ := mem_of_mem_invocations hinv
    exact ⟨fun heq => hlast (Or.inl heq), (h.index.mem_bucket.mp hcb).2, hargs⟩

theorem executeCallbacks_invokesRegistered {reg : Registry φ} (hreg : Managed reg)
    (f : Answer φ α W) (strArg : Str → α) (cbName : Str) (args : List α) (w : W)
    (hquiet : Quiet (endState
      (executeCallbacks (traced f) strArg cbName args ⟨reg, (w, [])⟩)).world.2) :
    InvokesRegistered f strArg reg cbName args w := by
  have hinv := hreg.inv
  have hrun := executeCallbacks_of_quiet_log f strArg reg cbName args w hquiet
  have hwalk := upToBreak_invocations f args (bucket reg.indexList cbName) w
  unfold dispatched at hrun
  by_cases hres : loopResult (invocations f args (bucket reg.indexList cbName) w).1 ≠ none
  · -- one broke: the call returns FAIL and nothing is notified
    simp only [if_pos hres] at hrun
    refine ⟨bucket reg.indexList cbName, _, [], bcircPluginFail, _,
      by rw [List.append_nil]; exact hrun, hinv.bucket_perm cbName,
      hinv.index.sorted cbName, hwalk, ?_, fun _ hnone => nomatch hnone⟩
    obtain ⟨r, hr⟩ := Option.ne_none_iff_exists'.mp hres
    exact iff_of_true rfl (loopResult_eq_some.mp hr).2
  · simp only [if_neg hres] at hrun
    refine ⟨bucket reg.indexList cbName, _, _, bcircPluginOk, _, hrun,
      hinv.bucket_perm cbName, hinv.index.sorted cbName, hwalk, ?_,
      fun inv hnote => notified_mem hinv hnote⟩
    have hnone := loopResult_eq_none.mp (not_not.mp hres)
    exact iff_of_false (by decide) fun ⟨inv, hmem, hbreak⟩ => hnone inv hmem hbreak

/-! ## A registry to run on -/

section Sample

def sampleFirst : SharedObject Nat :=
  sampleObject 1 [⟨some callbackServerRecv, some 10, 5⟩, ⟨some callbackGotPrivmsg, some 11, 5⟩,
    ⟨some callbackServerRecv, some 12, 5⟩] bcircPluginOk

def sampleSecond : SharedObject Nat :=
  sampleObject 2 [⟨some callbackServerRecv, some 20, 3⟩,
    ⟨some callbackCallbacksExecuted, some 21, 0⟩] bcircPluginOk

def sampleRegistry : Registry Nat :=
  (loadPlugin (ascii "b.so") (some sampleSecond)
    (loadPlugin (ascii "a.so") (some sampleFirst) initIndex).2).2

theorem sampleRegistry_managed : Managed sampleRegistry :=
  .load _ _ (.load _ _ .init (by decide +kernel)) (by decide +kernel)

/-- Every callback answers OK. -/
def answerOk : Answer Nat Str Unit := fun _ _ w => (bcircPluginOk, w)

example : ((endState (executeCallbacks (traced answerOk) id callbackServerRecv []
    ⟨sampleRegistry, ((), [])⟩)).world.2.map fun inv => inv.cb.cbFunc) = [20, 10, 12, 21] := by
  decide +kernel

theorem executeCallbacks_invokesRegistered_sample :
    InvokesRegistered answerOk id sampleRegistry callbackServerRecv [ascii "line"] () :=
  executeCallbacks_invokesRegistered sampleRegistry_managed answerOk id callbackServerRecv
    [ascii "line"] () (by unfold Quiet; decide +kernel)

end Sample

end Bcirc
