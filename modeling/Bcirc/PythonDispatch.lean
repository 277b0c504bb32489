import Bcirc.MappedNames
import Bcirc.World

/-!
# Callbacks of Python scripts (`plugins/src/python`)

The Python plugin registers one native callback, `py_execute_callbacks`,
for the event that notifies of every other event. It finds the name of
the event behind the arguments and calls the functions that scripts
registered under that name. There is no notification of an event without
a bucket in the index, and none when a lookup on the way to it comes to a
name that is no longer mapped.

What a native callback or a Python function does is a change of the rest
of the process, events that it raises itself included. A Python function
gets the list of the arguments as addresses; the second value it gets is
meant to be their number and is the address of one (`"(Ol)"`), and is
left out.
-/

namespace Bcirc

open CProg CStr

variable {φ W : Type}

/-! ## The scripts -/

inductive PyObject where
  | callable (id : Nat)
  | other (id : Nat)
  deriving DecidableEq, Repr

/-- `PyCallable_Check`. -/
def PyObject.isCallable : PyObject → Bool
  | .callable _ => true
  | .other _ => false

structure PyCb where
  cbName : Str
  cbFunc : PyObject
  priority : Int
  deriving DecidableEq, Repr

/-- `py_script`. -/
structure PyScript where
  name : Str
  cbs : List PyCb
  callable : ∀ cb ∈ cbs, cb.cbFunc.isCallable

/-- `none` is the `NULL` that raises an exception in the script. -/
def pyRegisterCallback (script : PyScript) (cbName : Str) (cbFunc : PyObject) (priority : Int) :
    Option Int × PyScript :=
  if h : cbFunc.isCallable then
    (some 1,
      { script with
        cbs := script.cbs ++ [⟨cbName, cbFunc, priority⟩]
        callable := fun cb hcb => by
          rcases List.mem_append.mp hcb with hcb | hcb
          · exact script.callable cb hcb
          · rw [List.mem_singleton.mp hcb]
            exact h })
  else (none, script)

structure PyCall where
  cbFunc : PyObject
  args : List Arg
  deriving DecidableEq, Repr

/-! ## The dispatcher -/

/-- `params[argc-1]`, a string that `execute_callbacks` has put there. With
anything else behind the pointer, or no argument at all, no name compares
equal. -/
def notifiedName (params : List Arg) : Option Str :=
  match params.getLast? with
  | some (.str cbName) => some cbName
  | _ => none

section PyExecuteCallbacks

variable (run : PyObject → List Arg → W → W)

/-- The inner loop, over the callbacks of a script: `break` leaves it. The
exception of a function that fails is printed. -/
def pyScriptLoop (params : List Arg) : List PyCb → W × List PyCall → W × List PyCall
  | [], s => s
  | cb :: cbs, s =>
      if some cb.cbName = notifiedName params then
        if cb.cbFunc.isCallable then
          pyScriptLoop params cbs
            (run cb.cbFunc params.dropLast s.1, s.2 ++ [⟨cb.cbFunc, params.dropLast⟩])
        else s
      else pyScriptLoop params cbs s

def pyExecuteCallbacks (params : List Arg) : List PyScript → W × List PyCall → W × List PyCall
  | [], s => s
  | script :: scripts, s =>
      pyExecuteCallbacks params scripts (pyScriptLoop run params script.cbs s)

end PyExecuteCallbacks

/-- The code behind a callback: that of the Python plugin or another one. -/
inductive Code (φ : Type) where
  | native (f : φ)
  | pyExecuteCallbacks
  deriving DecidableEq, Repr

def Callback.isPy (cb : Callback (Code φ)) : Bool :=
  match cb.cbFunc with
  | .native _ => false
  | .pyExecuteCallbacks => true

/-- The callbacks, with the log of the calls of Python functions. -/
def pyAnswer (native : φ → List Arg → W → Int × W) (run : PyObject → List Arg → W → W)
    (scripts : List PyScript) : Answer (Code φ) Arg (W × List PyCall) := fun cb args s =>
  match cb.cbFunc with
  | .native f => ((native f args s.1).1, (native f args s.1).2, s.2)
  | .pyExecuteCallbacks => (bcircPluginOk, pyExecuteCallbacks run args scripts s)

/-- The functions that scripts registered for an event, called with `args`. -/
def registeredCalls (scripts : List PyScript) (cbName : Str) (args : List Arg) : List PyCall :=
  ((scripts.flatMap (·.cbs)).filter fun cb => cb.cbName == cbName).map
    fun cb => ⟨cb.cbFunc, args⟩

/-! ## The calls of the Python plugin -/

section PyCalls

variable (run : PyObject → List Arg → W → W)

theorem notifiedName_append (args : List Arg) (cbName : Str) :
    notifiedName (args ++ [.str cbName]) = some cbName := by
  simp [notifiedName]

theorem pyScriptLoop_calls (args : List Arg) (cbName : Str) {cbs : List PyCb}
    (hcallable : ∀ cb ∈ cbs, cb.cbFunc.isCallable) (s : W × List PyCall) :
    (pyScriptLoop run (args ++ [.str cbName]) cbs s).2 =
      s.2 ++ (cbs.filter fun cb => cb.cbName == cbName).map fun cb => ⟨cb.cbFunc, args⟩ := by
  induction cbs generalizing s with
  | nil => simp [pyScriptLoop]
  | cons cb cbs ih =>
      obtain ⟨hcb, hcbs⟩ := List.forall_mem_cons.mp hcallable
      rw [pyScriptLoop, notifiedName_append, List.dropLast_concat]
      by_cases hname : cb.cbName = cbName
      · rw [if_pos (congrArg some hname), if_pos hcb, ih hcbs]
        simp [hname]
      · rw [if_neg fun h => hname (Option.some.inj h), ih hcbs]
        simp [hname]

theorem pyExecuteCallbacks_calls (args : List Arg) (cbName : Str) (scripts : List PyScript)
    (s : W × List PyCall) :
    (pyExecuteCallbacks run (args ++ [.str cbName]) scripts s).2 =
      s.2 ++ registeredCalls scripts cbName args := by
  induction scripts generalizing s with
  | nil => simp [pyExecuteCallbacks, registeredCalls]
  | cons script scripts ih =>
      rw [pyExecuteCallbacks, ih, pyScriptLoop_calls run args cbName script.callable]
      simp [registeredCalls]

theorem pyScriptLoop_keeps {J : W → Prop} (hrun : ∀ cbFunc args w, J w → J (run cbFunc args w))
    (params : List Arg) (cbs : List PyCb) {s : W × List PyCall} (hs : J s.1) :
    J (pyScriptLoop run params cbs s).1 := by
  induction cbs generalizing s with
  | nil => exact hs
  | cons cb cbs ih =>
      rw [pyScriptLoop]
      split
      · split
        · exact ih (hrun _ _ _ hs)
        · exact hs
      · exact ih hs

/-- What every function of a script keeps. -/
theorem pyExecuteCallbacks_keeps {J : W → Prop}
    (hrun : ∀ cbFunc args w, J w → J (run cbFunc args w)) (params : List Arg)
    (scripts : List PyScript) {s : W × List PyCall} (hs : J s.1) :
    J (pyExecuteCallbacks run params scripts s).1 := by
  induction scripts generalizing s with
  | nil => exact hs
  | cons script scripts ih =>
      rw [pyExecuteCallbacks]
      exact ih (pyScriptLoop_keeps run hrun params script.cbs hs)

end PyCalls

section PyAnswer

variable (native : φ → List Arg → W → Int × W) (run : PyObject → List Arg → W → W)
  (scripts : List PyScript)

theorem pyAnswer_native {cb : Callback (Code φ)} (h : cb.isPy = false) (args : List Arg)
    (s : W × List PyCall) : (pyAnswer native run scripts cb args s).2.2 = s.2 := by
  obtain ⟨serial, cbName, cbFunc, priority⟩ := cb
  cases cbFunc with
  | native f => rfl
  | pyExecuteCallbacks => cases h

theorem pyAnswer_py {cb : Callback (Code φ)} (h : cb.isPy) (args : List Arg)
    (s : W × List PyCall) :
    pyAnswer native run scripts cb args s =
      (bcircPluginOk, pyExecuteCallbacks run args scripts s) := by
  obtain ⟨serial, cbName, cbFunc, priority⟩ := cb
  cases cbFunc with
  | native f => cases h
  | pyExecuteCallbacks => rfl

/-- A walk without the Python plugin calls no Python function. -/
theorem invocations_native (args : List Arg) {order : List (Callback (Code φ))}
    (horder : ∀ cb ∈ order, cb.isPy = false) (s : W × List PyCall) :
    (invocations (pyAnswer native run scripts) args order s).2.2 = s.2 := by
  induction order generalizing s with
  | nil => rfl
  | cons cb order ih =>
      obtain ⟨hcb, horder⟩ := List.forall_mem_cons.mp horder
      have hlog := pyAnswer_native native run scripts hcb args s
      rw [invocations]
      split
      · exact hlog
      · rw [ih horder, hlog]

/-- A walk that the Python plugin has one place in, and that is not cut
short, calls what is registered. -/
theorem invocations_py (args : List Arg) (cbName : Str) {pre post : List (Callback (Code φ))}
    {cb : Callback (Code φ)} (hpre : ∀ c ∈ pre, c.isPy = false) (hcb : cb.isPy)
    (hpost : ∀ c ∈ post, c.isPy = false) (s : W × List PyCall)
    (hquiet : ∀ inv ∈ (invocations (pyAnswer native run scripts) (args ++ [.str cbName])
      (pre ++ cb :: post) s).1, inv.res ≠ bcircPluginBreak) :
    (invocations (pyAnswer native run scripts) (args ++ [.str cbName])
      (pre ++ cb :: post) s).2.2 = s.2 ++ registeredCalls scripts cbName args := by
  induction pre generalizing s with
  | nil =>
      have hok : bcircPluginOk ≠ bcircPluginBreak := by decide
      rw [List.nil_append, invocations, pyAnswer_py native run scripts hcb, if_neg hok]
      simp only
      rw [invocations_native native run scripts _ hpost, pyExecuteCallbacks_calls]
  | cons c pre ih =>
      obtain ⟨hc, hpre⟩ := List.forall_mem_cons.mp hpre
      have hlog := pyAnswer_native native run scripts hc (args ++ [.str cbName]) s
      rw [List.cons_append, invocations] at hquiet ⊢
      by_cases hbreak : (pyAnswer native run scripts c (args ++ [.str cbName]) s).1 =
          bcircPluginBreak
      · rw [if_pos hbreak] at hquiet
        exact absurd hbreak (hquiet _ List.mem_cons_self)
      · rw [if_neg hbreak] at hquiet ⊢
        simp only
        rw [ih hpre _ (List.forall_mem_cons.mp hquiet).2, hlog]

end PyAnswer

/-! ## The place of the Python plugin in the index -/

/-- The Python plugin is loaded, and its function registered this once. -/
def PythonLoaded (reg : Registry (Code φ)) : Prop :=
  ∃ orphans cb, reg.Inv orphans ∧ (reg.loaded ++ orphans).filter (·.isPy) = [cb] ∧
    cb.cbName.str = callbackCallbacksExecuted

/-- What `load_plugin` finds in the Python plugin. -/
def pythonPlugin (handle : Nat) : SharedObject (Code φ) where
  handle := handle
  pluginAuthor := some (ascii "Joona")
  pluginName := some (ascii "Python")
  pluginVersion := some (ascii "0.1")
  pluginInit := some
    { calls := [⟨some callbackCallbacksExecuted, some .pyExecuteCallbacks, 20⟩]
      result := bcircPluginOk }

theorem pythonLoaded_load {reg : Registry (Code φ)} {orphans : List (Callback (Code φ))}
    (h : reg.Inv orphans) (hnone : ∀ cb ∈ reg.loaded ++ orphans, cb.isPy = false) (path : Str)
    (handle : Nat) : PythonLoaded (loadPlugin path (some (pythonPlugin handle)) reg).2 := by
  obtain ⟨orphans', hinv, horphans⟩ := loadPlugin_inv h path (some (pythonPlugin handle))
  obtain rfl := horphans rfl
  let cb : Callback (Code φ) :=
    ⟨reg.nextSerial + 1, ⟨handle, callbackCallbacksExecuted⟩, .pyExecuteCallbacks, 20⟩
  have hloaded : (loadPlugin path (some (pythonPlugin handle)) reg).2.loaded =
      reg.loaded ++ [cb] := by
    simp [Registry.loaded, loadPlugin, pythonPlugin, runCalls, registerCallback, cb]
  obtain ⟨hreg, horph⟩ := List.forall_mem_append.mp hnone
  have hloadedNone : reg.loaded.filter (·.isPy) = [] :=
    List.filter_eq_nil_iff.mpr fun c hc => by simp [hreg c hc]
  have horphansNone : orphans'.filter (·.isPy) = [] :=
    List.filter_eq_nil_iff.mpr fun c hc => by simp [horph c hc]
  refine ⟨orphans', cb, hinv, ?_, rfl⟩
  rw [hloaded, List.filter_append, List.filter_append, hloadedNone, horphansNone]
  rfl

section PythonLoaded

variable {reg : Registry (Code φ)}

theorem PythonLoaded.bucket_native (h : PythonLoaded reg) {cbName : Str}
    (hname : cbName ≠ callbackCallbacksExecuted) :
    ∀ c ∈ bucket reg.indexList cbName, c.isPy = false := by
  obtain ⟨orphans, cb, hinv, honce, hcb⟩ := h
  intro c hc
  obtain ⟨hlive, hcname⟩ := hinv.index.mem_bucket.mp hc
  by_contra hpy
  have hmem : c ∈ (reg.loaded ++ orphans).filter (·.isPy) :=
    List.mem_filter.mpr ⟨hlive, Bool.of_not_eq_false hpy⟩
  rw [honce] at hmem
  obtain rfl := List.mem_singleton.mp hmem
  exact hname (hcname.symm.trans hcb)

theorem PythonLoaded.bucket_notified (h : PythonLoaded reg) :
    ∃ pre cb post, bucket reg.indexList callbackCallbacksExecuted = pre ++ cb :: post ∧
      cb.isPy ∧ (∀ c ∈ pre, c.isPy = false) ∧ ∀ c ∈ post, c.isPy = false := by
  obtain ⟨orphans, cb, hinv, honce, hcb⟩ := h
  have hfiltered : cb ∈ (reg.loaded ++ orphans).filter (·.isPy) := by
    rw [honce]
    exact List.mem_cons_self
  obtain ⟨hlive, hpy⟩ := List.mem_filter.mp hfiltered
  obtain ⟨pre, post, hsplit⟩ :=
    List.append_of_mem (hinv.index.mem_bucket.mpr ⟨hlive, hcb⟩)
  have hnodup := hinv.index.bucket_nodup callbackCallbacksExecuted
  rw [hsplit] at hnodup
  have honly : ∀ c ∈ pre ++ post, c.isPy = false := by
    intro c hc
    by_contra hcpy
    have hmem : c ∈ bucket reg.indexList callbackCallbacksExecuted := by
      rw [hsplit]
      rcases List.mem_append.mp hc with hc | hc
      · exact List.mem_append_left _ hc
      · exact List.mem_append_right _ (List.mem_cons_of_mem _ hc)
    have hcf : c ∈ (reg.loaded ++ orphans).filter (·.isPy) :=
      List.mem_filter.mpr
        ⟨(hinv.index.mem_bucket.mp hmem).1, Bool.of_not_eq_false hcpy⟩
    rw [honce] at hcf
    obtain rfl := List.mem_singleton.mp hcf
    exact (List.nodup_middle.mp hnodup).notMem hc
  obtain ⟨hpre, hpost⟩ := List.forall_mem_append.mp honly
  exact ⟨pre, cb, post, hsplit, hpy, hpre, hpost⟩

end PythonLoaded

/-! ## Delivery to scripts -/

/-- The run of a call of `execute_callbacks`, with both logs empty. -/
def pyRun (leaked : List Nat) (native : φ → List Arg → W → Int × W)
    (run : PyObject → List Arg → W → W) (scripts : List PyScript) (reg : Registry (Code φ))
    (cbName : CbName) (args : List Arg) (w : W) :
    Bot (Code φ) ((W × List PyCall) × List (Invocation (Code φ) Arg)) :=
  endState (executeCallbacksMapped leaked (traced (pyAnswer native run scripts)) .str cbName args
    ⟨reg, ((w, []), [])⟩)

/-- No callback of the run answered BREAK, STOP or FAIL. -/
def Undisturbed (log : List (Invocation (Code φ) Arg)) : Prop :=
  ∀ inv ∈ log, inv.res ≠ bcircPluginBreak ∧ inv.res ≠ bcircPluginStop ∧
    inv.res ≠ bcircPluginFail

/-- The index has a bucket for the event, and no name is gone that is read
on the way to it or to that of the notification. -/
structure Announced (leaked : List Nat) (reg : Registry φ) (cbName : CbName) : Prop where
  known : getCbIndex reg.indexList cbName.str ≠ none
  own : NamesMapped (reg.mapped leaked) reg.names cbName.str
  note : NoteMapped (reg.mapped leaked) reg.names cbName.image

section Delivery

variable (leaked : List Nat) (native : φ → List Arg → W → Int × W)
  (run : PyObject → List Arg → W → W) (scripts : List PyScript) {reg : Registry (Code φ)}

/-- The functions that a call with both lookups in mapped memory reaches. -/
theorem pyCalls_dispatched (hpy : PythonLoaded reg) {cbName : Str}
    (hname : cbName ≠ callbackCallbacksExecuted)
    (hknown : getCbIndex reg.indexList cbName ≠ none) (args : List Arg) (w : W)
    (hlog : Undisturbed
      (dispatched (pyAnswer native run scripts) .str reg cbName args (w, [])).1) :
    (dispatched (pyAnswer native run scripts) .str reg cbName args (w, [])).2.2 =
      registeredCalls scripts cbName args := by
  have hown := invocations_native native run scripts args (hpy.bucket_native hname) (w, [])
  unfold dispatched at hlog ⊢
  simp only at hlog ⊢
  by_cases hres : loopResult (invocations (pyAnswer native run scripts) args
      (bucket reg.indexList cbName) (w, [])).1 = none
  · rw [if_neg (not_not_intro hres)] at hlog ⊢
    unfold notified at hlog ⊢
    simp only [hname, hknown, or_self, if_false] at hlog ⊢
    obtain ⟨pre, cb, post, hbucket, hcb, hpre, hpost⟩ := hpy.bucket_notified
    rw [hbucket] at hlog ⊢
    rw [invocations_py native run scripts args cbName hpre hcb hpost _
      fun inv hinv => (hlog inv (List.mem_append_right _ hinv)).1, hown, List.nil_append]
  · rw [if_pos hres] at hlog
    exact absurd (loopResult_eq_none.mpr fun inv hinv => (hlog inv hinv).1) hres

theorem pyRun_calls (hpy : PythonLoaded reg) {cbName : CbName}
    (hname : cbName.str ≠ callbackCallbacksExecuted) (args : List Arg) (w : W)
    (hlog : Undisturbed (pyRun leaked native run scripts reg cbName args w).world.2)
    (hannounced : Announced leaked reg cbName) :
    (pyRun leaked native run scripts reg cbName args w).world.1.2 =
      registeredCalls scripts cbName.str args := by
  have hquiet : Quiet (pyRun leaked native run scripts reg cbName args w).world.2 :=
    fun inv hinv => (hlog inv hinv).2
  have hown := quiet_of_mapped (pyAnswer native run scripts) .str hannounced.own hquiet
  have hbase : pyRun leaked native run scripts reg cbName args w =
      endState (executeCallbacks (traced (pyAnswer native run scripts)) .str cbName.str args
        ⟨reg, ((w, []), [])⟩) := by
    rw [pyRun, executeCallbacksMapped_of_quiet (pyAnswer native run scripts) .str hannounced.own
      hannounced.note hown]
  rw [hbase] at hlog hquiet ⊢
  have hrun := executeCallbacks_of_quiet_log (pyAnswer native run scripts) .str reg cbName.str args
    (w, []) hquiet
  rw [hrun] at hlog ⊢
  exact pyCalls_dispatched native run scripts hpy hname hannounced.known args w hlog

/-- What is not announced calls no Python function. -/
theorem pyRun_calls_nil (hpy : PythonLoaded reg) {cbName : CbName}
    (hname : cbName.str ≠ callbackCallbacksExecuted) (args : List Arg) (w : W)
    (hlog : Undisturbed (pyRun leaked native run scripts reg cbName args w).world.2)
    (hannounced : ¬ Announced leaked reg cbName) :
    (pyRun leaked native run scripts reg cbName args w).world.1.2 = [] := by
  by_cases hmapped : NamesMapped (reg.mapped leaked) reg.names cbName.str
  · have hquiet : Quiet (pyRun leaked native run scripts reg cbName args w).world.2 :=
      fun inv hinv => (hlog inv hinv).2
    have hown := quiet_of_mapped (pyAnswer native run scripts) .str hmapped hquiet
    have hnative := invocations_native native run scripts args (hpy.bucket_native hname) (w, [])
    by_cases hnote : NoteMapped (reg.mapped leaked) reg.names cbName.image
    · have hunknown : getCbIndex reg.indexList cbName.str = none := by
        by_contra hknown
        exact hannounced ⟨hknown, hmapped, hnote⟩
      rw [pyRun, executeCallbacksMapped_of_quiet (pyAnswer native run scripts) .str hmapped hnote
        hown, executeCallbacks, executeBody_unknown _ _ _ _ hunknown]
      rfl
    · rw [pyRun, executeCallbacksMapped_of_not_note (pyAnswer native run scripts) .str hmapped
        hnote hown]
      exact hnative
  · rw [pyRun, executeCallbacksMapped, executeBodyMapped_of_not_mapped hmapped]
    rfl

end Delivery

def idleNative : Nat → List Arg → Unit → Int × Unit := fun _ _ _ => (bcircPluginOk, ())

/-- A script with a function for `got_numeric`. -/
def sampleScript : PyScript :=
  (pyRegisterCallback ⟨ascii "script", [], fun _ hcb => nomatch hcb⟩ callbackGotNumeric
    (.callable 7) 20).2

/-- The Python plugin alone, and beside a plugin with a callback for
`got_numeric`. -/
def samplePython (calls : List (RegisterCall (Code Nat))) : Registry (Code Nat) :=
  (loadPlugin (ascii "python.so") (some (pythonPlugin 2))
    (loadPlugin (ascii "a.so")
      (some ⟨1, some (ascii "author"), some (ascii "name"), some (ascii "0.1"),
        some ⟨calls, bcircPluginOk⟩⟩) initIndex).2).2

end Bcirc
