import Bcirc.RegistryInv

/-!
# What a dispatch invokes

Runs of `execute_callbacks` whose callbacks leave the registry to the
dispatcher: each answers with a code and changes the rest of the world
only. `traced` records every invocation, so the runs can be compared with
`invocations`, the walk along one bucket that stops at the first BREAK.

As long as no code asks for an action on a plugin the run is that walk
(`callbackLoop_quiet`), and the converse reading of the log is
`quiet_of_log`: an action that was taken shows in the log.
-/

namespace Bcirc

open CProg CStr

variable {φ α W : Type}

structure Invocation (φ α : Type) where
  cb : Callback φ
  args : List α
  res : Int
  deriving DecidableEq, Repr

/-- The code and the world after a callback ran. -/
abbrev Answer (φ α W : Type) := Callback φ → List α → W → Int × W

/-- The world and the log once `cb` has answered. -/
def record (f : Answer φ α W) (cb : Callback φ) (args : List α)
    (s : Bot φ (W × List (Invocation φ α))) : Bot φ (W × List (Invocation φ α)) :=
  let r := f cb args s.world.1
  { s with world := (r.2, s.world.2 ++ [⟨cb, args, r.1⟩]) }

/-- Invoke by `f`, and log it. -/
def traced (f : Answer φ α W) (cb : Callback φ) (args : List α) :
    Prog (Bot φ (W × List (Invocation φ α))) Int := fun s =>
  .ok (f cb args s.world.1).1 (record f cb args s)

/-- The walk along a bucket, with the world it leaves. -/
def invocations (f : Answer φ α W) (args : List α) :
    List (Callback φ) → W → List (Invocation φ α) × W
  | [], w => ([], w)
  | cb :: rest, w =>
      let r := f cb args w
      if r.1 = bcircPluginBreak then ([⟨cb, args, r.1⟩], r.2)
      else
        let t := invocations f args rest r.2
        (⟨cb, args, r.1⟩ :: t.1, t.2)

/-- No code of the log is STOP or FAIL. -/
def Quiet (log : List (Invocation φ α)) : Prop :=
  ∀ inv ∈ log, inv.res ≠ bcircPluginStop ∧ inv.res ≠ bcircPluginFail

/-- `invs` invokes `order` with `args`, up to and including the first that
answers BREAK. -/
inductive UpToBreak (args : List α) :
    List (Callback φ) → List (Invocation φ α) → Prop where
  | done : UpToBreak args [] []
  | stop (cb : Callback φ) (rest : List (Callback φ)) :
      UpToBreak args (cb :: rest) [⟨cb, args, bcircPluginBreak⟩]
  | next {cb : Callback φ} {rest : List (Callback φ)} {res : Int}
      {invs : List (Invocation φ α)} : res ≠ bcircPluginBreak →
      UpToBreak args rest invs → UpToBreak args (cb :: rest) (⟨cb, args, res⟩ :: invs)

theorem upToBreak_invocations (f : Answer φ α W) (args : List α)
    (order : List (Callback φ)) (w : W) :
    UpToBreak args order (invocations f args order w).1 := by
  induction order generalizing w with
  | nil => exact .done
  | cons cb rest ih =>
      rw [invocations]
      split
      · rename_i hbreak
        rw [hbreak]
        exact .stop cb rest
      · rename_i hbreak
        exact .next hbreak (ih _)

/-- What the loop makes of a walk: the early return, if one broke. -/
def loopResult (invs : List (Invocation φ α)) : Option Int :=
  if ∃ inv ∈ invs, inv.res = bcircPluginBreak then some bcircPluginFail else none

@[simp] theorem loopResult_nil : loopResult ([] : List (Invocation φ α)) = none := by
  simp [loopResult]

theorem loopResult_cons_of_ne {inv : Invocation φ α} {invs : List (Invocation φ α)}
    (h : inv.res ≠ bcircPluginBreak) : loopResult (inv :: invs) = loopResult invs := by
  simp [loopResult, h]

theorem loopResult_eq_none {invs : List (Invocation φ α)} :
    loopResult invs = none ↔ ∀ inv ∈ invs, inv.res ≠ bcircPluginBreak := by
  simp [loopResult]

theorem loopResult_eq_some {invs : List (Invocation φ α)} {r : Int} :
    loopResult invs = some r ↔
      r = bcircPluginFail ∧ ∃ inv ∈ invs, inv.res = bcircPluginBreak := by
  unfold loopResult
  split
  · rename_i h
    simp only [Option.some.injEq, h, and_true]
    exact eq_comm
  · rename_i h
    simp [h]

/-! ## One round -/

theorem afterCallback_break (i : Nat) (s : Bot φ W) :
    afterCallback i bcircPluginBreak s = .ok (some bcircPluginFail) s := rfl

/-- A code that asks for nothing: the loop goes on. -/
theorem afterCallback_pass {res : Int} (hb : res ≠ bcircPluginBreak)
    (hs : res ≠ bcircPluginStop) (hf : res ≠ bcircPluginFail) (i : Nat) (s : Bot φ W) :
    afterCallback i res s = .ok none s := by
  simp [afterCallback, hb, hs, hf]

theorem afterCallback_stop {i : Nat} {s : Bot φ W} {p : Plugin φ}
    (h : s.reg.pluginList[i]? = some p) :
    afterCallback i bcircPluginStop s =
      .ok none { s with reg := pausePlugin p.serial s.reg } := by
  rw [afterCallback, if_pos (by decide), if_pos rfl, get_bind_run, h]
  rfl

theorem afterCallback_fail {i : Nat} {s : Bot φ W} {p : Plugin φ}
    (h : s.reg.pluginList[i]? = some p) :
    afterCallback i bcircPluginFail s =
      .ok none { s with reg := removePlugin p.serial s.reg } := by
  rw [afterCallback, if_pos (by decide), if_neg (by decide), if_pos rfl, get_bind_run, h]
  rfl

/-- With no plugin at that position the action reads past `plugin_list`. -/
theorem afterCallback_outOfBounds {i : Nat} {res : Int} {s : Bot φ W}
    (hres : res = bcircPluginStop ∨ res = bcircPluginFail)
    (h : s.reg.pluginList[i]? = none) :
    afterCallback i res s = .error .outOfBounds s := by
  rcases hres with rfl | rfl
  · rw [afterCallback, if_pos (by decide), if_pos rfl, get_bind_run, h]
    rfl
  · rw [afterCallback, if_pos (by decide), if_neg (by decide), if_pos rfl, get_bind_run, h]
    rfl

/-- The actions reach the registry only. -/
theorem afterCallback_world (i : Nat) (res : Int) (s : Bot φ W) :
    (endState (afterCallback i res s)).world = s.world := by
  by_cases hb : res = bcircPluginBreak
  · rw [hb, afterCallback_break, endState_ok]
  by_cases hact : res = bcircPluginStop ∨ res = bcircPluginFail
  · cases hp : s.reg.pluginList[i]? with
    | none => rw [afterCallback_outOfBounds hact hp, endState_error]
    | some p =>
        rcases hact with rfl | rfl
        · rw [afterCallback_stop hp, endState_ok]
        · rw [afterCallback_fail hp, endState_ok]
  · rw [not_or] at hact
    rw [afterCallback_pass hb hact.1 hact.2, endState_ok]

/-! ## The loop -/

section Loop

variable (f : Answer φ α W) (strArg : Str → α)

/-- The rest of a round once the callback is known. -/
theorem callbackLoop_succ {indexPoint i : Nat} {args : List α} {n : Nat}
    {s : Bot φ (W × List (Invocation φ α))} {cb : Callback φ}
    (hcb : s.reg.callbackAt? indexPoint i = some cb) :
    callbackLoop (traced f) indexPoint args (n + 1) i s =
      (do
        match ← afterCallback i (f cb args s.world.1).1 with
        | some r => pure (some r)
        | none => callbackLoop (traced f) indexPoint args n (i + 1) :
          Prog (Bot φ (W × List (Invocation φ α))) (Option Int)) (record f cb args s) := by
  rw [callbackLoop, get_bind_run, hcb]
  rfl

/-- A walk that asks for no action is what the loop does. -/
theorem callbackLoop_quiet {indexPoint : Nat} {args : List α} {reg : Registry φ}
    {entry : CallbackIndex φ} (hentry : reg.indexList[indexPoint]? = some entry)
    (n i : Nat) (hlen : entry.callbacks.length = i + n) (w : W)
    (log : List (Invocation φ α))
    (hquiet : Quiet (invocations f args (entry.callbacks.drop i) w).1) :
    callbackLoop (traced f) indexPoint args n i ⟨reg, (w, log)⟩ =
      .ok (loopResult (invocations f args (entry.callbacks.drop i) w).1)
        ⟨reg, ((invocations f args (entry.callbacks.drop i) w).2,
          log ++ (invocations f args (entry.callbacks.drop i) w).1)⟩ := by
  induction n generalizing i w log with
  | zero =>
      rw [List.drop_of_length_le (by omega)]
      simp [callbackLoop, invocations]
  | succ n ih =>
      have hi : i < entry.callbacks.length := by omega
      have hcb : reg.callbackAt? indexPoint i = some entry.callbacks[i] := by
        simp [Registry.callbackAt?, hentry, List.getElem?_eq_getElem hi]
      rw [List.drop_eq_getElem_cons hi, invocations] at hquiet ⊢
      rw [callbackLoop_succ f (s := ⟨reg, (w, log)⟩) hcb]
      simp only
      split at hquiet
      · rename_i hbreak
        rw [if_pos hbreak, bind_ok (by rw [hbreak]; exact afterCallback_break i _)]
        simp [loopResult, hbreak, record]
      · rename_i hbreak
        obtain ⟨hhead, htail⟩ := List.forall_mem_cons.mp hquiet
        rw [if_neg hbreak, bind_ok (afterCallback_pass hbreak hhead.1 hhead.2 i _)]
        simp only [record]
        rw [ih (i + 1) (by omega) _ _ htail, loopResult_cons_of_ne hbreak]
        simp [List.append_assoc]

/-- A round logs its callback, and then ends the run or starts the next one. -/
theorem callbackLoop_round {indexPoint i : Nat} (args : List α) (n : Nat)
    {s : Bot φ (W × List (Invocation φ α))} {cb : Callback φ}
    (hcb : s.reg.callbackAt? indexPoint i = some cb) :
    ∃ u, u.world = (record f cb args s).world ∧
      (endState (callbackLoop (traced f) indexPoint args (n + 1) i s) = u ∨
        afterCallback i (f cb args s.world.1).1 (record f cb args s) = .ok none u ∧
          callbackLoop (traced f) indexPoint args (n + 1) i s =
            callbackLoop (traced f) indexPoint args n (i + 1) u) := by
  have hworld := afterCallback_world i (f cb args s.world.1).1 (record f cb args s)
  rw [callbackLoop_succ f hcb]
  cases hact : afterCallback i (f cb args s.world.1).1 (record f cb args s) with
  | error e u =>
      rw [hact, endState_error] at hworld
      exact ⟨u, hworld, Or.inl (by rw [bind_error hact, endState_error])⟩
  | ok o u =>
      rw [hact, endState_ok] at hworld
      refine ⟨u, hworld, ?_⟩
      rw [bind_ok hact]
      cases o with
      | some r => exact Or.inl rfl
      | none => exact Or.inr ⟨rfl, rfl⟩

theorem callbackLoop_stuck {indexPoint i : Nat} (args : List α) (n : Nat)
    {s : Bot φ (W × List (Invocation φ α))}
    (hcb : s.reg.callbackAt? indexPoint i = none) :
    callbackLoop (traced f) indexPoint args (n + 1) i s = .error .outOfBounds s := by
  rw [callbackLoop, get_bind_run, hcb]
  rfl

/-- The log only grows. -/
theorem callbackLoop_log_extends (indexPoint : Nat) (args : List α) (n i : Nat)
    (s : Bot φ (W × List (Invocation φ α))) :
    s.world.2 <+: (endState (callbackLoop (traced f) indexPoint args n i s)).world.2 := by
  induction n generalizing i s with
  | zero => exact List.prefix_refl _
  | succ n ih =>
      cases hcb : s.reg.callbackAt? indexPoint i with
      | none =>
          rw [callbackLoop_stuck f args n hcb]
          exact List.prefix_refl _
      | some cb =>
          have hgrow : s.world.2 <+: (record f cb args s).world.2 := List.prefix_append _ _
          obtain ⟨u, hworld, hend | ⟨-, hrun⟩⟩ := callbackLoop_round f args n hcb
          · rwa [hend, hworld]
          · rw [← hworld] at hgrow
            rw [hrun]
            exact hgrow.trans (ih (i + 1) u)

theorem not_quiet_of_prefix {log log' : List (Invocation φ α)} (h : log <+: log')
    (hnot : ¬ Quiet log) : ¬ Quiet log' :=
  fun hq => hnot fun inv hinv => hq inv (h.subset hinv)

/-- An action that the walk asks for shows in the log of the run. -/
theorem callbackLoop_noisy {indexPoint : Nat} {args : List α} {reg : Registry φ}
    {entry : CallbackIndex φ} (hentry : reg.indexList[indexPoint]? = some entry)
    (n i : Nat) (hlen : entry.callbacks.length = i + n) (w : W)
    (log : List (Invocation φ α))
    (hnoisy : ¬ Quiet (invocations f args (entry.callbacks.drop i) w).1) :
    ¬ Quiet (endState
      (callbackLoop (traced f) indexPoint args n i ⟨reg, (w, log)⟩)).world.2 := by
  induction n generalizing i w log with
  | zero =>
      rw [List.drop_of_length_le (by omega)] at hnoisy
      exact absurd (fun inv hinv => nomatch hinv) hnoisy
  | succ n ih =>
      have hi : i < entry.callbacks.length := by omega
      have hcb : reg.callbackAt? indexPoint i = some entry.callbacks[i] := by
        simp [Registry.callbackAt?, hentry, List.getElem?_eq_getElem hi]
      rw [List.drop_eq_getElem_cons hi, invocations] at hnoisy
      by_cases hbreak : (f entry.callbacks[i] args w).1 = bcircPluginBreak
      · rw [if_pos hbreak, hbreak] at hnoisy
        refine absurd (fun inv hinv => ?_) hnoisy
        rw [List.mem_singleton.mp hinv]
        simp [bcircPluginBreak, bcircPluginStop, bcircPluginFail]
      rw [if_neg hbreak] at hnoisy
      by_cases hact : (f entry.callbacks[i] args w).1 ≠ bcircPluginStop ∧
          (f entry.callbacks[i] args w).1 ≠ bcircPluginFail
      · rw [callbackLoop_succ f (s := ⟨reg, (w, log)⟩) hcb,
          bind_ok (afterCallback_pass hbreak hact.1 hact.2 i _)]
        refine ih (i + 1) (by omega) _ _ fun htail => hnoisy ?_
        exact List.forall_mem_cons.mpr ⟨hact, htail⟩
      · -- the action is taken now; whatever follows keeps its entry in the log
        have hnow : ¬ Quiet (record f entry.callbacks[i] args ⟨reg, (w, log)⟩).world.2 :=
          fun hq => hact (hq ⟨entry.callbacks[i], args, _⟩ (by simp [record]))
        obtain ⟨u, hworld, hend | ⟨-, hrun⟩⟩ :=
          callbackLoop_round f (s := ⟨reg, (w, log)⟩) args n hcb
        · rwa [hend, hworld]
        · rw [← hworld] at hnow
          rw [hrun]
          exact not_quiet_of_prefix (callbackLoop_log_extends f _ args n _ u) hnow

end Loop

/-! ## The whole call -/

section Call

variable (call : Callback φ → List α → Prog (Bot φ W) Int) (strArg : Str → α)

theorem executeBody_unknown (nested : List α → Prog (Bot φ W) Int) {cbName : Str}
    (args : List α) {s : Bot φ W} (h : getCbIndex s.reg.indexList cbName = none) :
    executeBody call strArg nested cbName args s = .ok bcircPluginOk s := by
  rw [executeBody, get_bind_run, h]
  rfl

theorem executeBody_known (nested : List α → Prog (Bot φ W) Int) {cbName : Str}
    (args : List α) {s : Bot φ W} {indexPoint : Nat}
    (h : getCbIndex s.reg.indexList cbName = some indexPoint) :
    executeBody call strArg nested cbName args s =
      (do
        match ← callbackLoop call indexPoint args (bucket s.reg.indexList cbName).length 0 with
        | some r => pure r
        | none =>
            if cbName ≠ callbackCallbacksExecuted then
              let _ ← nested (args ++ [strArg cbName])
              pure bcircPluginOk
            else pure bcircPluginOk : Prog (Bot φ W) Int) s := by
  obtain ⟨entry, hentry, -, hcbs⟩ := getCbIndex_some h
  have hcount : ((s.reg.indexList[indexPoint]?.map (·.callbacks.length)).getD 0) =
      (bucket s.reg.indexList cbName).length := by
    rw [hentry, ← hcbs]
    rfl
  unfold executeBody
  rw [get_bind_run, ← hcount]
  generalize getCbIndex s.reg.indexList cbName = o at h ⊢
  subst h
  rfl

end Call

section TracedCall

variable (f : Answer φ α W) (strArg : Str → α)

/-- A quiet walk, then the notification unless the walk broke. -/
theorem executeBody_quiet
    (nested : List α → Prog (Bot φ (W × List (Invocation φ α))) Int) (cbName : Str)
    (args : List α) (reg : Registry φ) (w : W) (log : List (Invocation φ α))
    (hquiet : Quiet (invocations f args (bucket reg.indexList cbName) w).1) :
    let own := invocations f args (bucket reg.indexList cbName) w
    executeBody (traced f) strArg nested cbName args ⟨reg, (w, log)⟩ =
      if loopResult own.1 ≠ none then .ok bcircPluginFail ⟨reg, (own.2, log ++ own.1)⟩
      else if cbName = callbackCallbacksExecuted ∨ getCbIndex reg.indexList cbName = none then
        .ok bcircPluginOk ⟨reg, (own.2, log ++ own.1)⟩
      else
        (nested (args ++ [strArg cbName]) >>= fun _ => pure bcircPluginOk)
          ⟨reg, (own.2, log ++ own.1)⟩ := by
  intro own
  cases hix : getCbIndex reg.indexList cbName with
  | none =>
      have hown : own = ([], w) := by
        simp only [own, bucket_of_getCbIndex_none hix, invocations]
      rw [executeBody_unknown _ _ _ _ hix, hown]
      simp
  | some indexPoint =>
      obtain ⟨entry, hentry, -, hcbs⟩ := getCbIndex_some hix
      rw [executeBody_known _ _ _ _ hix]
      rw [← hcbs] at hquiet
      have hloop := callbackLoop_quiet f hentry entry.callbacks.length 0 (by omega) w log
        (by simpa using hquiet)
      rw [List.drop_zero, hcbs] at hloop
      rw [bind_ok hloop]
      cases hres : loopResult own.1 with
      | some r =>
          obtain ⟨rfl, -⟩ := loopResult_eq_some.mp hres
          simp only [own] at hres
          simp [own]
      | none =>
          simp only [own] at hres
          by_cases hname : cbName = callbackCallbacksExecuted <;> simp [hname, own]

theorem executeBody_log_extends
    {nested : List α → Prog (Bot φ (W × List (Invocation φ α))) Int}
    (hnested : ∀ args s, s.world.2 <+: (endState (nested args s)).world.2) (cbName : Str)
    (args : List α) (s : Bot φ (W × List (Invocation φ α))) :
    s.world.2 <+:
      (endState (executeBody (traced f) strArg nested cbName args s)).world.2 := by
  cases hix : getCbIndex s.reg.indexList cbName with
  | none =>
      rw [executeBody_unknown _ _ _ _ hix]
      exact List.prefix_refl _
  | some indexPoint =>
      have hgrow := callbackLoop_log_extends f indexPoint args
        (bucket s.reg.indexList cbName).length 0 s
      rw [executeBody_known _ _ _ _ hix]
      cases hloop : callbackLoop (traced f) indexPoint args
          (bucket s.reg.indexList cbName).length 0 s with
      | error e u =>
          rw [hloop] at hgrow
          rwa [bind_error hloop]
      | ok o u =>
          rw [hloop] at hgrow
          rw [bind_ok hloop]
          refine hgrow.trans ?_
          cases o with
          | some r => exact List.prefix_refl _
          | none =>
              simp only
              split
              · rw [endState_bind_pure]
                exact hnested (args ++ [strArg cbName]) u
              · exact List.prefix_refl _

theorem executeBody_noisy
    {nested : List α → Prog (Bot φ (W × List (Invocation φ α))) Int}
    (hnested : ∀ args s, s.world.2 <+: (endState (nested args s)).world.2) (cbName : Str)
    (args : List α) (reg : Registry φ) (w : W) (log : List (Invocation φ α))
    (hnoisy : ¬ Quiet (invocations f args (bucket reg.indexList cbName) w).1) :
    ¬ Quiet (endState
      (executeBody (traced f) strArg nested cbName args ⟨reg, (w, log)⟩)).world.2 := by
  cases hix : getCbIndex reg.indexList cbName with
  | none =>
      rw [bucket_of_getCbIndex_none hix] at hnoisy
      exact absurd (fun inv hinv => nomatch hinv) hnoisy
  | some indexPoint =>
      obtain ⟨entry, hentry, -, hcbs⟩ := getCbIndex_some hix
      rw [← hcbs] at hnoisy
      have hloop := callbackLoop_noisy f hentry entry.callbacks.length 0 (by omega) w log
        (by simpa using hnoisy)
      rw [executeBody_known _ _ _ _ hix, ← hcbs]
      cases hrun : callbackLoop (traced f) indexPoint args entry.callbacks.length 0
          ⟨reg, (w, log)⟩ with
      | error e u =>
          rw [hrun] at hloop
          rwa [bind_error hrun]
      | ok o u =>
          rw [hrun] at hloop
          rw [bind_ok hrun]
          cases o with
          | some r => exact hloop
          | none =>
              simp only
              split
              · rw [endState_bind_pure]
                exact not_quiet_of_prefix (hnested (args ++ [strArg cbName]) u) hloop
              · exact hloop

/-- The invocations of the notification that ends a call. -/
def notified (reg : Registry φ) (cbName : Str) (args : List α) (w : W) :
    List (Invocation φ α) × W :=
  if cbName = callbackCallbacksExecuted ∨ getCbIndex reg.indexList cbName = none then ([], w)
  else invocations f (args ++ [strArg cbName])
    (bucket reg.indexList callbackCallbacksExecuted) w

/-- The invocations of a call: the event's own, then the notification's. -/
def dispatched (reg : Registry φ) (cbName : Str) (args : List α) (w : W) :
    List (Invocation φ α) × W :=
  let own := invocations f args (bucket reg.indexList cbName) w
  if loopResult own.1 ≠ none then own
  else
    let note := notified f strArg reg cbName args own.2
    (own.1 ++ note.1, note.2)

theorem nested_log_extends (args : List α) (s : Bot φ (W × List (Invocation φ α))) :
    s.world.2 <+: (endState (executeBody (traced f) strArg (fun _ => pure bcircPluginOk)
      callbackCallbacksExecuted args s)).world.2 :=
  executeBody_log_extends f strArg (fun _ _ => List.prefix_refl _) _ args s

/-- A call whose walks ask for no action. -/
theorem executeCallbacks_quiet (reg : Registry φ) (cbName : Str) (args : List α) (w : W)
    (log : List (Invocation φ α))
    (hquiet : Quiet (dispatched f strArg reg cbName args w).1) :
    executeCallbacks (traced f) strArg cbName args ⟨reg, (w, log)⟩ =
      .ok (if loopResult (invocations f args (bucket reg.indexList cbName) w).1 ≠ none
          then bcircPluginFail else bcircPluginOk)
        ⟨reg, ((dispatched f strArg reg cbName args w).2,
          log ++ (dispatched f strArg reg cbName args w).1)⟩ := by
  unfold dispatched at hquiet ⊢
  simp only at hquiet ⊢
  by_cases hres : loopResult (invocations f args (bucket reg.indexList cbName) w).1 ≠ none
  · rw [if_pos hres] at hquiet
    rw [executeCallbacks, executeBody_quiet f strArg _ cbName args reg w log hquiet]
    simp [hres]
  · rw [if_neg hres] at hquiet
    have hown : Quiet (invocations f args (bucket reg.indexList cbName) w).1 :=
      fun inv hinv => hquiet inv (List.mem_append_left _ hinv)
    have hnote : Quiet (notified f strArg reg cbName args
        (invocations f args (bucket reg.indexList cbName) w).2).1 :=
      fun inv hinv => hquiet inv (List.mem_append_right _ hinv)
    rw [executeCallbacks, executeBody_quiet f strArg _ cbName args reg w log hown]
    simp only [if_neg hres]
    unfold notified at hnote ⊢
    split
    · rename_i hlast
      rw [if_pos hlast] at hnote
      simp
    · rename_i hlast
      rw [if_neg hlast] at hnote
      -- the nested call does not nest further, and its result is dropped
      have hnested := executeBody_quiet f strArg (fun _ => pure bcircPluginOk)
        callbackCallbacksExecuted (args ++ [strArg cbName]) reg _
        (log ++ (invocations f args (bucket reg.indexList cbName) w).1) hnote
      simp only [true_or, if_true] at hnested
      split at hnested <;> rw [bind_ok hnested] <;> simp [List.append_assoc]

theorem executeCallbacks_noisy (reg : Registry φ) (cbName : Str) (args : List α) (w : W)
    (log : List (Invocation φ α))
    (hnoisy : ¬ Quiet (dispatched f strArg reg cbName args w).1) :
    ¬ Quiet (endState
      (executeCallbacks (traced f) strArg cbName args ⟨reg, (w, log)⟩)).world.2 := by
  by_cases hown : Quiet (invocations f args (bucket reg.indexList cbName) w).1
  · unfold dispatched at hnoisy
    simp only at hnoisy
    split at hnoisy
    · exact absurd hown hnoisy
    · rename_i hres
      have hnote : ¬ Quiet (notified f strArg reg cbName args
          (invocations f args (bucket reg.indexList cbName) w).2).1 := fun hq =>
        hnoisy (fun inv hinv => (List.mem_append.mp hinv).elim (hown inv) (hq inv))
      unfold notified at hnote
      split at hnote
      · exact absurd (fun inv hinv => nomatch hinv) hnote
      · rename_i hlast
        rw [executeCallbacks, executeBody_quiet f strArg _ cbName args reg w log hown]
        simp only [if_neg hres, if_neg hlast]
        have hidle : ∀ (args : List α) (s : Bot φ (W × List (Invocation φ α))),
            s.world.2 <+:
              (endState ((pure bcircPluginOk : Prog _ Int) s)).world.2 :=
          fun _ _ => List.prefix_refl _
        have hnested := executeBody_noisy f strArg hidle callbackCallbacksExecuted
          (args ++ [strArg cbName]) reg _
          (log ++ (invocations f args (bucket reg.indexList cbName) w).1) hnote
        rw [endState_bind_pure]
        exact hnested
  · exact executeBody_noisy f strArg (nested_log_extends f strArg) cbName args reg w log hown

/-- The run of a call is read off its log. -/
theorem executeCallbacks_of_quiet_log (reg : Registry φ) (cbName : Str) (args : List α)
    (w : W)
    (hquiet : Quiet (endState
      (executeCallbacks (traced f) strArg cbName args ⟨reg, (w, [])⟩)).world.2) :
    executeCallbacks (traced f) strArg cbName args ⟨reg, (w, [])⟩ =
      .ok (if loopResult (invocations f args (bucket reg.indexList cbName) w).1 ≠ none
          then bcircPluginFail else bcircPluginOk)
        ⟨reg, ((dispatched f strArg reg cbName args w).2,
          (dispatched f strArg reg cbName args w).1)⟩ := by
  by_cases h : Quiet (dispatched f strArg reg cbName args w).1
  · simpa using executeCallbacks_quiet f strArg reg cbName args w [] h
  · exact absurd hquiet (executeCallbacks_noisy f strArg reg cbName args w [] h)

end TracedCall

/-! ## Callbacks that ask for no action -/

section Walk

variable (call : Callback φ → List α → Prog (Bot φ W) Int) (strArg : Str → α)

/-- The loop along a bucket when no code asks for an action. -/
def walk (args : List α) : List (Callback φ) → Prog (Bot φ W) (Option Int)
  | [] => pure none
  | cb :: rest => do
      let res ← call cb args
      if res = bcircPluginBreak then pure (some bcircPluginFail) else walk args rest

/-- The callbacks leave the registry alone and answer neither STOP nor FAIL. -/
structure Mild : Prop where
  reg : ∀ cb args s, (endState (call cb args s)).reg = s.reg
  quiet : ∀ cb args s res s', call cb args s = .ok res s' →
    res ≠ bcircPluginStop ∧ res ≠ bcircPluginFail

variable {call}

theorem walk_append (args : List α) (a b : List (Callback φ)) :
    walk call args (a ++ b) =
      (do
        match ← walk call args a with
        | some r => pure (some r)
        | none => walk call args b) := by
  induction a with
  | nil => rfl
  | cons cb a ih =>
      rw [List.cons_append, walk, walk, ih, bind_assoc]
      congr 1
      funext res
      split
      · rfl
      · rfl

theorem Mild.callbackLoop (hcall : Mild call) {indexPoint : Nat} {args : List α}
    {entry : CallbackIndex φ} (n i : Nat) (hlen : entry.callbacks.length = i + n) {s : Bot φ W}
    (hentry : s.reg.indexList[indexPoint]? = some entry) :
    callbackLoop call indexPoint args n i s = walk call args (entry.callbacks.drop i) s := by
  induction n generalizing i s with
  | zero =>
      rw [List.drop_of_length_le (by omega)]
      rfl
  | succ n ih =>
      have hi : i < entry.callbacks.length := by omega
      have hcb : s.reg.callbackAt? indexPoint i = some entry.callbacks[i] := by
        simp [Registry.callbackAt?, hentry, List.getElem?_eq_getElem hi]
      rw [List.drop_eq_getElem_cons hi, Bcirc.callbackLoop, get_bind_run, hcb, orFault_some,
        pure_bind_run, walk]
      have hreg := hcall.reg entry.callbacks[i] args s
      cases hrun : call entry.callbacks[i] args s with
      | error e u => rw [bind_error hrun, bind_error hrun]
      | ok res u =>
          rw [hrun] at hreg
          rw [bind_ok hrun, bind_ok hrun]
          by_cases hbreak : res = bcircPluginBreak
          · rw [if_pos hbreak, hbreak, bind_ok (afterCallback_break i u)]
          · obtain ⟨hstop, hfail⟩ := hcall.quiet _ _ _ _ _ hrun
            rw [if_neg hbreak, bind_ok (afterCallback_pass hbreak hstop hfail i u)]
            have hentry' : u.reg.indexList[indexPoint]? = some entry :=
              (congrArg (fun reg => reg.indexList[indexPoint]?) hreg).trans hentry
            exact ih (i + 1) (by omega) hentry'

theorem Mild.executeBody (hcall : Mild call) (nested : List α → Prog (Bot φ W) Int)
    {cbName : Str} (args : List α) {s : Bot φ W} {indexPoint : Nat}
    (hindex : getCbIndex s.reg.indexList cbName = some indexPoint) :
    executeBody call strArg nested cbName args s =
      (do
        match ← walk call args (bucket s.reg.indexList cbName) with
        | some r => pure r
        | none =>
            if cbName ≠ callbackCallbacksExecuted then
              let _ ← nested (args ++ [strArg cbName])
              pure bcircPluginOk
            else pure bcircPluginOk : Prog (Bot φ W) Int) s := by
  obtain ⟨entry, hentry, -, hbucket⟩ := getCbIndex_some hindex
  have hloop : Bcirc.callbackLoop call indexPoint args entry.callbacks.length 0 s =
      walk call args (entry.callbacks.drop 0) s :=
    hcall.callbackLoop entry.callbacks.length 0 (by omega) hentry
  rw [List.drop_zero, hbucket] at hloop
  rw [executeBody_known call strArg nested args hindex]
  cases hrun : walk call args (bucket s.reg.indexList cbName) s with
  | error e u => rw [bind_error (hloop.trans hrun), bind_error hrun]
  | ok o u => rw [bind_ok (hloop.trans hrun), bind_ok hrun]

end Walk

end Bcirc
