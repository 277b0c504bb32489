import Bcirc.DispatchOrder

/-!
# What a dispatch does to the plugins

A callback that answers STOP or FAIL asks for its plugin to be paused or
removed. The loop looks the plugin up at the callback's own position in
the bucket, but the bucket is sorted by priority and `plugin_list` by load
time: `handlesOwner_iff` says exactly when the plugin it finds is the
callback's owner. Pausing, besides, is only noted in the plugin's record;
no dispatch reads it, so a paused plugin's callbacks are invoked as before
(`pausePlugin_invokes`).

`Round` collects the registries that the loop meets, whatever the codes;
`round_of_mem_log` places every invocation of a run at its round.
-/

namespace Bcirc

open CProg CStr

variable {φ α W : Type}

/-! ## The rounds of the loop -/

/-- `reg` is the registry at the start of round `i` of a dispatch that began
in `reg₀`, for some codes of the callbacks invoked before. -/
inductive Round (indexPoint count : Nat) (reg₀ : Registry φ) : Nat → Registry φ → Prop where
  | start : Round indexPoint count reg₀ 0 reg₀
  | next {i : Nat} {reg reg' : Registry φ} {cb : Callback φ} (res : Int) :
      Round indexPoint count reg₀ i reg → i < count →
      reg.callbackAt? indexPoint i = some cb →
      afterCallback i res (⟨reg, ()⟩ : Bot φ Unit) = .ok none ⟨reg', ()⟩ →
      Round indexPoint count reg₀ (i + 1) reg'

/-- One action is one step of the history. -/
theorem afterCallback_later {i : Nat} {res : Int} {reg reg' : Registry φ}
    (h : afterCallback i res (⟨reg, ()⟩ : Bot φ Unit) = .ok none ⟨reg', ()⟩) :
    reg' = reg ∨ ∃ p, reg.pluginList[i]? = some p ∧
      (reg' = pausePlugin p.serial reg ∨ reg' = removePlugin p.serial reg) := by
  by_cases hb : res = bcircPluginBreak
  · rw [hb, afterCallback_break] at h
    cases h
  by_cases hact : res = bcircPluginStop ∨ res = bcircPluginFail
  · cases hp : reg.pluginList[i]? with
    | none =>
        rw [afterCallback_outOfBounds hact hp] at h
        cases h
    | some p =>
        rcases hact with rfl | rfl
        · rw [afterCallback_stop hp] at h
          cases h
          exact Or.inr ⟨p, rfl, Or.inl rfl⟩
        · rw [afterCallback_fail hp] at h
          cases h
          exact Or.inr ⟨p, rfl, Or.inr rfl⟩
  · rw [not_or] at hact
    rw [afterCallback_pass hb hact.1 hact.2] at h
    cases h
    exact Or.inl rfl

theorem Round.later {indexPoint count i : Nat} {reg₀ reg : Registry φ}
    (h : Round indexPoint count reg₀ i reg) : Later reg₀ reg := by
  induction h with
  | start => exact .now
  | next res _ _ _ hact ih =>
      rcases afterCallback_later hact with rfl | ⟨p, -, rfl | rfl⟩
      · exact ih
      · exact ih.pause p.serial
      · exact ih.remove p.serial

theorem getCbIndex_removeIndex (indexList : List (CallbackIndex φ)) (cb : Callback φ)
    (cbName : Str) :
    getCbIndex (removeIndex indexList cb) cbName = getCbIndex indexList cbName := by
  simp only [getCbIndex, removeIndex, List.findIdx?_map]
  rfl

theorem getCbIndex_foldl_removeIndex (cbs : List (Callback φ))
    (indexList : List (CallbackIndex φ)) (cbName : Str) :
    getCbIndex (cbs.foldl removeIndex indexList) cbName = getCbIndex indexList cbName := by
  induction cbs generalizing indexList with
  | nil => rfl
  | cons cb cbs ih => rw [List.foldl_cons, ih, getCbIndex_removeIndex]

theorem getCbIndex_removePlugin (ptr : Nat) (reg : Registry φ) (cbName : Str) :
    getCbIndex (removePlugin ptr reg).indexList cbName =
      getCbIndex reg.indexList cbName := by
  simp only [removePlugin]
  generalize reg.pluginList.filter _ = ps
  generalize reg.indexList = indexList
  induction ps generalizing indexList with
  | nil => rfl
  | cons p ps ih => rw [List.foldl_cons, ih, getCbIndex_foldl_removeIndex]

/-- The event stays at its place in the index for the whole dispatch. -/
theorem Round.getCbIndex {indexPoint count i : Nat} {reg₀ reg : Registry φ}
    (h : Round indexPoint count reg₀ i reg) (cbName : Str) :
    getCbIndex reg.indexList cbName = Bcirc.getCbIndex reg₀.indexList cbName := by
  induction h with
  | start => rfl
  | next res _ _ _ hact ih =>
      rcases afterCallback_later hact with rfl | ⟨p, -, rfl | rfl⟩
      · exact ih
      · exact ih
      · rw [getCbIndex_removePlugin, ih]

/-- The action of a round does not depend on the world. -/
theorem afterCallback_forget {i : Nat} {res : Int} {s s' : Bot φ W} {o : Option Int}
    (h : afterCallback i res s = .ok o s') :
    afterCallback i res (⟨s.reg, ()⟩ : Bot φ Unit) = .ok o ⟨s'.reg, ()⟩ := by
  by_cases hb : res = bcircPluginBreak
  · rw [hb, afterCallback_break] at h ⊢
    cases h
    rfl
  by_cases hact : res = bcircPluginStop ∨ res = bcircPluginFail
  · cases hp : s.reg.pluginList[i]? with
    | none =>
        rw [afterCallback_outOfBounds hact hp] at h
        cases h
    | some p =>
        rcases hact with rfl | rfl
        · rw [afterCallback_stop hp] at h
          cases h
          exact afterCallback_stop (s := ⟨s.reg, ()⟩) hp
        · rw [afterCallback_fail hp] at h
          cases h
          exact afterCallback_fail (s := ⟨s.reg, ()⟩) hp
  · rw [not_or] at hact
    rw [afterCallback_pass hb hact.1 hact.2] at h ⊢
    cases h
    rfl

/-- Every invocation of a run happens at its round. -/
theorem round_of_mem_log (f : Answer φ α W) {indexPoint count : Nat} {reg₀ : Registry φ}
    (args : List α) (n i : Nat) (hcount : i + n = count)
    (s : Bot φ (W × List (Invocation φ α))) (hs : Round indexPoint count reg₀ i s.reg)
    (k : Nat) (inv : Invocation φ α)
    (hk : ((endState (callbackLoop (traced f) indexPoint args n i s)).world.2.drop
      s.world.2.length)[k]? = some inv) :
    ∃ reg, Round indexPoint count reg₀ (i + k) reg ∧
      reg.callbackAt? indexPoint (i + k) = some inv.cb := by
  induction n generalizing i s k with
  | zero => simp [callbackLoop] at hk
  | succ n ih =>
      cases hcb : s.reg.callbackAt? indexPoint i with
      | none =>
          rw [callbackLoop_stuck f args n hcb] at hk
          simp at hk
      | some cb =>
          have hlog : (record f cb args s).world.2.drop s.world.2.length =
              [⟨cb, args, (f cb args s.world.1).1⟩] := by
            simp [record]
          have hlen : s.world.2.length ≤ (record f cb args s).world.2.length := by
            simp [record]
          obtain ⟨u, hworld, hend | ⟨hact, hrun⟩⟩ := callbackLoop_round f args n hcb
          · rw [hend, hworld, hlog] at hk
            cases k with
            | zero =>
                cases hk
                exact ⟨s.reg, hs, hcb⟩
            | succ k => simp at hk
          · obtain ⟨rest, hrest⟩ := callbackLoop_log_extends f indexPoint args n (i + 1) u
            rw [hrun, ← hrest, hworld, List.drop_append_of_le_length hlen, hlog] at hk
            cases k with
            | zero =>
                cases hk
                exact ⟨s.reg, hs, hcb⟩
            | succ k =>
                have hforget : afterCallback i (f cb args s.world.1).1
                    (⟨s.reg, ()⟩ : Bot φ Unit) = .ok none ⟨u.reg, ()⟩ :=
                  afterCallback_forget (s := record f cb args s) hact
                have hrec := ih (i + 1) (by omega) u (.next _ hs (by omega) hcb hforget) k
                  (by rw [← hrest, List.drop_left]; simpa using hk)
                rwa [show i + 1 + k = i + (k + 1) by omega] at hrec

/-! ## Pausing does not stop a plugin -/

/-- No callback of `cbs` is invoked by a dispatch from `reg`. -/
def NeverInvoked (reg : Registry φ) (cbs : List (Callback φ)) : Prop :=
  ∀ (f : Answer φ Str Unit) (cbName : Str) (args : List Str),
    ∀ inv ∈ (endState
      (executeCallbacks (traced f) id cbName args ⟨reg, ((), [])⟩)).world.2, inv.cb ∉ cbs

def answering (res : Int) : Answer φ α W := fun _ _ w => (res, w)

theorem invocations_ok (args : List α) (order : List (Callback φ)) (w : W) :
    invocations (answering bcircPluginOk) args order w =
      (order.map fun cb => ⟨cb, args, bcircPluginOk⟩, w) := by
  induction order with
  | nil => rfl
  | cons cb rest ih =>
      exact congrArg (fun t : List (Invocation φ α) × W => (_ :: t.1, t.2)) ih

/-- When every callback answers OK the whole bucket is invoked. -/
theorem executeCallbacks_ok (reg : Registry φ) (strArg : Str → α) (cbName : Str)
    (args : List α) (w : W) :
    (endState (executeCallbacks (traced (answering bcircPluginOk)) strArg cbName args
        ⟨reg, (w, [])⟩)).world.2 =
      (bucket reg.indexList cbName).map (⟨·, args, bcircPluginOk⟩) ++
        if cbName = callbackCallbacksExecuted ∨ getCbIndex reg.indexList cbName = none then []
        else (bucket reg.indexList callbackCallbacksExecuted).map
          (⟨·, args ++ [strArg cbName], bcircPluginOk⟩) := by
  have hmap : ∀ (as : List α) (cbs : List (Callback φ)), ∀ inv ∈
      cbs.map (fun cb => (⟨cb, as, bcircPluginOk⟩ : Invocation φ α)),
      inv.res = bcircPluginOk := by
    intro as cbs inv hinv
    obtain ⟨cb, -, rfl⟩ := List.mem_map.mp hinv
    rfl
  have hres : loopResult ((bucket reg.indexList cbName).map
      fun cb => (⟨cb, args, bcircPluginOk⟩ : Invocation φ α)) = none :=
    loopResult_eq_none.mpr fun inv hinv => by
      rw [hmap args _ inv hinv]
      decide
  have hdisp : (dispatched (answering bcircPluginOk) strArg reg cbName args w).1 =
      (bucket reg.indexList cbName).map (⟨·, args, bcircPluginOk⟩) ++
        if cbName = callbackCallbacksExecuted ∨ getCbIndex reg.indexList cbName = none then []
        else (bucket reg.indexList callbackCallbacksExecuted).map
          (⟨·, args ++ [strArg cbName], bcircPluginOk⟩) := by
    simp only [dispatched, invocations_ok, hres, ne_eq, not_true_eq_false, if_false, notified]
    split <;> rfl
  have hquiet : Quiet (dispatched (answering bcircPluginOk) strArg reg cbName args w).1 := by
    rw [hdisp]
    intro inv hinv
    have hok : inv.res = bcircPluginOk := by
      rcases List.mem_append.mp hinv with h | h
      · exact hmap args _ inv h
      · split at h
        · cases h
        · exact hmap _ _ inv h
    rw [hok]
    decide
  rw [executeCallbacks_quiet _ strArg reg cbName args w [] hquiet, endState_ok]
  simpa using hdisp

/-- The callbacks of a paused plugin are invoked as before. -/
theorem pausePlugin_invokes {reg : Registry φ} {ptr : Nat} {cbName : Str} {cb : Callback φ}
    {cbs : List (Callback φ)} (hcb : cb ∈ bucket reg.indexList cbName) (hmem : cb ∈ cbs) :
    ¬ NeverInvoked (pausePlugin ptr reg) cbs := by
  intro hnever
  refine hnever (answering bcircPluginOk) cbName [] ⟨cb, [], bcircPluginOk⟩ ?_ hmem
  rw [executeCallbacks_ok]
  exact List.mem_append_left _ (List.mem_map.mpr ⟨cb, hcb, rfl⟩)

/-! ## STOP and FAIL -/

/-- What a dispatch owes the plugin `p` whose callback answered `res` in
round `i`: on FAIL it removes `p`, on STOP it pauses `p` for good, and in
both cases it leaves every other plugin and its callbacks alone. -/
def HandlesOwner (reg : Registry φ) (i : Nat) (p : Plugin φ) (res : Int) : Prop :=
  (res = bcircPluginFail → ∃ reg',
    afterCallback i res (⟨reg, ()⟩ : Bot φ Unit) = .ok none ⟨reg', ()⟩ ∧
      reg'.pluginList = reg.pluginList.filter (fun q => q.serial != p.serial) ∧
      ∀ cbName, bucket reg'.indexList cbName = (bucket reg.indexList cbName).filter
        fun c => !(p.callbackList.map (·.serial)).contains c.serial) ∧
  (res = bcircPluginStop → ∃ reg',
    afterCallback i res (⟨reg, ()⟩ : Bot φ Unit) = .ok none ⟨reg', ()⟩ ∧
      (reg'.pluginList = reg.pluginList.map fun q =>
        if q.serial = p.serial then { q with status := .paused } else q) ∧
      reg'.indexList = reg.indexList ∧
      ∀ later, Later reg' later → NeverInvoked later p.callbackList)

theorem bucket_of_callbackAt {reg : Registry φ} {cbName : Str} {indexPoint i : Nat}
    {cb : Callback φ} (hix : getCbIndex reg.indexList cbName = some indexPoint)
    (hcb : reg.callbackAt? indexPoint i = some cb) : cb ∈ bucket reg.indexList cbName := by
  obtain ⟨entry, hentry, -, hcbs⟩ := getCbIndex_some hix
  rw [Registry.callbackAt?, hentry, Option.bind_some] at hcb
  rw [← hcbs]
  exact List.mem_of_getElem? hcb

/-- FAIL removes the owner and no one else exactly when the owner stands in
`plugin_list` where its callback stands in the bucket. -/
theorem handlesOwner_fail_iff {reg : Registry φ} {orphans : List (Callback φ)}
    (hinv : reg.Inv orphans) {i : Nat} {p : Plugin φ} (hp : p ∈ reg.pluginList) :
    HandlesOwner reg i p bcircPluginFail ↔ reg.pluginList[i]? = some p := by
  constructor
  · rintro ⟨hfail, -⟩
    obtain ⟨reg', hact, hlist, -⟩ := hfail rfl
    cases hq : reg.pluginList[i]? with
    | none =>
        rw [afterCallback_outOfBounds (Or.inr rfl) hq] at hact
        cases hact
    | some q =>
        rw [afterCallback_fail hq] at hact
        cases hact
        have hgone : p ∉ (removePlugin q.serial reg).pluginList := by
          rw [hlist, List.mem_filter]
          simp
        have hserial : p.serial = q.serial := by
          by_contra hne
          exact hgone (List.mem_filter.mpr ⟨hp, by simpa using hne⟩)
        rw [hinv.eq_of_serial hp (List.mem_of_getElem? hq) hserial]
  · intro hq
    refine ⟨fun _ => ⟨removePlugin p.serial reg, afterCallback_fail hq, rfl, fun cbName => ?_⟩,
      fun h => absurd h (by decide)⟩
    rw [removePlugin_indexList hinv hp, bucket_foldl_removeIndex]

/-- In every dispatch from every reachable registry, for every round, code
and owner. -/
theorem handlesOwner_iff {reg₀ : Registry φ} (h₀ : Reachable reg₀) {cbName : Str}
    {indexPoint : Nat} (hix : getCbIndex reg₀.indexList cbName = some indexPoint)
    {i : Nat} {reg : Registry φ}
    (hround : Round indexPoint (bucket reg₀.indexList cbName).length reg₀ i reg)
    {cb : Callback φ} (hcb : reg.callbackAt? indexPoint i = some cb)
    {p : Plugin φ} (hp : p ∈ reg.pluginList) (hown : cb ∈ p.callbackList) (res : Int) :
    HandlesOwner reg i p res ↔
      res ≠ bcircPluginStop ∧ (res = bcircPluginFail → reg.pluginList[i]? = some p) := by
  obtain ⟨orphans, hinv⟩ := Reachable.inv (h₀.trans hround.later)
  by_cases hfail : res = bcircPluginFail
  · subst hfail
    rw [handlesOwner_fail_iff hinv hp]
    exact ⟨fun h => ⟨by decide, fun _ => h⟩, fun h => h.2 rfl⟩
  by_cases hstop : res = bcircPluginStop
  · subst hstop
    refine iff_of_false (fun h => ?_) (fun h => h.1 rfl)
    obtain ⟨reg', hact, -, -, hnever⟩ := h.2 rfl
    -- whichever plugin was paused, the bucket still holds `cb`
    cases hq : reg.pluginList[i]? with
    | none =>
        rw [afterCallback_outOfBounds (Or.inl rfl) hq] at hact
        cases hact
    | some q =>
        rw [afterCallback_stop hq] at hact
        cases hact
        rw [← hround.getCbIndex cbName] at hix
        exact pausePlugin_invokes (bucket_of_callbackAt hix hcb) hown (hnever _ .now)
  · exact iff_of_true ⟨fun h => absurd h hfail, fun h => absurd h hstop⟩
      ⟨hstop, fun h => absurd h hfail⟩

/-! ## At the wrong position

In the sample registry the bucket of `server_recv` starts with the second
plugin's callback. Its FAIL removes the first plugin. -/

theorem sampleRegistry_second : ∃ p cb, sampleRegistry.pluginList[1]? = some p ∧
    sampleRegistry.callbackAt? 0 0 = some cb ∧ p.serial = 4 ∧ cb ∈ p.callbackList := by
  refine ⟨⟨4, 2, ascii "name", ascii "0.1", ascii "author", ascii "b.so", .running,
    [⟨5, ⟨2, callbackServerRecv⟩, 20, 3⟩, ⟨6, ⟨2, callbackCallbacksExecuted⟩, 21, 0⟩]⟩,
    ⟨5, ⟨2, callbackServerRecv⟩, 20, 3⟩, ?_, ?_, rfl, List.mem_cons_self⟩
  · decide +kernel
  · decide +kernel

theorem handlesOwner_iff_sample : ∃ p, sampleRegistry.pluginList[1]? = some p ∧
    (HandlesOwner sampleRegistry 0 p bcircPluginFail ↔
      bcircPluginFail ≠ bcircPluginStop ∧
        (bcircPluginFail = bcircPluginFail → sampleRegistry.pluginList[0]? = some p)) := by
  obtain ⟨p, cb, hp, hcb, -, hown⟩ := sampleRegistry_second
  have hix : getCbIndex sampleRegistry.indexList callbackServerRecv = some 0 := by
    decide +kernel
  exact ⟨p, hp, handlesOwner_iff sampleRegistry_managed.reachable hix .start hcb
    (List.mem_of_getElem? hp) hown bcircPluginFail⟩

theorem not_handlesOwner_sample : ∃ p cb, sampleRegistry.pluginList[1]? = some p ∧
    sampleRegistry.callbackAt? 0 0 = some cb ∧ cb ∈ p.callbackList ∧
    ¬ HandlesOwner sampleRegistry 0 p bcircPluginFail := by
  obtain ⟨p, cb, hp, hcb, hserial, hown⟩ := sampleRegistry_second
  refine ⟨p, cb, hp, hcb, hown, fun h => ?_⟩
  obtain ⟨reg', hact, hlist, -⟩ := h.1 rfl
  have hend : (endState (afterCallback 0 bcircPluginFail
      (⟨sampleRegistry, ()⟩ : Bot Nat Unit))).reg.pluginList.map (·.handle) = [2] := by
    decide +kernel
  rw [hact, endState_ok, hlist, hserial] at hend
  revert hend
  decide +kernel

end Bcirc
