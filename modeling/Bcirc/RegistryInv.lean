import Mathlib.Data.List.Perm.Basic
import Mathlib.Data.List.Nodup
import Bcirc.PluginHandler

/-!
# The registry invariant

What the event index has to do with the plugins that are loaded. The
bucket of an event holds exactly the live callbacks registered for it
(`IndexInv.perm`), each before those of a higher priority and, among
equals, before those registered later (`IndexInv.sorted`).

`live` is every callback the index knows: those of the loaded plugins and
the orphans left behind by plugins whose init failed. Each operation of
the handler has one lemma here (`indexCallback`, `removeIndex`,
`runCalls`, `loadPlugin`, `pausePlugin`, `removePlugin`), and the
reachability predicates at the end collect them: `Managed` for histories
in which every load succeeds, `Reachable` for all histories.
-/

namespace Bcirc

open CProg CStr

variable {φ : Type}

/-! ## Buckets -/

/-- The callbacks a dispatch of `cbName` walks. -/
def bucket : List (CallbackIndex φ) → Str → List (Callback φ)
  | [], _ => []
  | entry :: rest, cbName =>
      if entry.cbName.str = cbName then entry.callbacks else bucket rest cbName

theorem getCbIndex_cons (entry : CallbackIndex φ) (rest : List (CallbackIndex φ))
    (cbName : Str) :
    getCbIndex (entry :: rest) cbName =
      if entry.cbName.str = cbName then some 0 else (getCbIndex rest cbName).map (· + 1) := by
  simp [getCbIndex, List.findIdx?_cons]

theorem getCbIndex_some {indexList : List (CallbackIndex φ)} {cbName : Str} {i : Nat}
    (h : getCbIndex indexList cbName = some i) :
    ∃ entry, indexList[i]? = some entry ∧ entry.cbName.str = cbName ∧
      entry.callbacks = bucket indexList cbName := by
  induction indexList generalizing i with
  | nil => simp [getCbIndex] at h
  | cons entry rest ih =>
      rw [getCbIndex_cons] at h
      split at h
      · rename_i hname
        obtain rfl := Option.some.inj h
        exact ⟨entry, rfl, hname, by simp [bucket, hname]⟩
      · rename_i hname
        obtain ⟨j, hj, rfl⟩ := Option.map_eq_some_iff.mp h
        obtain ⟨e, he, hen, hb⟩ := ih hj
        exact ⟨e, by simpa using he, hen, by simp [bucket, hname, hb]⟩

theorem bucket_of_getCbIndex_none {indexList : List (CallbackIndex φ)} {cbName : Str}
    (h : getCbIndex indexList cbName = none) : bucket indexList cbName = [] := by
  induction indexList with
  | nil => rfl
  | cons entry rest ih =>
      rw [getCbIndex_cons] at h
      split at h
      · cases h
      · rename_i hname
        rw [bucket, if_neg hname, ih (by simpa using h)]

theorem indexCallback_cons (cb : Callback φ) (entry : CallbackIndex φ)
    (rest : List (CallbackIndex φ)) :
    indexCallback cb (entry :: rest) =
      if entry.cbName.str = cb.cbName.str then
        { entry with callbacks := Msort.msort compareIndex (entry.callbacks ++ [cb]) } :: rest
      else entry :: indexCallback cb rest := by
  unfold indexCallback
  by_cases hname : entry.cbName.str = cb.cbName.str
  · rw [getCbIndex_cons, if_pos hname, if_pos hname]
    rfl
  · rw [getCbIndex_cons, if_neg hname, if_neg hname]
    cases getCbIndex rest cb.cbName.str <;> rfl

/-- Indexing a callback changes the bucket of its own event only. -/
theorem bucket_indexCallback (cb : Callback φ) (indexList : List (CallbackIndex φ))
    (cbName : Str) :
    bucket (indexCallback cb indexList) cbName =
      if cb.cbName.str = cbName then
        Msort.msort compareIndex (bucket indexList cbName ++ [cb])
      else bucket indexList cbName := by
  induction indexList with
  | nil => rfl
  | cons entry rest ih =>
      rw [indexCallback_cons]
      by_cases hcb : entry.cbName.str = cb.cbName.str
      · rw [if_pos hcb]
        by_cases hname : cb.cbName.str = cbName
        · simp [bucket, hcb.trans hname, hname]
        · have hne : entry.cbName.str ≠ cbName := fun h => hname (hcb.symm.trans h)
          simp [bucket, hne, hname]
      · rw [if_neg hcb, bucket, ih]
        by_cases hname : entry.cbName.str = cbName
        · have hne : cb.cbName.str ≠ cbName := fun h => hcb (hname.trans h.symm)
          simp [bucket, hname, hne]
        · simp [bucket, hname]

theorem bucket_removeIndex (indexList : List (CallbackIndex φ)) (cb : Callback φ)
    (cbName : Str) :
    bucket (removeIndex indexList cb) cbName =
      (bucket indexList cbName).filter fun c => c.serial != cb.serial := by
  induction indexList with
  | nil => rfl
  | cons entry rest ih =>
      by_cases hname : entry.cbName.str = cbName
      · simp [removeIndex, bucket, hname]
      · simpa [removeIndex, bucket, hname] using ih

/-- `remove_index` for every callback of a list. -/
theorem bucket_foldl_removeIndex (cbs : List (Callback φ))
    (indexList : List (CallbackIndex φ)) (cbName : Str) :
    bucket (cbs.foldl removeIndex indexList) cbName =
      (bucket indexList cbName).filter fun c => !(cbs.map (·.serial)).contains c.serial := by
  induction cbs generalizing indexList with
  | nil => simp
  | cons cb cbs ih =>
      rw [List.foldl_cons, ih, bucket_removeIndex, List.filter_filter]
      refine List.filter_congr fun c _ => ?_
      by_cases h : c.serial = cb.serial <;> simp [h]

/-! ## The order of a bucket -/

/-- `a` is dispatched before `b`: a smaller priority, or the same and
registered earlier. -/
def Before (a b : Callback φ) : Prop :=
  a.priority < b.priority ∨ a.priority = b.priority ∧ a.serial < b.serial

theorem compareIndex_le_zero {a b : Callback φ} :
    compareIndex a b ≤ 0 ↔ a.priority ≤ b.priority := by
  unfold compareIndex
  split <;> omega

theorem before_of_stable {a b : Callback φ}
    (h : Msort.Stable compareIndex
      (fun a b => a.priority = b.priority → a.serial < b.serial) a b) : Before a b := by
  obtain ⟨hle, htie⟩ := h
  rw [compareIndex_le_zero] at hle
  rcases Int.lt_or_eq_of_le hle with hlt | heq
  · exact Or.inl hlt
  · exact Or.inr ⟨heq, htie (compareIndex_le_zero.mpr (Int.le_of_eq heq.symm)) heq⟩

/-- Appending the newest callback and sorting puts it behind its equals. -/
theorem pairwise_before_msort {l : List (Callback φ)} {cb : Callback φ}
    (hl : l.Pairwise Before) (hnew : ∀ c ∈ l, c.serial < cb.serial) :
    (Msort.msort compareIndex (l ++ [cb])).Pairwise Before := by
  have hties : (l ++ [cb]).Pairwise
      (fun a b => a.priority = b.priority → a.serial < b.serial) := by
    refine List.pairwise_append.mpr ⟨hl.imp fun {a b} hab heq => ?_,
      List.pairwise_singleton _ _, fun c hc d hd _ => ?_⟩
    · rcases hab with hlt | ⟨-, hs⟩
      · omega
      · exact hs
    · rw [List.mem_singleton.mp hd]
      exact hnew c hc
  refine (Msort.pairwise_msort ?_ ?_ hties).imp fun h => before_of_stable h
  · intro a b
    rw [compareIndex_le_zero, compareIndex_le_zero]
    exact Int.le_total _ _
  · intro a b c hab hbc
    rw [compareIndex_le_zero] at *
    exact Int.le_trans hab hbc

/-! ## The invariant -/

/-- The index holds the callbacks `live`, all of them older than `next`. -/
structure IndexInv (indexList : List (CallbackIndex φ)) (live : List (Callback φ))
    (next : Nat) : Prop where
  perm : ∀ cbName,
    (bucket indexList cbName).Perm (live.filter fun c => c.cbName.str == cbName)
  sorted : ∀ cbName, (bucket indexList cbName).Pairwise Before
  nodup : (live.map (·.serial)).Nodup
  fresh : ∀ c ∈ live, c.serial < next

theorem IndexInv.mem_bucket {indexList : List (CallbackIndex φ)} {live : List (Callback φ)}
    {next : Nat} (h : IndexInv indexList live next) {cb : Callback φ} {cbName : Str} :
    cb ∈ bucket indexList cbName ↔ cb ∈ live ∧ cb.cbName.str = cbName := by
  rw [(h.perm cbName).mem_iff, List.mem_filter, beq_iff_eq]

theorem IndexInv.bucket_nodup {indexList : List (CallbackIndex φ)} {live : List (Callback φ)}
    {next : Nat} (h : IndexInv indexList live next) (cbName : Str) :
    (bucket indexList cbName).Nodup :=
  (h.perm cbName).nodup_iff.mpr ((h.nodup.of_map _).filter _)

theorem IndexInv.mono {indexList : List (CallbackIndex φ)} {live : List (Callback φ)}
    {next next' : Nat} (h : IndexInv indexList live next) (hle : next ≤ next') :
    IndexInv indexList live next' :=
  ⟨h.perm, h.sorted, h.nodup, fun c hc => Nat.lt_of_lt_of_le (h.fresh c hc) hle⟩

theorem IndexInv.of_perm {indexList : List (CallbackIndex φ)} {live live' : List (Callback φ)}
    {next : Nat} (h : IndexInv indexList live next) (hp : live.Perm live') :
    IndexInv indexList live' next :=
  ⟨fun cbName => (h.perm cbName).trans (hp.filter _), h.sorted,
    (hp.map _).nodup_iff.mp h.nodup, fun c hc => h.fresh c (hp.mem_iff.mpr hc)⟩

theorem indexInv_initIndex : IndexInv (initIndex : Registry φ).indexList [] 0 :=
  ⟨fun _ => List.Perm.refl _, fun _ => List.Pairwise.nil, List.nodup_nil,
    fun _ hc => nomatch hc⟩

theorem IndexInv.indexCallback {indexList : List (CallbackIndex φ)}
    {live : List (Callback φ)} (cb : Callback φ) (h : IndexInv indexList live cb.serial) :
    IndexInv (indexCallback cb indexList) (live ++ [cb]) (cb.serial + 1) where
  perm cbName := by
    rw [bucket_indexCallback, List.filter_append]
    by_cases hname : cb.cbName.str = cbName
    · rw [if_pos hname]
      refine (Msort.msort_perm _ _).trans ?_
      simpa [hname] using (h.perm cbName).append_right [cb]
    · rw [if_neg hname]
      simpa [hname] using h.perm cbName
  sorted cbName := by
    rw [bucket_indexCallback]
    split
    · exact pairwise_before_msort (h.sorted cbName)
        fun c hc => h.fresh c (h.mem_bucket.mp hc).1
    · exact h.sorted cbName
  nodup := by
    rw [List.map_append, List.nodup_append]
    refine ⟨h.nodup, by simp, ?_⟩
    intro s hs t ht
    obtain ⟨c, hc, rfl⟩ := List.mem_map.mp hs
    have hlt := h.fresh c hc
    simp only [List.map_cons, List.map_nil, List.mem_singleton] at ht
    omega
  fresh c hc := by
    rcases List.mem_append.mp hc with hc | hc
    · have hlt := h.fresh c hc
      omega
    · rw [List.mem_singleton.mp hc]
      omega

/-- Removing the callbacks `cbs` from the index leaves the others live. -/
theorem IndexInv.removeIndex {indexList : List (CallbackIndex φ)}
    {cbs live : List (Callback φ)} {next : Nat} (h : IndexInv indexList (cbs ++ live) next) :
    IndexInv (cbs.foldl Bcirc.removeIndex indexList) live next := by
  have hnd := h.nodup
  rw [List.map_append, List.nodup_append] at hnd
  obtain ⟨-, hlive, hdisj⟩ := hnd
  refine ⟨fun cbName => ?_, fun cbName => ?_, hlive,
    fun c hc => h.fresh c (List.mem_append_right _ hc)⟩
  · rw [bucket_foldl_removeIndex]
    refine ((h.perm cbName).filter _).trans (List.Perm.of_eq ?_)
    have hcbs : cbs.filter (fun c => !(cbs.map (·.serial)).contains c.serial) = [] := by
      refine List.filter_eq_nil_iff.mpr fun c hc => ?_
      simpa using ⟨c, hc, rfl⟩
    have hkeep : live.filter (fun c => !(cbs.map (·.serial)).contains c.serial) = live := by
      refine List.filter_eq_self.mpr fun c hc => ?_
      have hnot : c.serial ∉ cbs.map (·.serial) := fun hmem =>
        hdisj _ hmem _ (List.mem_map_of_mem hc) rfl
      simpa using hnot
    rw [List.filter_filter, List.filter_congr fun c _ => Bool.and_comm _ _,
      ← List.filter_filter, List.filter_append, hcbs, hkeep, List.nil_append]
  · rw [bucket_foldl_removeIndex]
    exact (h.sorted cbName).filter _

/-- The callbacks of the loaded plugins, in load order. -/
def Registry.loaded (reg : Registry φ) : List (Callback φ) :=
  reg.pluginList.flatMap (·.callbackList)

/-- The callbacks that the loaded plugins registered for `cbName`. -/
def Registry.registeredFor (reg : Registry φ) (cbName : Str) : List (Callback φ) :=
  reg.loaded.filter fun c => c.cbName.str == cbName

/-- The registry invariant. -/
structure Registry.Inv (reg : Registry φ) (orphans : List (Callback φ)) : Prop where
  index : IndexInv reg.indexList (reg.loaded ++ orphans) reg.nextSerial
  nodup : (reg.pluginList.map (·.serial)).Nodup
  fresh : ∀ p ∈ reg.pluginList, p.serial < reg.nextSerial

theorem Registry.Inv.eq_of_serial {reg : Registry φ} {orphans : List (Callback φ)}
    (h : reg.Inv orphans) {p q : Plugin φ} (hp : p ∈ reg.pluginList)
    (hq : q ∈ reg.pluginList) (hs : p.serial = q.serial) : p = q :=
  List.inj_on_of_nodup_map h.nodup hp hq hs

theorem Registry.Inv.bucket_perm {reg : Registry φ} (h : reg.Inv []) (cbName : Str) :
    (bucket reg.indexList cbName).Perm (reg.registeredFor cbName) := by
  simpa [Registry.registeredFor] using h.index.perm cbName

/-! ## Loading -/

theorem registerCallback_inv {live : List (Callback φ)} {reg : Registry φ} {p : Plugin φ}
    (h : IndexInv reg.indexList (live ++ p.callbackList) reg.nextSerial)
    (cbName : Option CbName) (cbFunc : Option φ) (priority : Int) :
    let r := registerCallback cbName cbFunc priority p reg
    IndexInv r.2.2.indexList (live ++ r.2.1.callbackList) r.2.2.nextSerial ∧
      r.2.2.pluginList = reg.pluginList ∧ reg.nextSerial ≤ r.2.2.nextSerial ∧
      r.2.1.serial = p.serial := by
  match cbName, cbFunc with
  | none, _ => exact ⟨h, rfl, Nat.le_refl _, rfl⟩
  | some _, none => exact ⟨h, rfl, Nat.le_refl _, rfl⟩
  | some cbName, some cbFunc =>
      refine ⟨?_, rfl, Nat.le_succ _, rfl⟩
      simpa [registerCallback] using
        IndexInv.indexCallback ⟨reg.nextSerial, cbName, cbFunc, priority⟩ h

/-- The run of an init: whatever it registers is live and in its plugin's list. -/
theorem runCalls_inv (live : List (Callback φ)) (handle : Nat)
    (calls : List (RegisterCall φ)) (p : Plugin φ) (reg : Registry φ)
    (h : IndexInv reg.indexList (live ++ p.callbackList) reg.nextSerial) :
    let r := runCalls handle calls p reg
    IndexInv r.2.indexList (live ++ r.1.callbackList) r.2.nextSerial ∧
      r.2.pluginList = reg.pluginList ∧ reg.nextSerial ≤ r.2.nextSerial ∧
      r.1.serial = p.serial := by
  induction calls generalizing p reg with
  | nil => exact ⟨h, rfl, Nat.le_refl _, rfl⟩
  | cons c calls ih =>
      obtain ⟨hinv, hlist, hnext, hserial⟩ :=
        registerCallback_inv h (c.cbName.map fun s => ⟨handle, s⟩) c.cbFunc c.priority
      obtain ⟨hinv', hlist', hnext', hserial'⟩ := ih _ _ hinv
      exact ⟨hinv', hlist'.trans hlist, Nat.le_trans hnext hnext', hserial'.trans hserial⟩

/-- All that one call of an init can do: be refused, or append a callback to
the plugin's list and put it into the index. -/
theorem registerCallback_cases (handle : Nat) (c : RegisterCall φ) (p : Plugin φ)
    (reg : Registry φ) :
    ((c.cbName = none ∨ c.cbFunc = none) ∧
      registerCallback (c.cbName.map fun s => ⟨handle, s⟩) c.cbFunc c.priority p reg =
        (-1, p, reg)) ∨
    ∃ name func cb, c.cbName = some name ∧ c.cbFunc = some func ∧
      cb = ⟨reg.nextSerial, ⟨handle, name⟩, func, c.priority⟩ ∧
      registerCallback (c.cbName.map fun s => ⟨handle, s⟩) c.cbFunc c.priority p reg =
        (1, { p with callbackList := p.callbackList ++ [cb] },
          { reg with
            indexList := indexCallback cb reg.indexList
            nextSerial := reg.nextSerial + 1 }) := by
  cases hname : c.cbName with
  | none => exact Or.inl ⟨Or.inl rfl, rfl⟩
  | some name =>
      cases hfunc : c.cbFunc with
      | none => exact Or.inl ⟨Or.inr rfl, rfl⟩
      | some func => exact Or.inr ⟨name, func, _, rfl, rfl, rfl, rfl⟩

/-- An init whose calls are all refused. -/
theorem runCalls_of_none {handle : Nat} {calls : List (RegisterCall φ)}
    (h : ∀ c ∈ calls, c.cbName = none ∨ c.cbFunc = none) (p : Plugin φ) (reg : Registry φ) :
    runCalls handle calls p reg = (p, reg) := by
  induction calls with
  | nil => rfl
  | cons c calls ih =>
      obtain ⟨hc, hcalls⟩ := List.forall_mem_cons.mp h
      rw [runCalls]
      rcases registerCallback_cases handle c p reg with
        ⟨-, hcall⟩ | ⟨name, func, cb, hname, hfunc, -⟩
      · rw [hcall]
        exact ih hcalls
      · rcases hc with hc | hc
        · exact absurd (hname.symm.trans hc) (Option.some_ne_none _)
        · exact absurd (hfunc.symm.trans hc) (Option.some_ne_none _)

theorem runCalls_plugin (handle : Nat) (calls : List (RegisterCall φ)) (p : Plugin φ)
    (reg : Registry φ) :
    (runCalls handle calls p reg).1.path = p.path ∧
      (runCalls handle calls p reg).1.handle = p.handle ∧
      (runCalls handle calls p reg).1.serial = p.serial ∧
      (runCalls handle calls p reg).2.pluginList = reg.pluginList := by
  induction calls generalizing p reg with
  | nil => exact ⟨rfl, rfl, rfl, rfl⟩
  | cons c calls ih =>
      rw [runCalls]
      rcases registerCallback_cases handle c p reg with
        ⟨-, hcall⟩ | ⟨name, func, cb, -, -, -, hcall⟩
      · rw [hcall]
        exact ih p reg
      · rw [hcall]
        exact ih _ _

/-- The image and the init that `load_plugin` comes to call. -/
def calledInit : Option (SharedObject φ) → Option (Nat × PluginInit φ)
  | some ⟨handle, some _, some _, some _, some init⟩ => some (handle, init)
  | _ => none

/-- All that `load_plugin` can do: give up before the init, run an init that
fails, or run one that succeeds and append the plugin. -/
theorem loadPlugin_cases (path : Str) (so : Option (SharedObject φ)) (reg : Registry φ) :
    (calledInit so = none ∧ ∃ code, code ≠ 1 ∧
      loadPlugin path so reg = (code, { reg with nextSerial := reg.nextSerial + 1 })) ∨
    ∃ handle init author name version, calledInit so = some (handle, init) ∧
      ∃ r, r = runCalls handle init.calls
          ⟨reg.nextSerial, handle, name, version, author, path, .running, []⟩
          { reg with nextSerial := reg.nextSerial + 1 } ∧
        (init.result ≠ bcircPluginOk ∧ loadPlugin path so reg = (-4, r.2) ∨
          init.result = bcircPluginOk ∧
            loadPlugin path so reg = (1, { r.2 with pluginList := r.2.pluginList ++ [r.1] })) := by
  match so with
  | none => exact Or.inl ⟨rfl, -1, by decide, rfl⟩
  | some ⟨handle, some author, some name, some version, some init⟩ =>
      refine Or.inr ⟨handle, init, author, name, version, rfl, _, rfl, ?_⟩
      by_cases hresult : init.result = bcircPluginOk
      · refine Or.inr ⟨hresult, ?_⟩
        simp only [loadPlugin, hresult, ne_eq, not_true_eq_false, if_false]
      · refine Or.inl ⟨hresult, ?_⟩
        simp only [loadPlugin, if_pos hresult]
  | some ⟨_, some _, some _, some _, none⟩ => exact Or.inl ⟨rfl, -3, by decide, rfl⟩
  | some ⟨_, none, _, _, _⟩ => exact Or.inl ⟨rfl, -2, by decide, rfl⟩
  | some ⟨_, some _, none, _, _⟩ => exact Or.inl ⟨rfl, -2, by decide, rfl⟩
  | some ⟨_, some _, some _, none, _⟩ => exact Or.inl ⟨rfl, -2, by decide, rfl⟩

/-- Both ways `load_plugin` can go on after the init. -/
theorem Registry.Inv.afterInit {reg : Registry φ} {orphans : List (Callback φ)}
    (h : reg.Inv orphans) {r : Plugin φ × Registry φ}
    (hinv : IndexInv r.2.indexList (reg.loaded ++ orphans ++ r.1.callbackList) r.2.nextSerial)
    (hlist : r.2.pluginList = reg.pluginList) (hnext : reg.nextSerial + 1 ≤ r.2.nextSerial)
    (hserial : r.1.serial = reg.nextSerial) :
    r.2.Inv (orphans ++ r.1.callbackList) ∧
      ({ r.2 with pluginList := r.2.pluginList ++ [r.1] } : Registry φ).Inv orphans := by
  have hfresh : ∀ p ∈ r.2.pluginList, p.serial < reg.nextSerial := by
    rw [hlist]
    exact h.fresh
  refine ⟨⟨?_, by rw [hlist]; exact h.nodup, fun p hp => ?_⟩, ⟨?_, ?_, fun p hp => ?_⟩⟩
  · rw [← List.append_assoc]
    simpa only [Registry.loaded, hlist] using hinv
  · have hlt := hfresh p hp
    omega
  · refine hinv.of_perm ?_
    simp only [Registry.loaded, hlist, List.flatMap_append, List.flatMap_cons,
      List.flatMap_nil, List.append_nil, List.append_assoc]
    exact List.perm_append_comm.append_left _
  · rw [List.map_append, List.nodup_append]
    refine ⟨by rw [hlist]; exact h.nodup, by simp, fun s hs t ht => ?_⟩
    obtain ⟨p, hp, rfl⟩ := List.mem_map.mp hs
    have hlt := hfresh p hp
    simp only [List.map_cons, List.map_nil, List.mem_singleton, hserial] at ht
    omega
  · rcases List.mem_append.mp hp with hp | hp
    · have hlt := hfresh p hp
      simp only
      omega
    · rw [List.mem_singleton.mp hp, hserial]
      exact hnext

/-- Loading keeps the invariant; only a failed init adds orphans. -/
theorem loadPlugin_inv {reg : Registry φ} {orphans : List (Callback φ)}
    (h : reg.Inv orphans) (path : Str) (so : Option (SharedObject φ)) :
    ∃ orphans', (loadPlugin path so reg).2.Inv orphans' ∧
      ((loadPlugin path so reg).1 = 1 → orphans' = orphans) := by
  -- the paths that return before init only consume an allocation
  have hearly : ({ reg with nextSerial := reg.nextSerial + 1 } : Registry φ).Inv orphans :=
    ⟨h.index.mono (Nat.le_succ _), h.nodup, fun p hp => Nat.lt_succ_of_lt (h.fresh p hp)⟩
  unfold loadPlugin
  cases so with
  | none => exact ⟨orphans, hearly, fun _ => rfl⟩
  | some so =>
      simp only
      split
      · rename_i author name version _ _ _
        split
        · exact ⟨orphans, hearly, fun _ => rfl⟩
        · rename_i init _
          obtain ⟨hinv, hlist, hnext, hserial⟩ :=
            runCalls_inv (reg.loaded ++ orphans) so.handle init.calls
              ⟨reg.nextSerial, so.handle, name, version, author, path, .running, []⟩
              { reg with nextSerial := reg.nextSerial + 1 }
              (by rw [List.append_nil]; exact hearly.index)
          obtain ⟨hfailed, hloaded⟩ := h.afterInit hinv hlist hnext hserial
          split
          · exact ⟨_, hfailed, fun h1 => by simp at h1⟩
          · exact ⟨orphans, hloaded, fun _ => rfl⟩
      · exact ⟨orphans, hearly, fun _ => rfl⟩

/-! ## Pausing and removing -/

/-- `pause_plugin` writes the status: what does not depend on it stays. -/
theorem map_pausePlugin {β : Type} (ptr : Nat) (reg : Registry φ) {g : Plugin φ → β}
    (hg : ∀ p status, g { p with status := status } = g p) :
    (pausePlugin ptr reg).pluginList.map g = reg.pluginList.map g := by
  simp only [pausePlugin, List.map_map]
  refine List.map_congr_left fun p _ => ?_
  simp only [Function.comp_apply]
  split
  · exact hg p .paused
  · rfl

theorem pausePlugin_loaded (ptr : Nat) (reg : Registry φ) :
    (pausePlugin ptr reg).loaded = reg.loaded := by
  rw [Registry.loaded, Registry.loaded, List.flatMap_def, List.flatMap_def,
    map_pausePlugin ptr reg fun _ _ => rfl]

theorem pausePlugin_inv {reg : Registry φ} {orphans : List (Callback φ)}
    (h : reg.Inv orphans) (ptr : Nat) : (pausePlugin ptr reg).Inv orphans := by
  have hserials : (pausePlugin ptr reg).pluginList.map (·.serial) =
      reg.pluginList.map (·.serial) := map_pausePlugin ptr reg fun _ _ => rfl
  refine ⟨by rw [pausePlugin_loaded]; exact h.index, by rw [hserials]; exact h.nodup, ?_⟩
  intro p hp
  have hmem := List.mem_map_of_mem (f := fun q : Plugin φ => q.serial) hp
  rw [hserials] at hmem
  obtain ⟨q, hq, hqs⟩ := List.mem_map.mp hmem
  rw [← hqs]
  exact h.fresh q hq

/-- The plugin with a given serial is alone in its list. -/
theorem Registry.Inv.filter_serial {reg : Registry φ} {orphans : List (Callback φ)}
    (h : reg.Inv orphans) {p : Plugin φ} (hp : p ∈ reg.pluginList) :
    reg.pluginList.filter (fun q => q.serial == p.serial) = [p] := by
  refine List.perm_singleton.mp ?_
  refine (List.perm_ext_iff_of_nodup ((h.nodup.of_map _).filter _)
    (List.nodup_singleton p)).mpr fun q => ?_
  rw [List.mem_filter, List.mem_singleton, beq_iff_eq]
  constructor
  · rintro ⟨hq, hs⟩
    exact h.eq_of_serial hq hp hs
  · rintro rfl
    exact ⟨hp, rfl⟩

theorem removePlugin_indexList {reg : Registry φ} {orphans : List (Callback φ)}
    (h : reg.Inv orphans) {p : Plugin φ} (hp : p ∈ reg.pluginList) :
    (removePlugin p.serial reg).indexList = p.callbackList.foldl removeIndex reg.indexList := by
  simp only [removePlugin, h.filter_serial hp, List.foldl_cons, List.foldl_nil]

theorem removePlugin_of_unknown {reg : Registry φ} {ptr : Nat}
    (h : ∀ p ∈ reg.pluginList, p.serial ≠ ptr) : removePlugin ptr reg = reg := by
  have hnone : reg.pluginList.filter (fun p => p.serial == ptr) = [] :=
    List.filter_eq_nil_iff.mpr fun p hp => by simpa using h p hp
  have hall : reg.pluginList.filter (fun p => p.serial != ptr) = reg.pluginList :=
    List.filter_eq_self.mpr fun p hp => by simpa using h p hp
  simp [removePlugin, hnone, hall]

theorem removePlugin_inv {reg : Registry φ} {orphans : List (Callback φ)}
    (h : reg.Inv orphans) (ptr : Nat) : (removePlugin ptr reg).Inv orphans := by
  by_cases hex : ∃ p ∈ reg.pluginList, p.serial = ptr
  · obtain ⟨p, hp, rfl⟩ := hex
    have hsplit : reg.pluginList.Perm
        (p :: reg.pluginList.filter (fun q => q.serial != p.serial)) := by
      have hpart := List.filter_append_perm (fun q => q.serial == p.serial) reg.pluginList
      rw [h.filter_serial hp] at hpart
      exact hpart.symm
    refine ⟨?_, h.nodup.sublist (List.filter_sublist.map _),
      fun q hq => h.fresh q (List.mem_filter.mp hq).1⟩
    rw [removePlugin_indexList h hp]
    refine IndexInv.removeIndex (h.index.of_perm ?_)
    rw [← List.append_assoc]
    refine List.Perm.append_right _ ?_
    exact hsplit.flatMap_right _
  · have hne : ∀ p ∈ reg.pluginList, p.serial ≠ ptr := fun p hp hs => hex ⟨p, hp, hs⟩
    rwa [removePlugin_of_unknown hne]

/-! ## The names of the index -/

/-- The names that `get_cb_index` compares. -/
def indexNames (indexList : List (CallbackIndex φ)) : List CbName := indexList.map (·.cbName)

def Registry.names (reg : Registry φ) : List CbName := indexNames reg.indexList

theorem getCbIndex_eq_none_iff {indexList : List (CallbackIndex φ)} {cbName : Str} :
    getCbIndex indexList cbName = none ↔ ∀ name ∈ indexNames indexList, name.str ≠ cbName := by
  simp [getCbIndex, indexNames]

theorem indexNames_indexCallback (cb : Callback φ) (indexList : List (CallbackIndex φ)) :
    indexNames (indexCallback cb indexList) = indexNames indexList ++
      if getCbIndex indexList cb.cbName.str = none then [cb.cbName] else [] := by
  induction indexList with
  | nil => rfl
  | cons entry rest ih =>
      rw [indexCallback_cons, getCbIndex_cons]
      split
      · simp [indexNames]
      · simpa [indexNames] using ih

theorem indexNames_removeIndex (cb : Callback φ) (indexList : List (CallbackIndex φ)) :
    indexNames (removeIndex indexList cb) = indexNames indexList := by
  simp [indexNames, removeIndex]

theorem indexNames_foldl_removeIndex (cbs : List (Callback φ))
    (indexList : List (CallbackIndex φ)) :
    indexNames (cbs.foldl removeIndex indexList) = indexNames indexList := by
  induction cbs generalizing indexList with
  | nil => rfl
  | cons cb cbs ih => rw [List.foldl_cons, ih, indexNames_removeIndex]

theorem names_removePlugin (ptr : Nat) (reg : Registry φ) :
    (removePlugin ptr reg).names = reg.names := by
  show indexNames (((reg.pluginList.filter fun p => p.serial == ptr).foldl
    (fun indexList p => p.callbackList.foldl removeIndex indexList) reg.indexList)) = _
  generalize reg.pluginList.filter (fun p => p.serial == ptr) = removed
  rw [Registry.names]
  generalize reg.indexList = indexList
  induction removed generalizing indexList with
  | nil => rfl
  | cons p removed ih => rw [List.foldl_cons, ih, indexNames_foldl_removeIndex]

/-! ## Histories -/

/-- The registry after some successful loads and removals, from `init_index` on. -/
inductive Managed : Registry φ → Prop where
  | init : Managed initIndex
  | load {reg : Registry φ} (path : Str) (so : Option (SharedObject φ)) :
      Managed reg → (loadPlugin path so reg).1 = 1 → Managed (loadPlugin path so reg).2
  | remove {reg : Registry φ} (ptr : Nat) : Managed reg → Managed (removePlugin ptr reg)

/-- The registries that any calls can lead to from `reg₀`, failed loads
included. -/
inductive Later (reg₀ : Registry φ) : Registry φ → Prop where
  | now : Later reg₀ reg₀
  | load {reg : Registry φ} (path : Str) (so : Option (SharedObject φ)) :
      Later reg₀ reg → Later reg₀ (loadPlugin path so reg).2
  | pause {reg : Registry φ} (ptr : Nat) : Later reg₀ reg → Later reg₀ (pausePlugin ptr reg)
  | remove {reg : Registry φ} (ptr : Nat) :
      Later reg₀ reg → Later reg₀ (removePlugin ptr reg)

def Reachable (reg : Registry φ) : Prop := Later initIndex reg

theorem Later.trans {reg₀ reg₁ reg₂ : Registry φ} (h₁ : Later reg₀ reg₁)
    (h₂ : Later reg₁ reg₂) : Later reg₀ reg₂ := by
  induction h₂ with
  | now => exact h₁
  | load path so _ ih => exact ih.load path so
  | pause ptr _ ih => exact ih.pause ptr
  | remove ptr _ ih => exact ih.remove ptr

theorem Managed.reachable {reg : Registry φ} (h : Managed reg) : Reachable reg := by
  induction h with
  | init => exact .now
  | load path so _ _ ih => exact Later.load path so ih
  | remove ptr _ ih => exact Later.remove ptr ih

theorem initIndex_inv : (initIndex : Registry φ).Inv [] :=
  ⟨indexInv_initIndex, List.nodup_nil, fun _ hp => nomatch hp⟩

theorem Managed.inv {reg : Registry φ} (h : Managed reg) : reg.Inv [] := by
  induction h with
  | init => exact initIndex_inv
  | load path so _ hok ih =>
      obtain ⟨orphans, hinv, heq⟩ := loadPlugin_inv ih path so
      rwa [heq hok] at hinv
  | remove ptr _ ih => exact removePlugin_inv ih ptr

theorem Reachable.inv {reg : Registry φ} (h : Reachable reg) :
    ∃ orphans, reg.Inv orphans := by
  induction h with
  | now => exact ⟨[], initIndex_inv⟩
  | load path so _ ih =>
      obtain ⟨orphans, hinv⟩ := ih
      obtain ⟨orphans', hinv', -⟩ := loadPlugin_inv hinv path so
      exact ⟨orphans', hinv'⟩
  | pause ptr _ ih =>
      obtain ⟨orphans, hinv⟩ := ih
      exact ⟨orphans, pausePlugin_inv hinv ptr⟩
  | remove ptr _ ih =>
      obtain ⟨orphans, hinv⟩ := ih
      exact ⟨orphans, removePlugin_inv hinv ptr⟩

/-! ## Buckets grow -/

theorem length_bucket_indexCallback (cb : Callback φ) (indexList : List (CallbackIndex φ))
    (cbName : Str) :
    (bucket (indexCallback cb indexList) cbName).length =
      (bucket indexList cbName).length + if cb.cbName.str = cbName then 1 else 0 := by
  rw [bucket_indexCallback]
  split <;> simp

/-- `register_callback` accepts the call, and it is for `cbName`. -/
def RegisterCall.registers (c : RegisterCall φ) (cbName : Str) : Bool :=
  c.cbName == some cbName && c.cbFunc.isSome

theorem length_bucket_runCalls (handle : Nat) (calls : List (RegisterCall φ)) (p : Plugin φ)
    (reg : Registry φ) (cbName : Str) :
    (bucket (runCalls handle calls p reg).2.indexList cbName).length =
      (bucket reg.indexList cbName).length + calls.countP (·.registers cbName) := by
  induction calls generalizing p reg with
  | nil => rfl
  | cons c calls ih =>
      rw [runCalls, ih, List.countP_cons]
      rcases registerCallback_cases handle c p reg with
        ⟨hrefused, hcall⟩ | ⟨name, func, cb, hname, hfunc, hcb, hcall⟩
      · have hc : c.registers cbName = false := by
          rcases hrefused with hrefused | hrefused
          · simp [RegisterCall.registers, hrefused]
          · simp [RegisterCall.registers, hrefused]
        simp [hcall, hc]
      · rw [hcall]
        simp only [length_bucket_indexCallback, RegisterCall.registers, hname, hfunc, hcb,
          Option.isSome_some, Bool.and_true, beq_iff_eq, Option.some.injEq]
        omega

/-- A plugin whose init registers `calls` and returns `result`; the code
behind a callback is a number. -/
def sampleObject (handle : Nat) (calls : List (RegisterCall Nat)) (result : Int) :
    SharedObject Nat where
  handle := handle
  pluginAuthor := some (ascii "author")
  pluginName := some (ascii "name")
  pluginVersion := some (ascii "0.1")
  pluginInit := some { calls, result }

end Bcirc
