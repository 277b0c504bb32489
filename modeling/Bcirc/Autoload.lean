import Bcirc.RegistryInv

/-!
# Loading a directory and reloading from it

`get_plugins` loads every shared object of a directory; `load_new_plugin`
(`plugins/src/autoload/autoload.c`) puts a file that has changed in the
place of the plugin that was loaded from it.

The loop that looks for the old plugin removes from the list it walks, so
the entry after a removed one is skipped. No two plugins have the same
path (`Autoloaded.nodup`), so there is nothing to be missed:
`removeOld_eq`.
-/

namespace Bcirc

open CProg CStr

variable {φ : Type}

/-! ## The directory -/

/-- `sprintf("%s/%s")`. -/
def pluginPath (dirPath name : Str) : Str := dirPath ++ 47 :: name

/-- An entry of `readdir`; `regular` is `d_type == DT_REG`. -/
structure DirEntry where
  dName : Str
  regular : Bool
  deriving DecidableEq, Repr

/-- The file name has at least three characters, the last of which are the
only `.so` in it. -/
def DirEntry.accepted (dir : DirEntry) : Bool :=
  dir.regular && 3 ≤ dir.dName.length &&
    strstr dir.dName (ascii ".so") == some (dir.dName.length - 3)

/-- The loop over the entries, each with what `dlopen` finds there. -/
def getPlugins (pluginDir : Str) :
    List (DirEntry × Option (SharedObject φ)) → Registry φ → Registry φ
  | [], reg => reg
  | (dir, so) :: entries, reg =>
      getPlugins pluginDir entries
        (if dir.accepted then (loadPlugin (pluginPath pluginDir dir.dName) so reg).2 else reg)

/-! ## Reloading -/

/-- `for (int i = 0; i < plugin_count; i++)`, with a bound on the rounds. -/
def removeOldLoop (path : Str) : Nat → Nat → Registry φ → Registry φ
  | 0, _, reg => reg
  | n + 1, i, reg =>
      match reg.pluginList[i]? with
      | none => reg
      | some p =>
          removeOldLoop path n (i + 1) (if p.path = path then removePlugin p.serial reg else reg)

/-- The list never grows, so there are at most `plugin_count` rounds. -/
def removeOld (path : Str) (reg : Registry φ) : Registry φ :=
  removeOldLoop path reg.pluginCount 0 reg

/-- `dirPath` is `BCIRC_PLUGINS_BIN`, `so` what `dlopen` finds. -/
def loadNewPlugin (dirPath name : Str) (so : Option (SharedObject φ)) (reg : Registry φ) :
    Int × Registry φ :=
  loadPlugin (pluginPath dirPath name) so (removeOld (pluginPath dirPath name) reg)

def Registry.paths (reg : Registry φ) : List Str := reg.pluginList.map (·.path)

/-! ## One load -/

/-- The load of `so` succeeds, or fails before a callback is registered. -/
def FailsBare (so : Option (SharedObject φ)) : Prop :=
  ∀ handle init, calledInit so = some (handle, init) → init.result ≠ bcircPluginOk →
    ∀ c ∈ init.calls, c.cbName = none ∨ c.cbFunc = none

/-- Only a load that succeeds changes the list of plugins. -/
theorem loadPlugin_pluginList (path : Str) (so : Option (SharedObject φ)) (reg : Registry φ) :
    (loadPlugin path so reg).1 ≠ 1 ∧ (loadPlugin path so reg).2.pluginList = reg.pluginList ∨
    (loadPlugin path so reg).1 = 1 ∧ ∃ new, new.path = path ∧ new.serial = reg.nextSerial ∧
      (loadPlugin path so reg).2.pluginList = reg.pluginList ++ [new] := by
  rcases loadPlugin_cases path so reg with
    ⟨-, code, hcode, hload⟩ | ⟨handle, init, author, name, version, -, r, hr, hload⟩
  · rw [hload]
    exact Or.inl ⟨hcode, rfl⟩
  · obtain ⟨hpath, -, hserial, hlist⟩ := runCalls_plugin handle init.calls
      ⟨reg.nextSerial, handle, name, version, author, path, .running, []⟩
      { reg with nextSerial := reg.nextSerial + 1 }
    rw [← hr] at hpath hserial hlist
    rcases hload with ⟨-, hload⟩ | ⟨-, hload⟩
    · rw [hload]
      exact Or.inl ⟨(by decide : (-4 : Int) ≠ 1), hlist⟩
    · rw [hload]
      exact Or.inr ⟨rfl, r.1, hpath, hserial, congrArg (· ++ [r.1]) hlist⟩

/-- A load that fails bare consumes an allocation and nothing else. -/
theorem loadPlugin_of_failsBare {so : Option (SharedObject φ)} (h : FailsBare so) (path : Str)
    (reg : Registry φ) (hfail : (loadPlugin path so reg).1 ≠ 1) :
    (loadPlugin path so reg).2 = { reg with nextSerial := reg.nextSerial + 1 } := by
  rcases loadPlugin_cases path so reg with
    ⟨-, code, -, hload⟩ | ⟨handle, init, author, name, version, hinit, r, hr, hload⟩
  · rw [hload]
  · rcases hload with ⟨hresult, hload⟩ | ⟨-, hload⟩
    · rw [runCalls_of_none (h handle init hinit hresult)] at hr
      rw [hload, hr]
    · rw [hload] at hfail
      exact absurd rfl hfail

theorem loadPlugin_inv_bare {reg : Registry φ} (h : reg.Inv []) (path : Str)
    {so : Option (SharedObject φ)} (hso : FailsBare so) : (loadPlugin path so reg).2.Inv [] := by
  by_cases hok : (loadPlugin path so reg).1 = 1
  · obtain ⟨orphans, hinv, heq⟩ := loadPlugin_inv h path so
    rwa [heq hok] at hinv
  · rw [loadPlugin_of_failsBare hso path reg hok]
    exact ⟨h.index.mono (Nat.le_succ _), h.nodup, fun p hp => Nat.lt_succ_of_lt (h.fresh p hp)⟩

/-! ## The removal loop -/

theorem removeOldLoop_of_absent {path : Str} {reg : Registry φ}
    (h : ∀ p ∈ reg.pluginList, p.path ≠ path) (n i : Nat) :
    removeOldLoop path n i reg = reg := by
  induction n generalizing i with
  | zero => rfl
  | succ n ih =>
      rw [removeOldLoop]
      cases hp : reg.pluginList[i]? with
      | none => rfl
      | some p =>
          show removeOldLoop path n (i + 1) (if p.path = path then _ else reg) = reg
          rw [if_neg (h p (List.mem_of_getElem? hp))]
          exact ih (i + 1)

theorem pluginList_removePlugin (ptr : Nat) (reg : Registry φ) :
    (removePlugin ptr reg).pluginList.Sublist reg.pluginList := List.filter_sublist

/-- Every state the loop goes through has lost plugins at most. -/
theorem pluginList_removeOldLoop (path : Str) (n i : Nat) (reg : Registry φ) :
    (removeOldLoop path n i reg).pluginList.Sublist reg.pluginList := by
  induction n generalizing i reg with
  | zero => exact List.Sublist.refl _
  | succ n ih =>
      rw [removeOldLoop]
      cases reg.pluginList[i]? with
      | none => exact List.Sublist.refl _
      | some p =>
          refine (ih (i + 1) _).trans ?_
          split
          · exact pluginList_removePlugin p.serial reg
          · exact List.Sublist.refl _

section RemoveOld

variable {reg : Registry φ} {orphans : List (Callback φ)}

theorem eq_of_path (hpaths : reg.paths.Nodup) {p q : Plugin φ} (hp : p ∈ reg.pluginList)
    (hq : q ∈ reg.pluginList) (h : p.path = q.path) : p = q :=
  List.inj_on_of_nodup_map hpaths hp hq h

/-- By serial or by path, it is the same plugin that goes. -/
theorem pluginList_remove_path (hinv : reg.Inv orphans) (hpaths : reg.paths.Nodup)
    {p : Plugin φ} (hp : p ∈ reg.pluginList) :
    (removePlugin p.serial reg).pluginList = reg.pluginList.filter (·.path ≠ p.path) := by
  refine List.filter_congr fun q hq => ?_
  by_cases hserial : q.serial = p.serial
  · obtain rfl := hinv.eq_of_serial hq hp hserial
    simp
  · have hpath : q.path ≠ p.path := fun h => hserial (congrArg _ (eq_of_path hpaths hq hp h))
    simp [hserial, hpath]

/-- The loop from position `i` on, when no plugin before that has the path. -/
theorem removeOldLoop_eq {path : Str} (hinv : reg.Inv orphans) (hpaths : reg.paths.Nodup)
    (n : Nat) {i : Nat} (hbefore : ∀ p ∈ reg.pluginList.take i, p.path ≠ path)
    (hn : reg.pluginCount ≤ n + i) :
    removeOldLoop path n i reg = reg ∧ (∀ p ∈ reg.pluginList, p.path ≠ path) ∨
    ∃ p ∈ reg.pluginList, p.path = path ∧
      removeOldLoop path n i reg = removePlugin p.serial reg := by
  induction n generalizing i with
  | zero =>
      have hall : reg.pluginList.take i = reg.pluginList :=
        List.take_of_length_le (by simpa [Registry.pluginCount] using hn)
      rw [hall] at hbefore
      exact Or.inl ⟨rfl, hbefore⟩
  | succ n ih =>
      rw [removeOldLoop]
      cases hp : reg.pluginList[i]? with
      | none =>
          have hall : reg.pluginList.take i = reg.pluginList :=
            List.take_of_length_le (List.getElem?_eq_none_iff.mp hp)
          rw [hall] at hbefore
          exact Or.inl ⟨rfl, hbefore⟩
      | some p =>
          have hmem := List.mem_of_getElem? hp
          by_cases hpath : p.path = path
          · -- the rest of the list is walked from the next position, in vain
            refine Or.inr ⟨p, hmem, hpath, ?_⟩
            show removeOldLoop path n (i + 1) (if p.path = path then _ else reg) = _
            rw [if_pos hpath]
            refine removeOldLoop_of_absent (fun q hq => ?_) n (i + 1)
            rw [pluginList_remove_path hinv hpaths hmem, hpath] at hq
            simpa using (List.mem_filter.mp hq).2
          · show removeOldLoop path n (i + 1) (if p.path = path then _ else reg) = _ ∧ _ ∨
              ∃ q ∈ reg.pluginList, q.path = path ∧
                removeOldLoop path n (i + 1) (if p.path = path then _ else reg) = _
            rw [if_neg hpath]
            refine ih (fun q hq => ?_) (by omega)
            rw [List.take_add_one, hp] at hq
            rcases List.mem_append.mp hq with hq | hq
            · exact hbefore q hq
            · obtain rfl : q = p := List.mem_singleton.mp hq
              exact hpath

/-- The old plugin of the path, the only one, is removed. -/
theorem removeOld_eq (hinv : reg.Inv orphans) (hpaths : reg.paths.Nodup) (path : Str) :
    removeOld path reg = reg ∧ (∀ p ∈ reg.pluginList, p.path ≠ path) ∨
    ∃ p ∈ reg.pluginList, p.path = path ∧ removeOld path reg = removePlugin p.serial reg :=
  removeOldLoop_eq hinv hpaths _ (fun _ hp => nomatch hp) (Nat.le_refl _)

theorem removeOld_inv (hinv : reg.Inv orphans) (hpaths : reg.paths.Nodup) (path : Str) :
    (removeOld path reg).Inv orphans := by
  rcases removeOld_eq hinv hpaths path with ⟨heq, -⟩ | ⟨p, -, -, heq⟩
  · rwa [heq]
  · rw [heq]
    exact removePlugin_inv hinv p.serial

theorem pluginList_removeOld (hinv : reg.Inv orphans) (hpaths : reg.paths.Nodup)
    (path : Str) : (removeOld path reg).pluginList = reg.pluginList.filter (·.path ≠ path) := by
  rcases removeOld_eq hinv hpaths path with ⟨heq, habsent⟩ | ⟨p, hp, rfl, heq⟩
  · rw [heq]
    exact (List.filter_eq_self.mpr fun p hp => by simpa using habsent p hp).symm
  · rw [heq, pluginList_remove_path hinv hpaths hp]

end RemoveOld

/-! ## Histories -/

/-- The registries that `load_new_plugin` leads to, from the one that
`get_plugins` leaves after a directory was read. -/
inductive Autoloaded (dirPath : Str) : Registry φ → Prop where
  | start (entries : List (DirEntry × Option (SharedObject φ)))
      (hnames : (entries.map (·.1.dName)).Nodup) (hbare : ∀ e ∈ entries, FailsBare e.2) :
      Autoloaded dirPath (getPlugins dirPath entries initIndex)
  | load {reg : Registry φ} (name : Str) (so : Option (SharedObject φ)) (hbare : FailsBare so) :
      Autoloaded dirPath reg → Autoloaded dirPath (loadNewPlugin dirPath name so reg).2

theorem getPlugins_inv {pluginDir : Str} {entries : List (DirEntry × Option (SharedObject φ))}
    (hbare : ∀ e ∈ entries, FailsBare e.2) {reg : Registry φ} (h : reg.Inv []) :
    (getPlugins pluginDir entries reg).Inv [] := by
  induction entries generalizing reg with
  | nil => exact h
  | cons e entries ih =>
      obtain ⟨he, hentries⟩ := List.forall_mem_cons.mp hbare
      rw [getPlugins]
      refine ih hentries ?_
      split
      · exact loadPlugin_inv_bare h _ he
      · exact h

/-- The paths of a directory's plugins are those of some of its entries. -/
theorem paths_getPlugins (pluginDir : Str)
    (entries : List (DirEntry × Option (SharedObject φ))) (reg : Registry φ) :
    ∃ names : List Str, names.Sublist (entries.map (·.1.dName)) ∧
      (getPlugins pluginDir entries reg).paths =
        reg.paths ++ names.map (pluginPath pluginDir) := by
  induction entries generalizing reg with
  | nil => exact ⟨[], List.Sublist.refl _, (List.append_nil _).symm⟩
  | cons e entries ih =>
      obtain ⟨dir, so⟩ := e
      rw [getPlugins]
      split
      · obtain ⟨names, hsub, hpaths⟩ := ih (loadPlugin (pluginPath pluginDir dir.dName) so reg).2
        rw [hpaths]
        rcases loadPlugin_pluginList (pluginPath pluginDir dir.dName) so reg with
          ⟨-, hlist⟩ | ⟨-, new, hnew, -, hlist⟩
        · exact ⟨names, hsub.cons _, by rw [Registry.paths, hlist, Registry.paths]⟩
        · refine ⟨dir.dName :: names, hsub.cons_cons _, ?_⟩
          simp [Registry.paths, hlist, hnew]
      · obtain ⟨names, hsub, hpaths⟩ := ih reg
        exact ⟨names, hsub.cons _, hpaths⟩

theorem pluginPath_injective (dirPath : Str) : Function.Injective (pluginPath dirPath) :=
  fun _ _ h => (List.cons.inj (List.append_cancel_left h)).2

theorem nodup_paths_getPlugins {pluginDir : Str}
    {entries : List (DirEntry × Option (SharedObject φ))}
    (hnames : (entries.map (·.1.dName)).Nodup) :
    (getPlugins pluginDir entries initIndex).paths.Nodup := by
  obtain ⟨names, hsub, hpaths⟩ := paths_getPlugins pluginDir entries initIndex
  rw [hpaths]
  exact (hnames.sublist hsub).map (pluginPath_injective pluginDir)

theorem nodup_paths_loadNewPlugin {reg : Registry φ} {orphans : List (Callback φ)}
    (hinv : reg.Inv orphans) (hpaths : reg.paths.Nodup) (dirPath name : Str)
    (so : Option (SharedObject φ)) : (loadNewPlugin dirPath name so reg).2.paths.Nodup := by
  have hold := pluginList_removeOld hinv hpaths (pluginPath dirPath name)
  have hrest : (removeOld (pluginPath dirPath name) reg).paths.Nodup := by
    rw [Registry.paths, hold]
    exact hpaths.sublist (List.filter_sublist.map _)
  rcases loadPlugin_pluginList (pluginPath dirPath name) so
    (removeOld (pluginPath dirPath name) reg) with ⟨-, hlist⟩ | ⟨-, new, hnew, -, hlist⟩
  · rw [Registry.paths, loadNewPlugin, hlist]
    exact hrest
  · rw [Registry.paths, loadNewPlugin, hlist, List.map_append, List.map_singleton, hnew]
    refine List.nodup_append.mpr ⟨hrest, List.nodup_singleton _, fun a ha b hb => ?_⟩
    obtain ⟨p, hp, rfl⟩ := List.mem_map.mp ha
    rw [hold] at hp
    rw [List.mem_singleton.mp hb]
    simpa using (List.mem_filter.mp hp).2

theorem Autoloaded.inv {dirPath : Str} {reg : Registry φ} (h : Autoloaded dirPath reg) :
    reg.Inv [] ∧ reg.paths.Nodup := by
  induction h with
  | start entries hnames hbare =>
      exact ⟨getPlugins_inv hbare initIndex_inv, nodup_paths_getPlugins hnames⟩
  | load name so hbare _ ih =>
      obtain ⟨hinv, hpaths⟩ := ih
      exact ⟨loadPlugin_inv_bare (removeOld_inv hinv hpaths _) _ hbare,
        nodup_paths_loadNewPlugin hinv hpaths dirPath name so⟩

/-! ## What the index holds -/

/-- Every callback the index holds, under whatever name. -/
def indexed (indexList : List (CallbackIndex φ)) : List (Callback φ) :=
  indexList.flatMap (·.callbacks)

theorem mem_indexed_indexCallback {cb c : Callback φ} {indexList : List (CallbackIndex φ)}
    (h : c ∈ indexed (indexCallback cb indexList)) : c = cb ∨ c ∈ indexed indexList := by
  induction indexList with
  | nil => exact Or.inl (by simpa [indexed, indexCallback, getCbIndex] using h)
  | cons entry rest ih =>
      rw [indexCallback_cons] at h
      split at h
      · rcases List.mem_append.mp h with h | h
        · have hc := (Msort.msort_perm compareIndex (entry.callbacks ++ [cb])).mem_iff.mp h
          rcases List.mem_append.mp hc with hc | hc
          · exact Or.inr (List.mem_append_left _ hc)
          · exact Or.inl (List.mem_singleton.mp hc)
        · exact Or.inr (List.mem_append_right _ h)
      · rcases List.mem_append.mp h with h | h
        · exact Or.inr (List.mem_append_left _ h)
        · rcases ih h with hc | hc
          · exact Or.inl hc
          · exact Or.inr (List.mem_append_right _ hc)

theorem mem_indexed_removeIndex {cb c : Callback φ} {indexList : List (CallbackIndex φ)}
    (h : c ∈ indexed (removeIndex indexList cb)) :
    c ∈ indexed indexList ∧ c.serial ≠ cb.serial := by
  obtain ⟨entry, hentry, hc⟩ := List.mem_flatMap.mp h
  obtain ⟨entry, hmem, rfl⟩ := List.mem_map.mp hentry
  obtain ⟨hc, hserial⟩ := List.mem_filter.mp hc
  exact ⟨List.mem_flatMap.mpr ⟨entry, hmem, hc⟩, by simpa using hserial⟩

theorem mem_indexed_foldl_removeIndex {cbs : List (Callback φ)} {c : Callback φ}
    {indexList : List (CallbackIndex φ)} (h : c ∈ indexed (cbs.foldl removeIndex indexList)) :
    c ∈ indexed indexList ∧ ∀ cb ∈ cbs, c.serial ≠ cb.serial := by
  induction cbs generalizing indexList with
  | nil => exact ⟨h, fun _ hcb => nomatch hcb⟩
  | cons cb cbs ih =>
      obtain ⟨hc, hcbs⟩ := ih h
      obtain ⟨hc, hcb⟩ := mem_indexed_removeIndex hc
      exact ⟨hc, List.forall_mem_cons.mpr ⟨hcb, hcbs⟩⟩

theorem mem_indexed_runCalls {handle : Nat} {calls : List (RegisterCall φ)} {p : Plugin φ}
    {reg : Registry φ} {c : Callback φ}
    (h : c ∈ indexed (runCalls handle calls p reg).2.indexList) :
    c ∈ indexed reg.indexList ∨ reg.nextSerial ≤ c.serial := by
  induction calls generalizing p reg with
  | nil => exact Or.inl h
  | cons call calls ih =>
      rw [runCalls] at h
      have hc := ih h
      rcases registerCallback_cases handle call p reg with
        ⟨-, hcall⟩ | ⟨name, func, cb, -, -, hcb, hcall⟩
      · rwa [hcall] at hc
      · rw [hcall] at hc
        rcases hc with hc | hc
        · rcases mem_indexed_indexCallback hc with rfl | hc
          · exact Or.inr (by rw [hcb])
          · exact Or.inl hc
        · exact Or.inr (Nat.le_of_succ_le hc)

theorem mem_indexed_loadPlugin {path : Str} {so : Option (SharedObject φ)} {reg : Registry φ}
    {c : Callback φ} (h : c ∈ indexed (loadPlugin path so reg).2.indexList) :
    c ∈ indexed reg.indexList ∨ reg.nextSerial ≤ c.serial := by
  rcases loadPlugin_cases path so reg with
    ⟨-, code, -, hload⟩ | ⟨handle, init, author, name, version, -, r, hr, hload⟩
  · rw [hload] at h
    exact Or.inl h
  · have hindex : (loadPlugin path so reg).2.indexList = r.2.indexList := by
      rcases hload with ⟨-, hload⟩ | ⟨-, hload⟩
      · rw [hload]
      · rw [hload]
    rw [hindex, hr] at h
    rcases mem_indexed_runCalls h with hc | hc
    · exact Or.inl hc
    · exact Or.inr (Nat.le_of_succ_le hc)

/-! ## A plugin replaced -/

/-- What a load of `path` that succeeds makes of `reg`. -/
structure Replaces (path : Str) (reg reg' : Registry φ) : Prop where
  /-- The others in their order, then the new plugin, alone with its path. -/
  list : ∃ new, reg'.pluginList = reg.pluginList.filter (·.path ≠ path) ++ [new] ∧
    new.path = path ∧ (∀ p ∈ reg.pluginList, p.serial ≠ new.serial) ∧
    ∀ p ∈ reg'.pluginList, p.path = path → p = new
  /-- No callback of the old plugin is left anywhere in the index. -/
  gone : ∀ old ∈ reg.pluginList, old.path = path → ∀ cb ∈ old.callbackList,
    ∀ c ∈ indexed reg'.indexList, c.serial ≠ cb.serial
  /-- The others are registered as before. -/
  kept : ∀ p ∈ reg.pluginList, p.path ≠ path → ∀ cb ∈ p.callbackList,
    cb ∈ bucket reg'.indexList cb.cbName.str
  /-- A dispatch finds the callbacks of the loaded plugins and no others. -/
  index : ∀ cbName, (bucket reg'.indexList cbName).Perm (reg'.registeredFor cbName)

theorem mem_indexed_removeOld {path : Str} {reg : Registry φ} {orphans : List (Callback φ)}
    (hinv : reg.Inv orphans) (hpaths : reg.paths.Nodup) {old : Plugin φ}
    (hold : old ∈ reg.pluginList) (hpath : old.path = path) {c : Callback φ}
    (hc : c ∈ indexed (removeOld path reg).indexList) :
    ∀ cb ∈ old.callbackList, c.serial ≠ cb.serial := by
  rcases removeOld_eq hinv hpaths path with ⟨-, habsent⟩ | ⟨p, hp, hpath', heq⟩
  · exact absurd hpath (habsent old hold)
  · obtain rfl := eq_of_path hpaths hold hp (hpath.trans hpath'.symm)
    rw [heq, removePlugin_indexList hinv hp] at hc
    exact (mem_indexed_foldl_removeIndex hc).2

theorem nextSerial_removeOld {path : Str} {reg : Registry φ} {orphans : List (Callback φ)}
    (hinv : reg.Inv orphans) (hpaths : reg.paths.Nodup) :
    (removeOld path reg).nextSerial = reg.nextSerial := by
  rcases removeOld_eq hinv hpaths path with ⟨heq, -⟩ | ⟨p, -, -, heq⟩
  · rw [heq]
  · rw [heq]
    rfl

theorem replaces_of_loaded {reg : Registry φ} (hinv : reg.Inv []) (hpaths : reg.paths.Nodup)
    {dirPath name : Str} {so : Option (SharedObject φ)} (hbare : FailsBare so)
    (hok : (loadNewPlugin dirPath name so reg).1 = 1) :
    Replaces (pluginPath dirPath name) reg (loadNewPlugin dirPath name so reg).2 := by
  have hold := pluginList_removeOld hinv hpaths (pluginPath dirPath name)
  have hnext : (removeOld (pluginPath dirPath name) reg).nextSerial = reg.nextSerial :=
    nextSerial_removeOld hinv hpaths
  have hinv' : (loadNewPlugin dirPath name so reg).2.Inv [] :=
    loadPlugin_inv_bare (removeOld_inv hinv hpaths _) _ hbare
  rcases loadPlugin_pluginList (pluginPath dirPath name) so
    (removeOld (pluginPath dirPath name) reg) with ⟨hfail, -⟩ | ⟨-, new, hnew, hserial, hlist⟩
  · exact absurd hok hfail
  rw [hold] at hlist
  rw [hnext] at hserial
  constructor
  case list =>
    refine ⟨new, hlist, hnew, fun p hp => ?_, fun p hp hpath => ?_⟩
    · have hlt := hinv.fresh p hp
      omega
    · rw [loadNewPlugin, hlist] at hp
      rcases List.mem_append.mp hp with hp | hp
      · exact absurd hpath (by simpa using (List.mem_filter.mp hp).2)
      · exact List.mem_singleton.mp hp
  case gone =>
    intro old hmem hpath cb hcb c hc
    rcases mem_indexed_loadPlugin hc with hc | hc
    · exact mem_indexed_removeOld hinv hpaths hmem hpath hc cb hcb
    · have hlive : cb ∈ reg.loaded := List.mem_flatMap.mpr ⟨old, hmem, hcb⟩
      have hlt := hinv.index.fresh cb (List.mem_append_left _ hlive)
      rw [hnext] at hc
      omega
  case kept =>
    intro p hp hpath cb hcb
    have hmem : p ∈ (loadNewPlugin dirPath name so reg).2.pluginList := by
      rw [loadNewPlugin, hlist]
      exact List.mem_append_left _ (List.mem_filter.mpr ⟨hp, by simpa using hpath⟩)
    refine hinv'.index.mem_bucket.mpr ⟨?_, rfl⟩
    exact List.mem_append_left _ (List.mem_flatMap.mpr ⟨p, hmem, hcb⟩)
  case index => exact hinv'.bucket_perm

/-- Whatever is reloaded, no two plugins have the same path, also while the
loop removes them; and a load that succeeds replaces the plugin of its path. -/
theorem autoloaded_unique {dirPath : Str} {reg : Registry φ} (h : Autoloaded dirPath reg) :
    reg.paths.Nodup ∧
      ∀ (name : Str) (so : Option (SharedObject φ)), FailsBare so →
        (∀ n, (removeOldLoop (pluginPath dirPath name) n 0 reg).paths.Nodup) ∧
        ((loadNewPlugin dirPath name so reg).1 = 1 →
          Replaces (pluginPath dirPath name) reg (loadNewPlugin dirPath name so reg).2) := by
  obtain ⟨hinv, hpaths⟩ := h.inv
  refine ⟨hpaths, fun name so hbare => ⟨fun n => ?_, fun hok => ?_⟩⟩
  · exact hpaths.sublist ((pluginList_removeOldLoop _ n 0 reg).map _)
  · exact replaces_of_loaded hinv hpaths hbare hok

def reloadedObject (handle : Nat) : SharedObject Nat :=
  sampleObject handle [⟨some callbackServerRecv, some handle, 5⟩] bcircPluginOk

theorem failsBare_reloadedObject (handle : Nat) : FailsBare (some (reloadedObject handle)) := by
  intro _ init hinit hresult
  cases hinit
  exact absurd rfl hresult

/-- The directory of `a.so` and `b.so`, loaded. -/
def sampleAutoloaded : Registry Nat :=
  getPlugins (ascii "bin")
    [(⟨ascii "a.so", true⟩, some (reloadedObject 1)),
      (⟨ascii "b.so", true⟩, some (reloadedObject 2))] initIndex

/-- `a.so` is written anew. -/
theorem autoloaded_unique_sample :
    sampleAutoloaded.paths.Nodup ∧
      Replaces (pluginPath (ascii "bin") (ascii "a.so")) sampleAutoloaded
        (loadNewPlugin (ascii "bin") (ascii "a.so") (some (reloadedObject 3))
          sampleAutoloaded).2 := by
  have hbare : ∀ e ∈ [(DirEntry.mk (ascii "a.so") true, some (reloadedObject 1)),
      (⟨ascii "b.so", true⟩, some (reloadedObject 2))], FailsBare e.2 :=
    List.forall_mem_cons.mpr ⟨failsBare_reloadedObject 1,
      List.forall_mem_singleton.mpr (failsBare_reloadedObject 2)⟩
  have hload : Autoloaded (ascii "bin") sampleAutoloaded :=
    Autoloaded.start _ (by decide) hbare
  obtain ⟨hnodup, hreload⟩ := autoloaded_unique hload
  exact ⟨hnodup, (hreload (ascii "a.so") (some (reloadedObject 3))
    (failsBare_reloadedObject 3)).2 (by decide +kernel)⟩

end Bcirc
