import Mathlib.Data.List.Flatten
import Bcirc.Autoload
import Bcirc.DispatchActions

/-!
# The files behind the registry

What the plugin handler is for, without addresses, statuses or an index:
`Loaded` is the list of the files that are loaded, and of the events that
were ever registered for. The callbacks of an event are those of the
files, by priority and among equals in the order of the list
(`Loaded.handlers`).

`Registry.Mirrors` connects the registry to it. The event index holds
nothing that the list does not say (`Registry.Mirrors.bucket`): each of
its buckets is the stable sort of what the loaded plugins registered.
Every operation of the handler has its counterpart on the list, one lemma
each; pausing has none.
-/

namespace Bcirc

open CProg CStr

variable {φ : Type}

/-! ## Loaded files -/

/-- A callback without its address. -/
structure CallbackEntry (φ : Type) where
  cbName : Str
  cbFunc : φ
  priority : Int
  deriving DecidableEq, Repr

def Callback.handler (cb : Callback φ) : CallbackEntry φ :=
  ⟨cb.cbName.str, cb.cbFunc, cb.priority⟩

/-- What `register_callback` makes of a call, unless it refuses it. -/
def RegisterCall.handler? (c : RegisterCall φ) : Option (CallbackEntry φ) :=
  match c.cbName, c.cbFunc with
  | some cbName, some cbFunc => some ⟨cbName, cbFunc, c.priority⟩
  | _, _ => none

/-- A file that was loaded from `path`. -/
structure Image (φ : Type) where
  path : Str
  handle : Nat
  pluginName : Str
  pluginVersion : Str
  pluginAuthor : Str
  handlers : List (CallbackEntry φ)
  deriving DecidableEq, Repr

/-- What a load of `so` from `path` adds, if it succeeds. -/
def imageOf (path : Str) : Option (SharedObject φ) → Option (Image φ)
  | some ⟨handle, some pluginAuthor, some pluginName, some pluginVersion, some init⟩ =>
      if init.result = bcircPluginOk then
        some { path, handle, pluginName, pluginVersion, pluginAuthor,
               handlers := init.calls.filterMap RegisterCall.handler? }
      else none
  | _ => none

def Plugin.image (p : Plugin φ) : Image φ :=
  ⟨p.path, p.handle, p.pluginName, p.pluginVersion, p.pluginAuthor,
    p.callbackList.map Callback.handler⟩

structure Loaded (φ : Type) where
  images : List (Image φ)
  known : List Str

def compareHandler (h1 h2 : CallbackEntry φ) : Int :=
  if h1.priority > h2.priority then 1 else 0

/-- The callbacks of an event, in the order in which they are called. -/
def Loaded.handlers (l : Loaded φ) (cbName : Str) : List (CallbackEntry φ) :=
  Msort.msort compareHandler
    ((l.images.flatMap (·.handlers)).filter fun h => h.cbName == cbName)

def Loaded.load (path : Str) (so : Option (SharedObject φ)) (l : Loaded φ) : Loaded φ :=
  match imageOf path so with
  | some image =>
      { images := l.images ++ [image]
        known := l.known ++ image.handlers.map (·.cbName) }
  | none => l

def Loaded.drop (i : Nat) (l : Loaded φ) : Loaded φ := { l with images := l.images.eraseIdx i }

def Loaded.unload (path : Str) (l : Loaded φ) : Loaded φ :=
  { l with images := l.images.filter (·.path ≠ path) }

/-- `load_new_plugin`. -/
def Loaded.reload (path : Str) (so : Option (SharedObject φ)) (l : Loaded φ) : Loaded φ :=
  (l.unload path).load path so

/-! ## The registry mirrors them -/

structure Registry.Mirrors (reg : Registry φ) (l : Loaded φ) : Prop where
  inv : reg.Inv []
  /-- A plugin that comes later in the list has the younger callbacks. -/
  aged : reg.loaded.Pairwise fun a b => a.serial < b.serial
  images : reg.pluginList.map Plugin.image = l.images
  known : ∀ cbName, getCbIndex reg.indexList cbName = none ↔ cbName ∉ l.known

theorem initIndex_mirrors : (initIndex : Registry φ).Mirrors ⟨[], []⟩ :=
  ⟨initIndex_inv, List.Pairwise.nil, rfl, fun _ => iff_of_true rfl List.not_mem_nil⟩

theorem before_antisymm {a b : Callback φ} (hab : Before a b) (hba : Before b a) : a = b := by
  unfold Before at hab hba
  omega

section Mirrors

variable {reg : Registry φ} {l : Loaded φ}

/-- A bucket is the stable sort of what the plugins registered for its event. -/
theorem Registry.Mirrors.bucket_eq (h : reg.Mirrors l) (cbName : Str) :
    bucket reg.indexList cbName = Msort.msort compareIndex (reg.registeredFor cbName) := by
  have hties : (reg.registeredFor cbName).Pairwise
      fun a b => a.priority = b.priority → a.serial < b.serial :=
    (h.aged.filter fun c => c.cbName.str == cbName).imp
      fun {a b} hlt (_ : a.priority = b.priority) => hlt
  have hsorted : (Msort.msort compareIndex (reg.registeredFor cbName)).Pairwise Before := by
    refine (Msort.pairwise_msort (fun a b => ?_) (fun a b c => ?_) hties).imp before_of_stable
    · rw [compareIndex_le_zero, compareIndex_le_zero]
      exact Int.le_total _ _
    · rw [compareIndex_le_zero, compareIndex_le_zero, compareIndex_le_zero]
      exact Int.le_trans
  exact ((h.inv.bucket_perm cbName).trans (Msort.msort_perm _ _).symm).eq_of_pairwise
    (fun _ _ _ _ => before_antisymm) (h.inv.index.sorted cbName) hsorted

/-- The index says what the files say. -/
theorem Registry.Mirrors.bucket (h : reg.Mirrors l) (cbName : Str) :
    (Bcirc.bucket reg.indexList cbName).map Callback.handler = l.handlers cbName := by
  have hcompare : ∀ a b : Callback φ,
      compareHandler a.handler b.handler = compareIndex a b := fun _ _ => rfl
  have hloaded : reg.loaded.map Callback.handler = l.images.flatMap (·.handlers) := by
    rw [← h.images, List.flatMap_map, Registry.loaded, List.map_flatMap]
    rfl
  rw [h.bucket_eq, Msort.map_msort hcompare, Loaded.handlers, ← hloaded, List.filter_map]
  rfl

/-! ## Loading -/

theorem getCbIndex_indexCallback {cb : Callback φ} {indexList : List (CallbackIndex φ)}
    {cbName : Str} : getCbIndex (indexCallback cb indexList) cbName = none ↔
      getCbIndex indexList cbName = none ∧ cb.cbName.str ≠ cbName := by
  rw [getCbIndex_eq_none_iff, indexNames_indexCallback]
  split
  · rename_i hnone
    rw [getCbIndex_eq_none_iff, List.forall_mem_append, List.forall_mem_singleton]
  · rename_i hsome
    rw [List.append_nil, getCbIndex_eq_none_iff]
    refine ⟨fun h => ⟨h, fun heq => hsome ?_⟩, fun h => h.1⟩
    rw [getCbIndex_eq_none_iff, heq]
    exact h

/-- All that the run of an init does: the callbacks it appends are those of
the calls, younger than anything before and in their order. -/
theorem runCalls_appends (handle : Nat) (calls : List (RegisterCall φ)) (p : Plugin φ)
    (reg : Registry φ) :
    ∃ new : List (Callback φ),
      (runCalls handle calls p reg).1 = { p with callbackList := p.callbackList ++ new } ∧
      new.map Callback.handler = calls.filterMap RegisterCall.handler? ∧
      (new.Pairwise fun a b => a.serial < b.serial) ∧
      (∀ c ∈ new, reg.nextSerial ≤ c.serial) ∧
      ∀ cbName, getCbIndex (runCalls handle calls p reg).2.indexList cbName = none ↔
        getCbIndex reg.indexList cbName = none ∧ cbName ∉ new.map fun c => c.cbName.str := by
  induction calls generalizing p reg with
  | nil =>
      refine ⟨[], by simp [runCalls], rfl, List.Pairwise.nil, fun c hc => ?_, by simp [runCalls]⟩
      cases hc
  | cons c calls ih =>
      rw [runCalls]
      rcases registerCallback_cases handle c p reg with
        ⟨hrefused, hcall⟩ | ⟨name, func, cb, hname, hfunc, hcb, hcall⟩
      · have hnone : c.handler? = none := by
          unfold RegisterCall.handler?
          rcases hrefused with hrefused | hrefused
          · rw [hrefused]
          · rw [hrefused]
            cases c.cbName <;> rfl
        rw [hcall, List.filterMap_cons_none hnone]
        exact ih p reg
      · have hsome : c.handler? = some cb.handler := by
          rw [RegisterCall.handler?, hname, hfunc, hcb]
          rfl
        rw [hcall, List.filterMap_cons_some hsome]
        obtain ⟨new, hlist, hmap, hage, hfresh, hknown⟩ :=
          ih { p with callbackList := p.callbackList ++ [cb] }
            { reg with
              indexList := indexCallback cb reg.indexList
              nextSerial := reg.nextSerial + 1 }
        have hserial : cb.serial = reg.nextSerial := by rw [hcb]
        refine ⟨cb :: new, by simpa using hlist, by rw [List.map_cons, hmap],
          List.pairwise_cons.mpr ⟨fun d hd => ?_, hage⟩, fun d hd => ?_, fun cbName => ?_⟩
        · have hle := hfresh d hd
          simp only at hle
          omega
        · rcases List.mem_cons.mp hd with rfl | hd
          · exact Nat.le_of_eq hserial.symm
          · exact Nat.le_of_succ_le (hfresh d hd)
        · rw [hknown, getCbIndex_indexCallback, List.map_cons, List.mem_cons, not_or, and_assoc,
            ne_comm]

/-- The load of a file with an image. -/
theorem loadPlugin_of_image {path : Str} {so : Option (SharedObject φ)} {image : Image φ}
    (h : imageOf path so = some image) (reg : Registry φ) :
    ∃ calls r, image.handlers = calls.filterMap RegisterCall.handler? ∧
      r = runCalls image.handle calls
        ⟨reg.nextSerial, image.handle, image.pluginName, image.pluginVersion,
          image.pluginAuthor, path, .running, []⟩
        { reg with nextSerial := reg.nextSerial + 1 } ∧
      image.path = path ∧
      loadPlugin path so reg = (1, { r.2 with pluginList := r.2.pluginList ++ [r.1] }) := by
  unfold imageOf at h
  split at h
  · rename_i init
    split at h
    · rename_i hresult
      cases h
      refine ⟨init.calls, _, rfl, rfl, rfl, ?_⟩
      simp only [loadPlugin, hresult, ne_eq, not_true_eq_false, if_false]
    · cases h
  · cases h

theorem loadPlugin_of_noImage {path : Str} {so : Option (SharedObject φ)}
    (h : imageOf path so = none) (reg : Registry φ) : (loadPlugin path so reg).1 ≠ 1 := by
  unfold imageOf at h
  split at h
  · rename_i init
    split at h
    · cases h
    · rename_i hresult
      simp [loadPlugin, hresult]
  · rename_i hshape
    intro hload
    rcases loadPlugin_cases path so reg with
      ⟨-, code, hcode, hfail⟩ | ⟨handle, init, author, name, version, hinit, -⟩
    · rw [hfail] at hload
      exact hcode hload
    · -- with a called init the object has all its symbols
      unfold calledInit at hinit
      split at hinit
      · exact hshape _ _ _ _ _ rfl
      · cases hinit

theorem Registry.Mirrors.load (h : reg.Mirrors l) (path : Str) {so : Option (SharedObject φ)}
    (hso : FailsBare so) : (loadPlugin path so reg).2.Mirrors (l.load path so) := by
  have hinv := loadPlugin_inv_bare h.inv path hso
  unfold Loaded.load
  cases himage : imageOf path so with
  | none =>
      rw [loadPlugin_of_failsBare hso path reg (loadPlugin_of_noImage himage reg)] at hinv ⊢
      exact ⟨hinv, h.aged, h.images, h.known⟩
  | some image =>
      obtain ⟨calls, r, hcalls, hr, hpath, hload⟩ := loadPlugin_of_image himage reg
      obtain ⟨new, hnew, hmap, hage, hfresh, hknown⟩ := runCalls_appends image.handle calls
        ⟨reg.nextSerial, image.handle, image.pluginName, image.pluginVersion,
          image.pluginAuthor, path, .running, []⟩
        { reg with nextSerial := reg.nextSerial + 1 }
      obtain ⟨-, -, -, hlist⟩ := runCalls_plugin image.handle calls
        ⟨reg.nextSerial, image.handle, image.pluginName, image.pluginVersion,
          image.pluginAuthor, path, .running, []⟩
        { reg with nextSerial := reg.nextSerial + 1 }
      rw [← hr] at hnew hknown hlist
      rw [List.nil_append] at hnew
      rw [hload] at hinv ⊢
      refine ⟨hinv, ?_, ?_, fun cbName => ?_⟩
      · -- what was loaded before is older than the allocations of this load
        have hloaded : Registry.loaded { r.2 with pluginList := r.2.pluginList ++ [r.1] } =
            reg.loaded ++ new := by
          rw [Registry.loaded, hlist, hnew, List.flatMap_append, List.flatMap_singleton]
          rfl
        rw [hloaded]
        refine List.pairwise_append.mpr ⟨h.aged, hage, fun a ha b hb => ?_⟩
        have hold := h.inv.index.fresh a (List.mem_append_left _ ha)
        have hle := hfresh b hb
        simp only at hle
        omega
      · simp only [List.map_append, hlist, h.images, List.map_singleton, hnew, Plugin.image,
          hmap, ← hcalls, ← hpath]
      · have hnames : (new.map fun c => c.cbName.str) = image.handlers.map (·.cbName) := by
          rw [hcalls, ← hmap, List.map_map]
          rfl
        rw [List.mem_append, not_or, ← h.known cbName, ← hnames]
        exact hknown cbName

/-! ## Pausing and removing -/

/-- The status is no part of what a plugin is to anyone. -/
theorem Registry.Mirrors.pause (h : reg.Mirrors l) (ptr : Nat) :
    (pausePlugin ptr reg).Mirrors l := by
  refine ⟨pausePlugin_inv h.inv ptr, by rw [pausePlugin_loaded]; exact h.aged, ?_, h.known⟩
  rw [← h.images, pausePlugin, List.map_map]
  refine List.map_congr_left fun p _ => ?_
  rw [Function.comp_apply]
  split <;> rfl

theorem filter_key_ne {β κ : Type} [DecidableEq κ] (key : β → κ) {xs : List β}
    (hnodup : (xs.map key).Nodup) {i : Nat} {x : β} (hx : xs[i]? = some x) :
    xs.filter (fun y => key y != key x) = xs.eraseIdx i := by
  induction xs generalizing i with
  | nil => cases hx
  | cons y xs ih =>
      obtain ⟨hy, hxs⟩ := List.nodup_cons.mp hnodup
      cases i with
      | zero =>
          obtain rfl := Option.some.inj hx
          have hne : ∀ z ∈ xs, (key z != key y) = true := fun z hz => by
            have : key z ≠ key y := fun heq => hy (heq ▸ List.mem_map_of_mem hz)
            simpa using this
          simp [List.filter_eq_self.mpr hne]
      | succ i =>
          have hx' : xs[i]? = some x := hx
          have hne : key y ≠ key x := fun heq =>
            hy (heq ▸ List.mem_map_of_mem (List.mem_of_getElem? hx'))
          simp [hne, ih hxs hx']

theorem removePlugin_loaded (ptr : Nat) (reg : Registry φ) :
    (removePlugin ptr reg).loaded.Sublist reg.loaded :=
  (pluginList_removePlugin ptr reg).flatMap _

theorem Registry.Mirrors.remove (h : reg.Mirrors l) {i : Nat} {p : Plugin φ}
    (hp : reg.pluginList[i]? = some p) : (removePlugin p.serial reg).Mirrors (l.drop i) := by
  refine ⟨removePlugin_inv h.inv _, h.aged.sublist (removePlugin_loaded _ _), ?_,
    fun cbName => ?_⟩
  · have hlist : (removePlugin p.serial reg).pluginList = reg.pluginList.eraseIdx i :=
      filter_key_ne (fun q : Plugin φ => q.serial) h.inv.nodup hp
    rw [hlist, ← List.eraseIdx_map, h.images]
    rfl
  · rw [getCbIndex_removePlugin]
    exact h.known cbName

theorem Registry.Mirrors.paths (h : reg.Mirrors l) : reg.paths = l.images.map (·.path) := by
  rw [← h.images, List.map_map]
  rfl

/-- No two files have one path, so `load_new_plugin` takes away the file it
replaces and no other. -/
theorem Registry.Mirrors.removeOld (h : reg.Mirrors l) (hpaths : reg.paths.Nodup) (path : Str) :
    (removeOld path reg).Mirrors (l.unload path) := by
  rcases removeOld_eq h.inv hpaths path with ⟨heq, habsent⟩ | ⟨p, hp, hpath, heq⟩
  · have hkeep : l.images.filter (·.path ≠ path) = l.images := by
      refine List.filter_eq_self.mpr fun image himage => ?_
      rw [← h.images] at himage
      obtain ⟨p, hp, rfl⟩ := List.mem_map.mp himage
      exact decide_eq_true (habsent p hp)
    rw [heq, Loaded.unload, hkeep]
    exact h
  · obtain ⟨i, hi⟩ := List.mem_iff_getElem?.mp hp
    have himage : l.images[i]? = some p.image := by rw [← h.images, List.getElem?_map, hi]; rfl
    have herase := filter_key_ne (fun image : Image φ => image.path) (h.paths ▸ hpaths) himage
    have hdrop : l.unload path = l.drop i := by
      rw [Loaded.unload, Loaded.drop, ← herase]
      congr 1
      refine List.filter_congr fun image _ => ?_
      by_cases hne : image.path = path
      · simp [Plugin.image, hpath, hne]
      · simp [Plugin.image, hpath, hne]
    rw [heq, hdrop]
    exact h.remove hi

theorem Registry.Mirrors.reload (h : reg.Mirrors l) (hpaths : reg.paths.Nodup)
    (dirPath name : Str) {so : Option (SharedObject φ)} (hso : FailsBare so) :
    (loadNewPlugin dirPath name so reg).2.Mirrors (l.reload (pluginPath dirPath name) so) :=
  (h.removeOld hpaths _).load _ hso

end Mirrors

end Bcirc
