import Bcirc.RegistryInv
import Bcirc.Transition

/-!
# Who owns the names of the event index

`index_callback` stores the name pointer of the first callback of an
event, a string in the image of the plugin that registered it, and
`remove_index` leaves the bucket and its name where they are. A name can
outlive its image; `namesOwned_iff` says exactly when a history avoids it.
-/

namespace Bcirc

open CProg CStr Transition

variable {φ : Type}

/-- The images of the listed plugins. `dlclose` unmaps an image when the
last plugin that was loaded from it goes. -/
def Registry.images (reg : Registry φ) : List Nat := reg.pluginList.map (·.handle)

/-- Every name that a lookup compares is a string of a listed plugin. -/
def NamesOwned (reg : Registry φ) : Prop := ∀ name ∈ reg.names, name.image ∈ reg.images

/-! ## The names an init adds -/

/-- The call is refused, or the index has a bucket for its event. -/
def RegisterCall.Indexed (reg : Registry φ) (c : RegisterCall φ) : Prop :=
  ∀ name, c.cbName = some name → c.cbFunc ≠ none → ∃ n ∈ reg.names, n.str = name

theorem RegisterCall.indexed_of_refused {c : RegisterCall φ} (reg : Registry φ)
    (h : c.cbName = none ∨ c.cbFunc = none) : c.Indexed reg := by
  intro name hname hfunc
  rcases h with hnone | hnone
  · exact absurd (hname.symm.trans hnone) (Option.some_ne_none _)
  · exact absurd hnone hfunc

theorem RegisterCall.indexed_iff {c : RegisterCall φ} {reg : Registry φ} {name : Str}
    (hname : c.cbName = some name) (hfunc : c.cbFunc ≠ none) :
    c.Indexed reg ↔ getCbIndex reg.indexList name ≠ none := by
  rw [ne_eq, getCbIndex_eq_none_iff]
  constructor
  · intro h hnone
    obtain ⟨n, hn, hstr⟩ := h name hname hfunc
    exact hnone n hn hstr
  · intro h name' hname' _
    obtain rfl := Option.some.inj (hname.symm.trans hname')
    by_contra hnone
    exact h fun n hn hstr => hnone ⟨n, hn, hstr⟩

theorem RegisterCall.Indexed.congr {c : RegisterCall φ} {reg reg' : Registry φ}
    (h : reg'.names = reg.names) : c.Indexed reg' ↔ c.Indexed reg := by
  unfold RegisterCall.Indexed
  rw [h]

/-- One call adds the name of its event, or nothing. -/
theorem names_registerCallback (handle : Nat) (c : RegisterCall φ) (p : Plugin φ)
    (reg : Registry φ) :
    ∃ new, Registry.names
        (registerCallback (c.cbName.map fun s => ⟨handle, s⟩) c.cbFunc c.priority p reg).2.2 =
          reg.names ++ new ∧
      (∀ name ∈ new, name.image = handle) ∧ (new = [] ↔ c.Indexed reg) := by
  rcases registerCallback_cases handle c p reg with
    ⟨hrefused, hcall⟩ | ⟨name, func, cb, hname, hfunc, hcb, hcall⟩
  · rw [hcall]
    exact ⟨[], (List.append_nil _).symm, List.forall_mem_nil _,
      iff_of_true rfl (RegisterCall.indexed_of_refused reg hrefused)⟩
  · rw [hcall, RegisterCall.indexed_iff hname (by rw [hfunc]; exact Option.some_ne_none func)]
    have hcbName : cb.cbName = ⟨handle, name⟩ := by rw [hcb]
    refine ⟨_, indexNames_indexCallback cb reg.indexList, ?_, ?_⟩
    · intro n hn
      split at hn
      · rw [List.mem_singleton.mp hn, hcbName]
      · cases hn
    · rw [hcbName]
      by_cases hknown : getCbIndex reg.indexList name = none
      · rw [if_pos hknown]
        exact iff_of_false (List.cons_ne_nil _ _) fun h => h hknown
      · rw [if_neg hknown]
        exact iff_of_true rfl hknown

/-- An init adds names of its own image; it adds none if and only if every
event it registers for has a bucket already. -/
theorem names_runCalls (handle : Nat) (calls : List (RegisterCall φ)) (p : Plugin φ)
    (reg : Registry φ) :
    ∃ new, (runCalls handle calls p reg).2.names = reg.names ++ new ∧
      (∀ name ∈ new, name.image = handle) ∧ (new = [] ↔ ∀ c ∈ calls, c.Indexed reg) := by
  induction calls generalizing p reg with
  | nil => exact ⟨[], (List.append_nil _).symm, List.forall_mem_nil _, by simp⟩
  | cons c calls ih =>
      obtain ⟨first, hcall, hfirst, hnone⟩ := names_registerCallback handle c p reg
      obtain ⟨rest, hcalls, hrest, hnil⟩ := ih
        (registerCallback (c.cbName.map fun s => ⟨handle, s⟩) c.cbFunc c.priority p reg).2.1
        (registerCallback (c.cbName.map fun s => ⟨handle, s⟩) c.cbFunc c.priority p reg).2.2
      rw [runCalls]
      refine ⟨first ++ rest, ?_, ?_, ?_⟩
      · rw [hcalls, hcall, List.append_assoc]
      · intro name hname
        rcases List.mem_append.mp hname with hmem | hmem
        · exact hfirst name hmem
        · exact hrest name hmem
      · rw [List.append_eq_nil_iff, List.forall_mem_cons, hnone, hnil]
        -- as long as no name was added, the later calls find the same ones
        refine and_congr_right fun hindexed => ?_
        rw [hnone.mpr hindexed, List.append_nil] at hcall
        exact forall₂_congr fun c' _ => RegisterCall.Indexed.congr hcall

/-! ## Histories -/

inductive PluginOp (φ : Type) where
  | load (path : Str) (so : Option (SharedObject φ))
  | remove (ptr : Nat)

def PluginOp.run : PluginOp φ → Registry φ → Registry φ
  | .load path so, reg => (loadPlugin path so reg).2
  | .remove ptr, reg => removePlugin ptr reg

/-- An init that fails has registered for no new event, unless its image is
that of a listed plugin; a plugin that is removed owns no name of the
index, unless another one shares its image. -/
def PluginOp.LeavesOwners : PluginOp φ → Registry φ → Prop
  | .load _ so, reg =>
      ∀ handle init, calledInit so = some (handle, init) → init.result ≠ bcircPluginOk →
        handle ∈ reg.images ∨ ∀ c ∈ init.calls, c.Indexed reg
  | .remove ptr, reg =>
      ∀ p ∈ reg.pluginList, p.serial = ptr → ∀ name ∈ reg.names, name.image = p.handle →
        ∃ q ∈ reg.pluginList, q.serial ≠ ptr ∧ q.handle = p.handle

/-- Names of one image are added, and no plugin is. -/
theorem NamesOwned.grown_iff {reg reg' : Registry φ} {handle : Nat} {new : List CbName}
    (h : NamesOwned reg) (hnames : reg'.names = reg.names ++ new)
    (himage : ∀ name ∈ new, name.image = handle) (himages : reg'.images = reg.images) :
    NamesOwned reg' ↔ handle ∈ reg.images ∨ new = [] := by
  rw [NamesOwned, hnames, himages]
  constructor
  · intro howned
    cases new with
    | nil => exact Or.inr rfl
    | cons n new =>
        rw [← himage n List.mem_cons_self]
        exact Or.inl (howned n (List.mem_append_right _ List.mem_cons_self))
  · intro hok n hn
    rcases List.mem_append.mp hn with hn | hn
    · exact h n hn
    · rcases hok with hmem | rfl
      · rw [himage n hn]
        exact hmem
      · cases hn

/-- Names of one image are added, and a plugin loaded from it. -/
theorem NamesOwned.grown {reg reg' : Registry φ} {handle : Nat} {new : List CbName}
    (h : NamesOwned reg) (hnames : reg'.names = reg.names ++ new)
    (himage : ∀ name ∈ new, name.image = handle)
    (himages : reg'.images = reg.images ++ [handle]) : NamesOwned reg' := by
  intro n hn
  rw [hnames] at hn
  rw [himages]
  rcases List.mem_append.mp hn with hn | hn
  · exact List.mem_append_left _ (h n hn)
  · exact List.mem_append_right _ (List.mem_singleton.mpr (himage n hn))

theorem namesOwned_load (path : Str) (so : Option (SharedObject φ)) {reg : Registry φ}
    (h : NamesOwned reg) :
    NamesOwned (loadPlugin path so reg).2 ↔ (PluginOp.load path so).LeavesOwners reg := by
  rcases loadPlugin_cases path so reg with
    ⟨hnone, code, -, hload⟩ | ⟨handle, init, author, name, version, hinit, r, hr, hload⟩
  · rw [hload]
    refine ⟨fun _ handle init hinit => ?_, fun _ => h⟩
    rw [hnone] at hinit
    cases hinit
  · obtain ⟨new, hnames, himage, hnil⟩ := names_runCalls handle init.calls
      ⟨reg.nextSerial, handle, name, version, author, path, .running, []⟩
      { reg with nextSerial := reg.nextSerial + 1 }
    obtain ⟨-, hhandle, -, hlist⟩ := runCalls_plugin handle init.calls
      ⟨reg.nextSerial, handle, name, version, author, path, .running, []⟩
      { reg with nextSerial := reg.nextSerial + 1 }
    rw [← hr] at hnames hhandle hlist
    rcases hload with ⟨hresult, hload⟩ | ⟨hresult, hload⟩
    · have himages : r.2.images = reg.images := congrArg (List.map _) hlist
      rw [hload, h.grown_iff hnames himage himages, hnil]
      constructor
      · intro hok handle' init' hinit' _
        obtain ⟨rfl, rfl⟩ := Prod.mk.inj (Option.some.inj (hinit.symm.trans hinit'))
        exact hok
      · exact fun hok => hok handle init hinit hresult
    · have himages : Registry.images { r.2 with pluginList := r.2.pluginList ++ [r.1] } =
          reg.images ++ [handle] := by
        show (r.2.pluginList ++ [r.1]).map (·.handle) = _
        rw [hlist, List.map_append, List.map_singleton, hhandle]
        rfl
      rw [hload]
      refine iff_of_true (h.grown hnames himage himages) fun handle' init' hinit' hfail => ?_
      obtain ⟨rfl, rfl⟩ := Prod.mk.inj (Option.some.inj (hinit.symm.trans hinit'))
      exact absurd hresult hfail

theorem namesOwned_remove (ptr : Nat) {reg : Registry φ} (h : NamesOwned reg) :
    NamesOwned (removePlugin ptr reg) ↔ (PluginOp.remove ptr).LeavesOwners reg := by
  have himages : ∀ image, image ∈ (removePlugin ptr reg).images ↔
      ∃ q ∈ reg.pluginList, q.serial ≠ ptr ∧ q.handle = image := by
    intro image
    simp [Registry.images, removePlugin, and_assoc]
  constructor
  · intro howned p _ _ name hname himage
    have hmem := howned name (by rwa [names_removePlugin])
    rw [himage] at hmem
    exact (himages p.handle).mp hmem
  · intro hok name hname
    rw [names_removePlugin] at hname
    obtain ⟨p, hp, hhandle⟩ := List.mem_map.mp (h name hname)
    refine (himages name.image).mpr ?_
    by_cases hptr : p.serial = ptr
    · obtain ⟨q, hq, hne, hshare⟩ := hok p hp hptr name hname hhandle.symm
      exact ⟨q, hq, hne, hshare.trans hhandle⟩
    · exact ⟨p, hp, hptr, hhandle⟩

theorem namesOwned_step (op : PluginOp φ) (reg : Registry φ) (h : NamesOwned reg) :
    NamesOwned (op.run reg) ↔ op.LeavesOwners reg := by
  cases op with
  | load path so => exact namesOwned_load path so h
  | remove ptr => exact namesOwned_remove ptr h

/-- In every state of a history the names of the index belong to listed
plugins, if and only if every step leaves the names it finds an owner. -/
theorem namesOwned_iff (ops : List (PluginOp φ)) :
    (∀ pre, pre <+: ops → NamesOwned (runAll PluginOp.run initIndex pre)) ↔
      ∀ pre op, pre ++ [op] <+: ops → op.LeavesOwners (runAll PluginOp.run initIndex pre) :=
  forall_prefix_iff PluginOp.run (fun _ hname => nomatch hname) namesOwned_step ops

/-- Two plugins of one event, the first of them removed: the bucket is still
there, under a name of the image that is gone. -/
theorem namesOwned_removed_first :
    ¬ ∀ (ops pre : List (PluginOp Nat)), pre <+: ops →
      NamesOwned (runAll PluginOp.run initIndex pre) := by
  intro h
  have howned := h
    [.load (ascii "a.so")
        (some (sampleObject 1 [⟨some callbackServerRecv, some 10, 5⟩] bcircPluginOk)),
      .load (ascii "b.so")
        (some (sampleObject 2 [⟨some callbackServerRecv, some 20, 5⟩] bcircPluginOk)),
      .remove 0] _ (List.prefix_refl _)
  revert howned
  unfold NamesOwned
  decide +kernel

end Bcirc
