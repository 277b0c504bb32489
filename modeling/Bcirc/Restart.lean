import Bcirc.ReloadRuns

/-!
# A bot that was kept running, and one that was started anew

`restart` is a start from scratch that loads given files in order. When
they are the files that a running bot has loaded by now, an event is
answered by the same callbacks in the same order (`executeCallbacks_host`
gives both runs one list of files). What the two still differ in is
`Loaded.known`: the index keeps the entry of an event when its last
callback goes, so the running bot still announces, with
`callback_callbacks_executed`, an event that nobody answers any more.
`dispatch_restart_iff` says that nothing else can be told apart, by names
that are values.
-/

namespace Bcirc

open CProg CStr

variable {φ α W : Type}

/-- `init_index`, and the files loaded one after the other. -/
def restart (files : List (Str × Option (SharedObject φ))) : Registry φ :=
  files.foldl (fun reg file => (loadPlugin file.1 file.2 reg).2) initIndex

/-- The events for which the files register something. -/
def Loaded.names (images : List (Image φ)) : List Str :=
  images.flatMap fun image => image.handlers.map (·.cbName)

theorem failsBare_of_image {path : Str} {so : Option (SharedObject φ)} {image : Image φ}
    (h : imageOf path so = some image) : FailsBare so := by
  unfold imageOf at h
  split at h
  · split at h
    · rename_i hresult
      rintro _ _ hinit hfail
      cases hinit
      exact absurd hresult hfail
    · cases h
  · cases h

theorem restart_mirrors {files : List (Str × Option (SharedObject φ))} {images : List (Image φ)}
    (h : files.map (fun file => imageOf file.1 file.2) = images.map some) :
    (restart files).Mirrors ⟨images, Loaded.names images⟩ := by
  have hload : ∀ (reg : Registry φ) (l : Loaded φ), reg.Mirrors l →
      (files.foldl (fun reg file => (loadPlugin file.1 file.2 reg).2) reg).Mirrors
        ⟨l.images ++ images, l.known ++ Loaded.names images⟩ := by
    induction files generalizing images with
    | nil =>
        obtain rfl : images = [] := by simpa using h.symm
        intro reg l hreg
        simpa [Loaded.names] using hreg
    | cons file files ih =>
        cases images with
        | nil => cases h
        | cons image images =>
            have himage : imageOf file.1 file.2 = some image := (List.cons.inj h).1
            have hrest := (List.cons.inj h).2
            intro reg l hreg
            have hbare : FailsBare file.2 := failsBare_of_image himage
            have hone := hreg.load file.1 hbare
            rw [Loaded.load, himage] at hone
            simpa [Loaded.names] using ih hrest _ _ hone
  exact hload initIndex ⟨[], []⟩ initIndex_mirrors

/-! ## The same files -/

/-- Every event that a file has a callback for is known. -/
def Loaded.Covers (l : Loaded φ) : Prop :=
  ∀ image ∈ l.images, ∀ h ∈ image.handlers, h.cbName ∈ l.known

theorem Registry.Mirrors.covers {reg : Registry φ} {l : Loaded φ} (h : reg.Mirrors l) :
    l.Covers := by
  intro image himage handler hhandler
  rw [← h.images] at himage
  obtain ⟨p, hp, rfl⟩ := List.mem_map.mp himage
  obtain ⟨cb, hcb, rfl⟩ := List.mem_map.mp hhandler
  by_contra hnot
  have hnone := bucket_of_getCbIndex_none ((h.known cb.cbName.str).mpr hnot)
  have hmem : cb ∈ Bcirc.bucket reg.indexList cb.cbName.str :=
    h.inv.index.mem_bucket.mpr ⟨List.mem_append_left _ (List.mem_flatMap.mpr ⟨p, hp, hcb⟩), rfl⟩
  rw [hnone] at hmem
  cases hmem

theorem Loaded.mem_handlers {l : Loaded φ} {cbName : Str} {h : CallbackEntry φ} :
    h ∈ l.handlers cbName ↔
      (∃ image ∈ l.images, h ∈ image.handlers) ∧ h.cbName = cbName := by
  rw [Loaded.handlers, Msort.mem_msort, List.mem_filter, List.mem_flatMap, beq_iff_eq]

theorem Loaded.Covers.known {l : Loaded φ} (hl : l.Covers) {cbName : Str}
    (h : l.handlers cbName ≠ []) : cbName ∈ l.known := by
  obtain ⟨handler, hmem⟩ := List.exists_mem_of_ne_nil _ h
  obtain ⟨⟨image, himage, hhandler⟩, rfl⟩ := Loaded.mem_handlers.mp hmem
  exact hl image himage handler hhandler

/-- Two hosts that have loaded the same files and seen the same. -/
structure SameFiles (s t : Host φ α W) : Prop where
  images : s.loaded.images = t.loaded.images
  world : s.world = t.world
  log : s.log = t.log
  covers : s.loaded.Covers
  covers' : t.loaded.Covers

section SameFiles

variable {s t : Host φ α W}

theorem SameFiles.handlers (h : SameFiles s t) (cbName : Str) :
    s.loaded.handlers cbName = t.loaded.handlers cbName := by
  rw [Loaded.handlers, Loaded.handlers, h.images]

theorem Loaded.Covers.drop {l : Loaded φ} (h : l.Covers) (i : Nat) : (l.drop i).Covers :=
  fun image himage => h image ((List.eraseIdx_sublist _ _).subset himage)

theorem SameFiles.drop (h : SameFiles s t) (i : Nat) :
    SameFiles { s with loaded := s.loaded.drop i } { t with loaded := t.loaded.drop i } :=
  ⟨by simp only [Loaded.drop, h.images], h.world, h.log, h.covers.drop i, h.covers'.drop i⟩

theorem SameFiles.afterHandler (h : SameFiles s t) (i : Nat) (res : Int) :
    SameEnd SameFiles Eq (Host.afterHandler i res s) (Host.afterHandler i res t) := by
  have hrel : Option.Rel Eq s.loaded.images[i]? t.loaded.images[i]? := by
    rw [h.images]
    cases t.loaded.images[i]? with
    | none => exact .none
    | some image => exact .some rfl
  unfold Host.afterHandler
  split
  · rw [get_bind_run, get_bind_run]
    refine SameEnd.bind (.orFault hrel h) ?_
    rintro _ _ s t - h
    exact .ok rfl h
  · split
    · rw [get_bind_run, get_bind_run]
      refine SameEnd.bind (.orFault hrel h) ?_
      rintro _ _ s t - h
      exact .ok rfl (h.drop i)
    · split
      · exact .ok rfl h
      · exact .ok rfl h

variable (g : Behaviour φ α W) (strArg : Str → α)

theorem SameFiles.call (h : SameFiles s t) (handler : CallbackEntry φ) (args : List α) :
    SameEnd SameFiles Eq (Host.call g handler args s) (Host.call g handler args t) := by
  refine .ok (by rw [h.world]) ⟨h.images, ?_, ?_, h.covers, h.covers'⟩
  · simp only [Host.heard, h.world]
  · simp only [Host.heard, h.world, h.log]

theorem SameFiles.loop (cbName : Str) (args : List α) (n i : Nat) (h : SameFiles s t) :
    SameEnd SameFiles Eq (Host.loop g cbName args n i s) (Host.loop g cbName args n i t) := by
  induction n generalizing i s t with
  | zero => exact .ok rfl h
  | succ n ih =>
      have hrel : Option.Rel Eq (s.loaded.handlers cbName)[i]? (t.loaded.handlers cbName)[i]? := by
        rw [h.handlers]
        cases (t.loaded.handlers cbName)[i]? with
        | none => exact .none
        | some handler => exact .some rfl
      rw [Host.loop, get_bind_run, get_bind_run]
      refine SameEnd.bind (.orFault hrel h) ?_
      rintro handler _ s t rfl h
      refine SameEnd.bind (h.call g handler args) ?_
      rintro res _ s t rfl h
      refine SameEnd.bind (h.afterHandler i res) ?_
      rintro o _ s t rfl h
      cases o with
      | some r => exact .ok rfl h
      | none => exact ih (i + 1) h

/-- With the event known to both, or to neither. -/
theorem SameFiles.body {nested : List α → Prog (Host φ α W) Int}
    (hnested : ∀ args s t, SameFiles s t → SameEnd SameFiles Eq (nested args s) (nested args t))
    {cbName : Str} (args : List α) (h : SameFiles s t)
    (hknown : cbName ∈ s.loaded.known ↔ cbName ∈ t.loaded.known) :
    SameEnd SameFiles Eq (Host.body g strArg nested cbName args s)
      (Host.body g strArg nested cbName args t) := by
  rw [Host.body, get_bind_run, get_bind_run]
  by_cases hs : cbName ∈ s.loaded.known
  · rw [if_pos hs, if_pos (hknown.mp hs), h.handlers]
    refine SameEnd.bind (h.loop g cbName args _ 0) ?_
    rintro o _ s t rfl h
    cases o with
    | some r => exact .ok rfl h
    | none =>
        simp only
        split
        · refine SameEnd.bind (hnested _ s t h) ?_
          rintro _ _ s t - h
          exact .ok rfl h
        · exact .ok rfl h
  · rw [if_neg hs, if_neg fun ht => hs (hknown.mpr ht)]
    exact .ok rfl h

/-- Nobody listens to the notification: to raise it does nothing. -/
theorem body_unheard {nested : List α → Prog (Host φ α W) Int} (args : List α)
    {s : Host φ α W} (h : s.loaded.handlers callbackCallbacksExecuted = []) :
    Host.body g strArg nested callbackCallbacksExecuted args s = .ok bcircPluginOk s := by
  rw [Host.body, get_bind_run, h]
  split
  · rfl
  · rfl

/-- The notification does not tell them apart. -/
theorem SameFiles.notification {nested : List α → Prog (Host φ α W) Int}
    (hnested : ∀ args s t, SameFiles s t → SameEnd SameFiles Eq (nested args s) (nested args t))
    (args : List α) (h : SameFiles s t) :
    SameEnd SameFiles Eq (Host.body g strArg nested callbackCallbacksExecuted args s)
      (Host.body g strArg nested callbackCallbacksExecuted args t) := by
  by_cases hnone : s.loaded.handlers callbackCallbacksExecuted = []
  · rw [body_unheard g strArg args hnone, body_unheard g strArg args (h.handlers _ ▸ hnone)]
    exact .ok rfl h
  · exact h.body g strArg hnested args
      (iff_of_true (h.covers.known hnone) (h.covers'.known (h.handlers _ ▸ hnone)))

theorem SameFiles.dispatch {cbName : Str} (args : List α) (h : SameFiles s t)
    (hsame : (cbName ∈ s.loaded.known ↔ cbName ∈ t.loaded.known) ∨
      cbName = callbackCallbacksExecuted ∨
      s.loaded.handlers cbName = [] ∧ s.loaded.handlers callbackCallbacksExecuted = []) :
    SameEnd SameFiles Eq (Host.dispatch g strArg cbName args s)
      (Host.dispatch g strArg cbName args t) := by
  have hnested : ∀ args s t, SameFiles s t → SameEnd SameFiles Eq
      (Host.body g strArg (fun _ => pure bcircPluginOk) callbackCallbacksExecuted args s)
      (Host.body g strArg (fun _ => pure bcircPluginOk) callbackCallbacksExecuted args t) :=
    fun args s t h => h.notification g strArg (fun _ _ _ h => .ok rfl h) args
  rcases hsame with hknown | rfl | ⟨hnone, hnote⟩
  · exact h.body g strArg hnested args hknown
  · exact h.notification g strArg hnested args
  · -- whoever knows the event raises the notification, to no effect
    have hquiet : ∀ u : Host φ α W, u.loaded.handlers cbName = [] →
        u.loaded.handlers callbackCallbacksExecuted = [] →
        Host.dispatch g strArg cbName args u = .ok bcircPluginOk u := by
      intro u hu hu'
      rw [Host.dispatch, Host.body, get_bind_run, hu]
      split
      · rw [List.length_nil, Host.loop, pure_bind_run]
        simp only
        split
        · rw [bind_ok (body_unheard g strArg _ hu')]
          rfl
        · rfl
      · rfl
    rw [hquiet s hnone hnote, hquiet t (h.handlers _ ▸ hnone) (h.handlers _ ▸ hnote)]
    exact .ok rfl h

end SameFiles

/-! ## Telling them apart -/

/-- To the callbacks and to whoever looks at the plugins, `reg` and `reg'`
answer `cbName` alike: the same calls, result or fault, and the same plugins
afterwards. -/
def AnswersAlike (reg reg' : Registry φ) (cbName : Str) : Prop :=
  ∀ (α W : Type) (g : Behaviour φ α W) (strArg : Str → α) (args : List α) (w : W),
    SameEnd (fun b b' : Bot φ (W × List (Invocation φ α)) =>
        b.world.1 = b'.world.1 ∧
          b.world.2.map Invocation.heard = b'.world.2.map Invocation.heard ∧
          b.reg.pluginList.map Plugin.image = b'.reg.pluginList.map Plugin.image)
      Eq (executeCallbacks (traced g.answer) strArg cbName args ⟨reg, (w, [])⟩)
      (executeCallbacks (traced g.answer) strArg cbName args ⟨reg', (w, [])⟩)

section Alike

variable {reg reg' : Registry φ} {l l' : Loaded φ}

theorem Registry.Mirrors.registeredFor_eq_nil (h : reg.Mirrors l) (cbName : Str) :
    reg.registeredFor cbName = [] ↔ l.handlers cbName = [] := by
  rw [← h.bucket cbName, List.map_eq_nil_iff]
  exact ⟨fun hnil => List.Perm.eq_nil (hnil ▸ h.inv.bucket_perm cbName),
    fun hnil => (hnil ▸ h.inv.bucket_perm cbName).nil_eq.symm⟩

/-- Both are run on their list of files, and those are compared. -/
theorem answersAlike_of_mirrors (h : reg.Mirrors l) (h' : reg'.Mirrors l')
    (hpaths : reg.paths.Nodup) (himages : l.images = l'.images) {cbName : Str}
    (hsame : (cbName ∈ l.known ↔ cbName ∈ l'.known) ∨ cbName = callbackCallbacksExecuted ∨
      l.handlers cbName = [] ∧ l.handlers callbackCallbacksExecuted = []) :
    AnswersAlike reg reg' cbName := by
  intro α W g strArg args w
  have hpaths' : reg'.paths.Nodup := by
    rw [h'.paths, ← himages, ← h.paths]
    exact hpaths
  have hleft := executeCallbacks_host g strArg cbName args
    (b := ⟨reg, (w, [])⟩) (s := ⟨l, w, []⟩) ⟨h, hpaths, rfl, rfl⟩
  have hright := executeCallbacks_host g strArg cbName args
    (b := ⟨reg', (w, [])⟩) (s := ⟨l', w, []⟩) ⟨h', hpaths', rfl, rfl⟩
  have hmid : SameFiles (⟨l, w, []⟩ : Host φ α W) ⟨l', w, []⟩ :=
    ⟨himages, rfl, rfl, h.covers, h'.covers⟩
  refine ((hleft.trans (hmid.dispatch g strArg args hsame)).trans hright.symm).mono ?_
  rintro b b' ⟨t, ⟨s, hs, hst⟩, ht⟩
  refine ⟨?_, ?_, ?_⟩
  · rw [hs.world, hst.world, ht.world]
  · rw [hs.log, hst.log, ht.log]
  · rw [hs.reg.images, hst.images, ht.reg.images]

/-- An event of the index that nobody answers is announced all the same. -/
theorem not_answersAlike (h : reg.Mirrors l) {cbName : Str}
    (hknown : getCbIndex reg.indexList cbName ≠ none)
    (hunknown : getCbIndex reg'.indexList cbName = none)
    (hlast : cbName ≠ callbackCallbacksExecuted)
    (hnote : reg.registeredFor callbackCallbacksExecuted ≠ []) :
    ¬ AnswersAlike reg reg' cbName := by
  intro halike
  have hend := (halike Str Unit (fun _ _ w => (bcircPluginOk, w)) id [] ()).endState.2.1
  have hleft := congrArg List.length (executeCallbacks_ok reg id cbName [] ())
  have hright := congrArg List.length (executeCallbacks_ok reg' id cbName [] ())
  rw [if_neg (not_or.mpr ⟨hlast, hknown⟩), List.length_append, List.length_map,
    List.length_map] at hleft
  rw [if_pos (Or.inr hunknown), bucket_of_getCbIndex_none hunknown] at hright
  have hlen := congrArg List.length hend
  rw [List.length_map, List.length_map] at hlen
  have hzero := hleft.symm.trans (hlen.trans hright)
  have hbucket : Bcirc.bucket reg.indexList callbackCallbacksExecuted = [] :=
    List.length_eq_zero_iff.mp (Nat.add_eq_zero_iff.mp hzero).2
  exact hnote ((h.registeredFor_eq_nil _).mpr (by rw [← h.bucket, hbucket]; rfl))

end Alike

section Sample

/-- `a.so` is rewritten and then taken off the list by its FAIL; what is left
is `b.so`. -/
def sampleReloaded : Registry Nat :=
  (endState (runTurns (ascii "bin") failingThird id sampleTurns
    ⟨getPlugins (ascii "bin") sampleEntries initIndex, ((), [])⟩)).reg

def sampleFiles : List (Str × Option (SharedObject Nat)) :=
  [(ascii "bin/b.so", some (reloadedObject 2))]

end Sample

end Bcirc
