import Bcirc.DispatchActions
import Bcirc.KeyedList
import Bcirc.MappedNames

/-!
# The subscripts of a dispatch (`execute_callbacks` in
`src/plugin_handler.c`)

`cb_count` is read before the loop. A callback that answers FAIL has a
plugin removed while the loop runs: its callbacks leave the bucket, the
rest moves up, `plugin_list` gets shorter, and names of the index may go
with the image. What becomes of all this from round to round is said by
`Places`, and `Steady` says when no subscript misses and no callback is
passed over.
-/

namespace Bcirc

open CProg CStr

variable {φ α W : Type}

/-! ## What a dispatch must not do -/

/-- Of the first `i` callbacks for the event, those of loaded plugins were
invoked. -/
def ServedUpTo (cbName : Str) (i : Nat) (s : Bot φ (W × List (Invocation φ α))) : Prop :=
  ∀ cb ∈ (bucket s.reg.indexList cbName).take i, cb ∈ s.reg.loaded →
    ∃ inv ∈ s.world.2, inv.cb = cb

/-- So it is at the start of every round, and at the end. -/
def RoundsServe (f : Answer φ α W) (cbName : Str) (args : List α)
    (s : Bot φ (W × List (Invocation φ α))) : Prop :=
  ∀ indexPoint, getCbIndex s.reg.indexList cbName = some indexPoint →
    ∀ k ≤ (bucket s.reg.indexList cbName).length, ∀ s',
      callbackLoop (traced f) indexPoint args k 0 s = .ok none s' → ServedUpTo cbName k s'

/-- Every subscript of the call is in its list and no lookup ends it, no
callback is invoked twice, and none is passed over, by the event's own loop
and by that of the notification after it. -/
structure DispatchInRange (leaked : List Nat) (f : Answer φ α W) (strArg : Str → α)
    (cbName : CbName) (args : List α) (s : Bot φ (W × List (Invocation φ α))) : Prop where
  inRange : returned (executeCallbacksMapped leaked (traced f) strArg cbName args s)
  once : ((endState (executeCallbacksMapped leaked (traced f) strArg cbName args s)).world.2.map
    (·.cb)).Nodup
  served : RoundsServe f cbName.str args s
  notified : cbName.str ≠ callbackCallbacksExecuted → ∀ indexPoint s',
    getCbIndex s.reg.indexList cbName.str = some indexPoint →
    callbackLoop (traced f) indexPoint args (bucket s.reg.indexList cbName.str).length 0 s =
      .ok none s' →
    RoundsServe f callbackCallbacksExecuted (args ++ [strArg cbName.str]) s'

/-! ## The places of a bucket -/

/-- The callbacks at the places that are passed and at those ahead, what
each plugin registered and its image, in the order of `plugin_list`, the
callbacks for the notification, and the names of the index. -/
structure Places (φ : Type) where
  passed : List (Callback φ)
  ahead : List (Callback φ)
  owned : List (List (Callback φ))
  images : List Nat
  note : List (Callback φ)
  names : List CbName
  deriving DecidableEq, Repr

/-- `remove_index` for each of `gone`, in one bucket. -/
def unlist (gone cbs : List (Callback φ)) : List (Callback φ) :=
  cbs.filter fun c => !(gone.map (·.serial)).contains c.serial

namespace Places

/-- The next place is passed. -/
def pass (P : Places φ) : Places φ :=
  { P with passed := P.passed ++ P.ahead.take 1, ahead := P.ahead.tail }

/-- How many of the passed places are filled anew without `gone`. -/
def vacated (P : Places φ) (gone : List (Callback φ)) : Nat :=
  P.passed.length - (unlist gone P.passed).length

/-- The callbacks that then move into them. -/
def moved (P : Places φ) (gone : List (Callback φ)) : List (Callback φ) :=
  (unlist gone P.ahead).take (P.vacated gone)

/-- The plugin at position `i`, which registered `gone`, is removed. -/
def remove (P : Places φ) (i : Nat) (gone : List (Callback φ)) : Places φ where
  passed := unlist gone P.passed ++ P.moved gone
  ahead := (unlist gone P.ahead).drop (P.vacated gone)
  owned := P.owned.eraseIdx i
  images := P.images.eraseIdx i
  note := unlist gone P.note
  names := P.names

/-- The notification starts, at its first place. -/
def notify (P : Places φ) : Places φ := { P with passed := [], ahead := P.note }

def mapped (P : Places φ) (leaked : List Nat) (image : Nat) : Bool :=
  (P.images ++ leaked).contains image

end Places

def Registry.places (reg : Registry φ) (cbName : Str) : Places φ where
  passed := []
  ahead := bucket reg.indexList cbName
  owned := reg.pluginList.map (·.callbackList)
  images := reg.images
  note := bucket reg.indexList callbackCallbacksExecuted
  names := reg.names

/-- For as many rounds as are left there is a callback ahead, unless one
answers BREAK before. STOP and FAIL come at a place where `plugin_list` has
a plugin, and the removal of that plugin moves no callback of another one
into a place that is passed. `after` is for the end of the rounds. -/
def Steady (f : Answer φ α W) (args : List α) (after : Places φ → W → Prop) :
    Nat → Places φ → W → Prop
  | 0, P, w => after P w
  | left + 1, P, w =>
    match P.ahead with
    | [] => False
    | cb :: _ =>
        let r := f cb args w
        let i := P.passed.length
        if r.1 = bcircPluginBreak then True
        else if r.1 = bcircPluginStop then
          i < P.owned.length ∧ Steady f args after left P.pass r.2
        else if r.1 = bcircPluginFail then
          match P.owned[i]? with
          | none => False
          | some gone =>
              (∀ c ∈ P.pass.moved gone, ∀ owned ∈ P.owned.eraseIdx i, c ∉ owned) ∧
                Steady f args after left (P.pass.remove i gone) r.2
        else Steady f args after left P.pass r.2

/-- No name is gone that the first lookup compares, the dispatch is steady,
and so is the notification after it, for which no name is gone either. -/
def SteadyDispatch (leaked : List Nat) (f : Answer φ α W) (strArg : Str → α) (cbName : CbName)
    (args : List α) (reg : Registry φ) (w : W) : Prop :=
  NamesMapped (reg.mapped leaked) reg.names cbName.str ∧
    (getCbIndex reg.indexList cbName.str ≠ none →
      Steady f args
        (fun P w => cbName.str ≠ callbackCallbacksExecuted →
          NoteMapped (P.mapped leaked) P.names cbName.image ∧
            Steady f (args ++ [strArg cbName.str]) (fun _ _ => True) P.note.length P.notify w)
        (bucket reg.indexList cbName.str).length (reg.places cbName.str) w)

/-! ## The places and the registry -/

/-- All that can become of the bot in a round after which the loop goes on. -/
theorem afterCallback_none {i : Nat} {res : Int} {s u : Bot φ W}
    (h : afterCallback i res s = .ok none u) :
    u = s ∨ ∃ p, s.reg.pluginList[i]? = some p ∧
      (u = { s with reg := pausePlugin p.serial s.reg } ∨
        u = { s with reg := removePlugin p.serial s.reg }) := by
  have hworld := afterCallback_world i res s
  rw [h, endState_ok] at hworld
  obtain ⟨reg, w⟩ := u
  obtain rfl : w = s.world := hworld
  rcases afterCallback_later (afterCallback_forget h) with hreg | ⟨p, hp, hreg | hreg⟩
  · exact Or.inl (by rw [show reg = s.reg from hreg])
  · exact Or.inr ⟨p, hp, Or.inl (by rw [show reg = _ from hreg])⟩
  · exact Or.inr ⟨p, hp, Or.inr (by rw [show reg = _ from hreg])⟩

/-- The places at the start of round `i`. No callback ahead was invoked
before, and none was twice. -/
structure InRound (cbName : Str) (indexPoint i : Nat) (P : Places φ)
    (s : Bot φ (W × List (Invocation φ α))) : Prop where
  inv : ∃ orphans, s.reg.Inv orphans
  index : getCbIndex s.reg.indexList cbName = some indexPoint
  passed : P.passed = (bucket s.reg.indexList cbName).take i
  ahead : P.ahead = (bucket s.reg.indexList cbName).drop i
  owned : P.owned = s.reg.pluginList.map (·.callbackList)
  images : P.images = s.reg.images
  note : P.note = bucket s.reg.indexList callbackCallbacksExecuted
  names : P.names = s.reg.names
  unheard : ∀ inv ∈ s.world.2, inv.cb ∉ P.ahead
  once : (s.world.2.map (·.cb)).Nodup

theorem mem_loaded_iff {reg : Registry φ} {cb : Callback φ} :
    cb ∈ reg.loaded ↔ ∃ owned ∈ reg.pluginList.map (·.callbackList), cb ∈ owned := by
  simp [Registry.loaded]

namespace InRound

variable {cbName : Str} {indexPoint i : Nat} {P : Places φ}
  {s : Bot φ (W × List (Invocation φ α))}

theorem callbackAt (h : InRound cbName indexPoint i P s) :
    s.reg.callbackAt? indexPoint i = P.ahead.head? := by
  obtain ⟨entry, hentry, -, hbucket⟩ := getCbIndex_some h.index
  rw [Registry.callbackAt?, hentry, h.ahead, List.head?_drop, ← hbucket]
  rfl

theorem length_passed (h : InRound cbName indexPoint i P s) (hne : P.ahead ≠ []) :
    P.passed.length = i := by
  rw [h.ahead, ne_eq, List.drop_eq_nil_iff] at hne
  rw [h.passed, List.length_take]
  omega

theorem length_pass (h : InRound cbName indexPoint i P s) {cb : Callback φ}
    {ahead : List (Callback φ)} (hP : P.ahead = cb :: ahead) : P.pass.passed.length = i + 1 := by
  show (P.passed ++ P.ahead.take 1).length = i + 1
  rw [List.length_append, h.length_passed (by rw [hP]; exact List.cons_ne_nil cb ahead), hP]
  rfl

/-- The callback at hand is invoked. -/
theorem pass (f : Answer φ α W) (args : List α) {cb : Callback φ} {ahead : List (Callback φ)}
    (h : InRound cbName indexPoint i P s) (hP : P.ahead = cb :: ahead) :
    InRound cbName indexPoint (i + 1) P.pass (record f cb args s) := by
  obtain ⟨orphans, hinv⟩ := h.inv
  have hdrop : (bucket s.reg.indexList cbName).drop i = cb :: ahead := h.ahead.symm.trans hP
  have hnodup : (cb :: ahead).Nodup := by
    rw [← hdrop]
    exact (hinv.index.bucket_nodup cbName).sublist (List.drop_sublist _ _)
  rw [List.nodup_cons] at hnodup
  refine ⟨⟨orphans, hinv⟩, h.index, ?_, ?_, h.owned, h.images, h.note, h.names, ?_, ?_⟩
  · show P.passed ++ P.ahead.take 1 = (bucket s.reg.indexList cbName).take (i + 1)
    rw [List.take_add, h.passed, h.ahead]
  · show P.ahead.tail = (bucket s.reg.indexList cbName).drop (i + 1)
    rw [h.ahead, List.tail_drop]
  · show ∀ inv ∈ s.world.2 ++ [_], inv.cb ∉ P.ahead.tail
    rw [hP, List.forall_mem_append, List.forall_mem_singleton]
    refine ⟨fun inv hinv' hmem => h.unheard inv hinv' ?_, hnodup.1⟩
    rw [hP]
    exact List.mem_cons_of_mem cb hmem
  · show ((s.world.2 ++ [(⟨cb, args, (f cb args s.world.1).1⟩ : Invocation φ α)]).map (·.cb)).Nodup
    rw [List.map_append, List.map_singleton]
    refine List.nodup_append.mpr ⟨h.once, List.nodup_singleton _, ?_⟩
    intro c hc d hd heq
    obtain ⟨inv, hinv', rfl⟩ := List.mem_map.mp hc
    refine h.unheard inv hinv' ?_
    rw [hP, heq, List.mem_singleton.mp hd]
    exact List.mem_cons_self

theorem pause (h : InRound cbName indexPoint i P s) (ptr : Nat) :
    InRound cbName indexPoint i P { s with reg := pausePlugin ptr s.reg } := by
  obtain ⟨orphans, hinv⟩ := h.inv
  refine ⟨⟨orphans, pausePlugin_inv hinv ptr⟩, h.index, h.passed, h.ahead, ?_, ?_, h.note,
    h.names, h.unheard, h.once⟩
  · exact h.owned.trans (map_pausePlugin ptr s.reg fun _ _ => rfl).symm
  · exact h.images.trans (map_pausePlugin ptr s.reg fun _ _ => rfl).symm

end InRound

/-- What is left of the places up to `k`, and what moves up. -/
theorem unlist_eq_append (gone cbs : List (Callback φ)) (k : Nat) :
    unlist gone cbs = unlist gone (cbs.take k) ++ unlist gone (cbs.drop k) := by
  rw [unlist, unlist, unlist, ← List.filter_append, List.take_append_drop]

theorem InRound.remove {cbName : Str} {indexPoint i : Nat} {P : Places φ}
    {s : Bot φ (W × List (Invocation φ α))} (h : InRound cbName indexPoint i P s)
    (hlen : P.passed.length = i) {j : Nat} {p : Plugin φ} (hp : s.reg.pluginList[j]? = some p) :
    InRound cbName indexPoint i (P.remove j p.callbackList)
      { s with reg := removePlugin p.serial s.reg } := by
  obtain ⟨orphans, hinv⟩ := h.inv
  have hindex := removePlugin_indexList hinv (List.mem_of_getElem? hp)
  have hbucket : ∀ event, bucket (removePlugin p.serial s.reg).indexList event =
      unlist p.callbackList (bucket s.reg.indexList event) := by
    intro event
    rw [hindex, bucket_foldl_removeIndex]
    rfl
  have hkept : (unlist p.callbackList P.passed).length ≤ i := by
    rw [← hlen]
    exact List.length_filter_le _ _
  have hsplit : unlist p.callbackList (bucket s.reg.indexList cbName) =
      unlist p.callbackList P.passed ++ unlist p.callbackList P.ahead := by
    rw [h.passed, h.ahead]
    exact unlist_eq_append _ _ i
  have herase : (removePlugin p.serial s.reg).pluginList = s.reg.pluginList.eraseIdx j :=
    KeyedList.filter_key_ne hinv.nodup hp
  refine ⟨⟨orphans, removePlugin_inv hinv p.serial⟩, ?_, ?_, ?_, ?_, ?_, ?_, ?_, ?_, h.once⟩
  · rw [getCbIndex_removePlugin]
    exact h.index
  · rw [hbucket, hsplit, List.take_append, List.take_of_length_le hkept, ← hlen]
    rfl
  · rw [hbucket, hsplit, List.drop_append, List.drop_of_length_le hkept, List.nil_append, ← hlen]
    rfl
  · show P.owned.eraseIdx j = ((removePlugin p.serial s.reg).pluginList).map (·.callbackList)
    rw [herase, h.owned, List.eraseIdx_map]
  · show P.images.eraseIdx j = ((removePlugin p.serial s.reg).pluginList).map (·.handle)
    rw [herase, h.images, Registry.images, List.eraseIdx_map]
  · show unlist p.callbackList P.note = _
    rw [hbucket, h.note]
  · exact h.names.trans (names_removePlugin p.serial s.reg).symm
  · intro inv hinv' hmem
    refine h.unheard inv hinv' ?_
    exact (List.mem_filter.mp (List.mem_of_mem_drop hmem)).1

/-! ## Who was passed over -/

section ServedUpTo

variable {cbName : Str} {indexPoint i : Nat} {P : Places φ}
  {s : Bot φ (W × List (Invocation φ α))}

theorem InRound.served_iff (h : InRound cbName indexPoint i P s) :
    ServedUpTo cbName i s ↔
      ∀ c ∈ P.passed, (∃ owned ∈ P.owned, c ∈ owned) → ∃ inv ∈ s.world.2, inv.cb = c := by
  unfold ServedUpTo
  simp only [mem_loaded_iff, h.passed, h.owned]

/-- The callback that was just invoked was not passed over. -/
theorem ServedUpTo.pass (f : Answer φ α W) (args : List α) {cb : Callback φ}
    {ahead : List (Callback φ)} (hserved : ServedUpTo cbName i s)
    (h : InRound cbName indexPoint i P s) (hP : P.ahead = cb :: ahead) :
    ServedUpTo cbName (i + 1) (record f cb args s) := by
  rw [(h.pass f args hP).served_iff]
  rw [h.served_iff] at hserved
  intro c hc howned
  have hc : c ∈ P.passed ++ P.ahead.take 1 := hc
  rw [hP, List.take_succ_cons, List.take_zero, List.mem_append, List.mem_singleton] at hc
  rcases hc with hpassed | rfl
  · obtain ⟨inv, hinv, hcb⟩ := hserved c hpassed howned
    exact ⟨inv, List.mem_append_left _ hinv, hcb⟩
  · exact ⟨_, List.mem_append_right _ (List.mem_singleton.mpr rfl), rfl⟩

theorem ServedUpTo.pause (h : ServedUpTo cbName i s) (ptr : Nat) :
    ServedUpTo cbName i { s with reg := pausePlugin ptr s.reg } := by
  unfold ServedUpTo
  rw [pausePlugin_loaded]
  exact h

/-- A removal leaves none behind just when it moves no callback of the
other plugins. -/
theorem InRound.served_remove (h : InRound cbName indexPoint i P s)
    (hserved : ServedUpTo cbName i s)
    (hlen : P.passed.length = i) {j : Nat} {p : Plugin φ} (hp : s.reg.pluginList[j]? = some p) :
    ServedUpTo cbName i { s with reg := removePlugin p.serial s.reg } ↔
      ∀ c ∈ P.moved p.callbackList, ∀ owned ∈ P.owned.eraseIdx j, c ∉ owned := by
  have hahead : ∀ c ∈ P.moved p.callbackList, c ∈ P.ahead := fun c hc =>
    (List.mem_filter.mp (List.mem_of_mem_take hc)).1
  rw [(h.remove hlen hp).served_iff]
  rw [h.served_iff] at hserved
  constructor
  · intro hall c hc owned howned hmem
    obtain ⟨inv, hinv, rfl⟩ := hall c (List.mem_append_right _ hc) ⟨owned, howned, hmem⟩
    exact h.unheard inv hinv (hahead _ hc)
  · intro hnone c hc howned
    obtain ⟨owned, hleft, hmem⟩ := howned
    rcases List.mem_append.mp hc with hkept | hmoved
    · exact hserved c (List.mem_filter.mp hkept).1 ⟨owned, List.mem_of_mem_eraseIdx hleft, hmem⟩
    · exact absurd hmem (hnone c hmoved owned hleft)

end ServedUpTo

/-! ## The loop -/

section Loop

variable (f : Answer φ α W) {cbName : Str} {indexPoint i : Nat} {args : List α} {P : Places φ}
  {s : Bot φ (W × List (Invocation φ α))}

/-- One round, in which `cb` answers. -/
theorem callbackLoop_answer (args : List α) {cb : Callback φ} {ahead : List (Callback φ)}
    (h : InRound cbName indexPoint i P s) (hP : P.ahead = cb :: ahead) (n : Nat) :
    callbackLoop (traced f) indexPoint args (n + 1) i s =
      (do
        match ← afterCallback i (f cb args s.world.1).1 with
        | some r => pure (some r)
        | none => callbackLoop (traced f) indexPoint args n (i + 1) :
          Prog (Bot φ (W × List (Invocation φ α))) (Option Int)) (record f cb args s) :=
  callbackLoop_succ f (by rw [h.callbackAt, hP]; rfl)

/-- What the rounds from `i` on must come to, and `A` where they are used
up. -/
def LoopServes (cbName : Str) (indexPoint : Nat) (args : List α)
    (A : Bot φ (W × List (Invocation φ α)) → Prop) (n i : Nat)
    (s : Bot φ (W × List (Invocation φ α))) : Prop :=
  returned (callbackLoop (traced f) indexPoint args n i s) ∧
    (∀ k ≤ n, ∀ s', callbackLoop (traced f) indexPoint args k i s = .ok none s' →
      ServedUpTo cbName (i + k) s') ∧
    ∀ s', callbackLoop (traced f) indexPoint args n i s = .ok none s' → A s'

variable {f} {A : Bot φ (W × List (Invocation φ α)) → Prop}

theorem LoopServes.servedUpTo {n : Nat} (h : LoopServes f cbName indexPoint args A n i s) :
    ServedUpTo cbName i s :=
  h.2.1 0 (Nat.zero_le n) s rfl

theorem loopServes_zero (hserved : ServedUpTo cbName i s) :
    LoopServes f cbName indexPoint args A 0 i s ↔ A s := by
  refine ⟨fun hall => hall.2.2 s rfl, fun hA => ⟨rfl, fun k hk s' hs' => ?_, fun s' hs' => ?_⟩⟩
  · obtain rfl := Nat.le_zero.mp hk
    cases hs'
    exact hserved
  · cases hs'
    exact hA

theorem loopServes_next {u : Bot φ (W × List (Invocation φ α))} {n : Nat}
    (hround : ∀ k, callbackLoop (traced f) indexPoint args (k + 1) i s =
      callbackLoop (traced f) indexPoint args k (i + 1) u) (hserved : ServedUpTo cbName i s) :
    LoopServes f cbName indexPoint args A (n + 1) i s ↔
      LoopServes f cbName indexPoint args A n (i + 1) u := by
  unfold LoopServes
  rw [hround n]
  refine and_congr_right fun _ => and_congr_left fun _ => ⟨fun h k hk s' hs' => ?_, ?_⟩
  · rw [Nat.add_right_comm, Nat.add_assoc]
    exact h (k + 1) (Nat.succ_le_succ hk) s' ((hround k).trans hs')
  · intro h k hk s' hs'
    cases k with
    | zero =>
        cases hs'
        exact hserved
    | succ k =>
        rw [hround k] at hs'
        have hnext := h k (Nat.le_of_succ_le_succ hk) s' hs'
        rwa [Nat.add_right_comm, Nat.add_assoc] at hnext

theorem loopServes_break {u : Bot φ (W × List (Invocation φ α))} {r : Int} {n : Nat}
    (hround : ∀ k, callbackLoop (traced f) indexPoint args (k + 1) i s = .ok (some r) u)
    (hserved : ServedUpTo cbName i s) : LoopServes f cbName indexPoint args A (n + 1) i s := by
  refine ⟨by rw [hround n]; rfl, fun k _ s' hs' => ?_, fun s' hs' => ?_⟩
  · cases k with
    | zero =>
        cases hs'
        exact hserved
    | succ k =>
        rw [hround k] at hs'
        cases hs'
  · rw [hround n] at hs'
    cases hs'

/-- A round after which the loop goes on: it has to leave none behind, and
the rounds after it have to come to what they must. -/
theorem loopServes_goesOn {u : Bot φ (W × List (Invocation φ α))} {n : Nat} {rest : Prop}
    (hround : ∀ k, callbackLoop (traced f) indexPoint args (k + 1) i s =
      callbackLoop (traced f) indexPoint args k (i + 1) u) (hserved : ServedUpTo cbName i s)
    (hrest : ServedUpTo cbName (i + 1) u →
      (LoopServes f cbName indexPoint args A n (i + 1) u ↔ rest)) :
    LoopServes f cbName indexPoint args A (n + 1) i s ↔ ServedUpTo cbName (i + 1) u ∧ rest := by
  rw [loopServes_next hround hserved]
  exact ⟨fun hall => ⟨hall.servedUpTo, (hrest hall.servedUpTo).mp hall⟩,
    fun h => (hrest h.1).mpr h.2⟩

theorem not_loopServes_of_error {u : Bot φ (W × List (Invocation φ α))} {e : Fault} {n : Nat}
    (hround : callbackLoop (traced f) indexPoint args n i s = .error e u) :
    ¬ LoopServes f cbName indexPoint args A n i s := by
  intro hall
  have hreturned := hall.1
  rw [hround] at hreturned
  cases hreturned

section Round

variable {after : Places φ → W → Prop} {n : Nat} {cb : Callback φ} {ahead : List (Callback φ)}
  (h : InRound cbName indexPoint i P s) (hserved : ServedUpTo cbName i s)
  (hP : P.ahead = cb :: ahead)
  (hgo : ∀ P' u, afterCallback i (f cb args s.world.1).1 (record f cb args s) = .ok none u →
    InRound cbName indexPoint (i + 1) P' u →
    (LoopServes f cbName indexPoint args A (n + 1) i s ↔
      ServedUpTo cbName (i + 1) u ∧ Steady f args after n P' u.world.1))

include h hserved hP hgo

/-- `BCIRC_PLUGIN_STOP`: the subscript is to be one of the list, and the
pause moves nothing. -/
theorem loopServes_stop (hstop : (f cb args s.world.1).1 = bcircPluginStop) :
    LoopServes f cbName indexPoint args A (n + 1) i s ↔
      i < P.owned.length ∧ Steady f args after n P.pass (f cb args s.world.1).2 := by
  have hlength : P.owned.length = s.reg.pluginList.length := by
    rw [h.owned, List.length_map]
  rw [hlength]
  cases hp : s.reg.pluginList[i]? with
  | none =>
      have hmiss := afterCallback_outOfBounds (s := record f cb args s) (Or.inl hstop) hp
      have hround := (callbackLoop_answer f args h hP n).trans (bind_error hmiss)
      exact iff_of_false (not_loopServes_of_error hround)
        fun hsteady => absurd hsteady.1 (Nat.not_lt.mpr (List.getElem?_eq_none_iff.mp hp))
  | some p =>
      have hact : afterCallback i (f cb args s.world.1).1 (record f cb args s) =
          .ok none { record f cb args s with reg := pausePlugin p.serial s.reg } := by
        rw [hstop]
        exact afterCallback_stop (s := record f cb args s) hp
      have hnow := (hserved.pass f args h hP).pause p.serial
      rw [hgo P.pass _ hact ((h.pass f args hP).pause p.serial)]
      exact ⟨fun hsteady => ⟨(List.getElem?_eq_some_iff.mp hp).1, hsteady.2⟩,
        fun hsteady => ⟨hnow, hsteady.2⟩⟩

/-- `BCIRC_PLUGIN_FAIL`: what the removal moves is to be nobody else's. -/
theorem loopServes_fail (hfail : (f cb args s.world.1).1 = bcircPluginFail) :
    LoopServes f cbName indexPoint args A (n + 1) i s ↔
      ∃ gone, P.owned[i]? = some gone ∧
        (∀ c ∈ P.pass.moved gone, ∀ owned ∈ P.owned.eraseIdx i, c ∉ owned) ∧
          Steady f args after n (P.pass.remove i gone) (f cb args s.world.1).2 := by
  have hplugin : P.owned[i]? = (s.reg.pluginList[i]?).map (·.callbackList) := by
    rw [h.owned, List.getElem?_map]
  rw [hplugin]
  cases hp : s.reg.pluginList[i]? with
  | none =>
      have hmiss := afterCallback_outOfBounds (s := record f cb args s) (Or.inr hfail) hp
      have hround := (callbackLoop_answer f args h hP n).trans (bind_error hmiss)
      refine iff_of_false (not_loopServes_of_error hround) ?_
      rintro ⟨gone, hgone, -⟩
      cases hgone
  | some p =>
      have hlink := h.pass f args hP
      have hlen := h.length_pass hP
      have hact : afterCallback i (f cb args s.world.1).1 (record f cb args s) =
          .ok none { record f cb args s with reg := removePlugin p.serial s.reg } := by
        rw [hfail]
        exact afterCallback_fail (s := record f cb args s) hp
      have hnow := hlink.served_remove (hserved.pass f args h hP) hlen hp
      refine (hgo _ _ hact (hlink.remove hlen hp)).trans ((and_congr_left fun _ => hnow).trans ?_)
      constructor
      · rintro ⟨hmoved, hrest⟩
        exact ⟨p.callbackList, rfl, hmoved, hrest⟩
      · rintro ⟨gone, hgone, hmoved, hrest⟩
        obtain rfl := Option.some.inj hgone
        exact ⟨hmoved, hrest⟩

/-- One round of a steady dispatch, `hgo` being what the rounds after it
come to. -/
theorem loopServes_round :
    LoopServes f cbName indexPoint args A (n + 1) i s ↔
      Steady f args after (n + 1) P s.world.1 := by
  have hlen := h.length_passed (by rw [hP]; exact List.cons_ne_nil cb ahead)
  rw [Steady, hP]
  simp only [hlen]
  by_cases hbreak : (f cb args s.world.1).1 = bcircPluginBreak
  · have hrun : ∀ k, callbackLoop (traced f) indexPoint args (k + 1) i s =
        .ok (some bcircPluginFail) (record f cb args s) := by
      intro k
      rw [callbackLoop_answer f args h hP k, hbreak, bind_ok (afterCallback_break i _)]
      rfl
    rw [if_pos hbreak]
    exact iff_of_true (loopServes_break hrun hserved) trivial
  rw [if_neg hbreak]
  by_cases hstop : (f cb args s.world.1).1 = bcircPluginStop
  · rw [if_pos hstop]
    exact loopServes_stop h hserved hP hgo hstop
  rw [if_neg hstop]
  by_cases hfail : (f cb args s.world.1).1 = bcircPluginFail
  · rw [if_pos hfail, loopServes_fail h hserved hP hgo hfail]
    cases P.owned[i]? with
    | none => exact iff_of_false (fun ⟨gone, hgone, _⟩ => nomatch hgone) id
    | some gone =>
        simp only [Option.some.injEq, exists_eq_left']
  · rw [if_neg hfail, hgo _ _ (afterCallback_pass hbreak hstop hfail i _) (h.pass f args hP)]
    exact and_iff_right (hserved.pass f args h hP)

end Round

/-- No subscript misses and none is passed over if and only if the dispatch
is steady. -/
theorem loopServes_iff_steady {after : Places φ → W → Prop} {n : Nat}
    (h : InRound cbName indexPoint i P s) (hserved : ServedUpTo cbName i s)
    (hafter : ∀ P' s', callbackLoop (traced f) indexPoint args n i s = .ok none s' →
      InRound cbName indexPoint (i + n) P' s' → (A s' ↔ after P' s'.world.1)) :
    LoopServes f cbName indexPoint args A n i s ↔ Steady f args after n P s.world.1 := by
  induction n generalizing i P s with
  | zero =>
      rw [Steady, ← hafter P s rfl h]
      exact loopServes_zero hserved
  | succ n ih =>
      cases hP : P.ahead with
      | nil =>
          have hstuck := callbackLoop_stuck f args n (h.callbackAt.trans (by rw [hP]; rfl))
          rw [Steady, hP]
          exact iff_of_false (not_loopServes_of_error hstuck) id
      | cons cb ahead =>
          refine loopServes_round h hserved hP fun P' u hact hlink => ?_
          have hround : ∀ k, callbackLoop (traced f) indexPoint args (k + 1) i s =
              callbackLoop (traced f) indexPoint args k (i + 1) u :=
            fun k => (callbackLoop_answer f args h hP k).trans (bind_ok hact)
          refine loopServes_goesOn hround hserved fun hserved' => ?_
          refine ih hlink hserved' fun P'' s' hs' hlink' => ?_
          refine hafter P'' s' ((hround n).trans hs') ?_
          rwa [Nat.add_right_comm, Nat.add_assoc] at hlink'

/-- The places after a round that goes on. -/
theorem InRound.next (f : Answer φ α W) {cb : Callback φ} {ahead : List (Callback φ)}
    {u : Bot φ (W × List (Invocation φ α))} (h : InRound cbName indexPoint i P s)
    (hP : P.ahead = cb :: ahead)
    (hact : afterCallback i (f cb args s.world.1).1 (record f cb args s) = .ok none u) :
    ∃ P', InRound cbName indexPoint (i + 1) P' u := by
  have hlink := h.pass f args hP
  have hlen : P.pass.passed.length = i + 1 := h.length_pass hP
  rcases afterCallback_none hact with rfl | ⟨p, hp, rfl | rfl⟩
  · exact ⟨P.pass, hlink⟩
  · exact ⟨P.pass, hlink.pause p.serial⟩
  · exact ⟨P.pass.remove i p.callbackList, hlink.remove hlen hp⟩

/-- Wherever the loop ends, no callback was invoked twice; and where it
ends for lack of rounds there are places again. -/
theorem InRound.once_of_loop (f : Answer φ α W) (args : List α) (n : Nat)
    (h : InRound cbName indexPoint i P s) :
    ((endState (callbackLoop (traced f) indexPoint args n i s)).world.2.map (·.cb)).Nodup ∧
      ∀ s', callbackLoop (traced f) indexPoint args n i s = .ok none s' →
        ∃ P', InRound cbName indexPoint (i + n) P' s' := by
  induction n generalizing i P s with
  | zero =>
      refine ⟨h.once, fun s' hs' => ?_⟩
      cases hs'
      exact ⟨P, h⟩
  | succ n ih =>
      cases hP : P.ahead with
      | nil =>
          rw [callbackLoop_stuck f args n (h.callbackAt.trans (by rw [hP]; rfl))]
          exact ⟨h.once, fun s' hs' => nomatch hs'⟩
      | cons cb ahead =>
          have hlink := h.pass f args hP
          have hworld := afterCallback_world i (f cb args s.world.1).1 (record f cb args s)
          rw [callbackLoop_answer f args h hP]
          cases hact : afterCallback i (f cb args s.world.1).1 (record f cb args s) with
          | error e u =>
              rw [hact, endState_error] at hworld
              rw [bind_error hact, endState_error, hworld]
              exact ⟨hlink.once, fun s' hs' => nomatch hs'⟩
          | ok o u =>
              rw [hact, endState_ok] at hworld
              rw [bind_ok hact]
              cases o with
              | some r =>
                  refine ⟨?_, fun s' hs' => nomatch hs'⟩
                  show (u.world.2.map (·.cb)).Nodup
                  rw [hworld]
                  exact hlink.once
              | none =>
                  obtain ⟨P', hnext⟩ := h.next f hP hact
                  obtain ⟨honce, hends⟩ := ih hnext
                  refine ⟨honce, fun s' hs' => ?_⟩
                  obtain ⟨P'', hend⟩ := hends s' hs'
                  rw [Nat.add_right_comm, Nat.add_assoc] at hend
                  exact ⟨P'', hend⟩

end Loop

/-! ## The whole call -/

section Body

variable (f : Answer φ α W) (strArg : Str → α) {cbName : Str} {args : List α}
  {s : Bot φ (W × List (Invocation φ α))}

/-- The start of a dispatch. -/
theorem inRound_start {orphans : List (Callback φ)} (hinv : s.reg.Inv orphans) {indexPoint : Nat}
    (hindex : getCbIndex s.reg.indexList cbName = some indexPoint)
    (hunheard : ∀ inv ∈ s.world.2, inv.cb ∉ bucket s.reg.indexList cbName)
    (honce : (s.world.2.map (·.cb)).Nodup) :
    InRound cbName indexPoint 0 (s.reg.places cbName) s where
  inv := ⟨orphans, hinv⟩
  index := hindex
  passed := rfl
  ahead := rfl
  owned := rfl
  images := rfl
  note := rfl
  names := rfl
  unheard := hunheard
  once := honce

theorem served_zero (cbName : Str) (s : Bot φ (W × List (Invocation φ α))) :
    ServedUpTo cbName 0 s := by
  intro cb hcb
  rw [List.take_zero] at hcb
  cases hcb

/-- What `execute_callbacks` with that recursive call must come to: `X` is
what the recursive call has to, besides returning. -/
def BodyServes (nested : List α → Prog (Bot φ (W × List (Invocation φ α))) Int)
    (X : Bot φ (W × List (Invocation φ α)) → Prop) (cbName : Str) (args : List α)
    (s : Bot φ (W × List (Invocation φ α))) : Prop :=
  returned (executeBody (traced f) strArg nested cbName args s) ∧ RoundsServe f cbName args s ∧
    (cbName ≠ callbackCallbacksExecuted → ∀ indexPoint s',
      getCbIndex s.reg.indexList cbName = some indexPoint →
      callbackLoop (traced f) indexPoint args (bucket s.reg.indexList cbName).length 0 s =
        .ok none s' → X s')

variable {f strArg}

theorem bodyServes_unknown {nested : List α → Prog (Bot φ (W × List (Invocation φ α))) Int}
    {X : Bot φ (W × List (Invocation φ α)) → Prop}
    (hindex : getCbIndex s.reg.indexList cbName = none) :
    BodyServes f strArg nested X cbName args s := by
  refine ⟨?_, fun indexPoint hsome => ?_, fun _ indexPoint _ hsome => ?_⟩
  · rw [executeBody_unknown _ _ _ _ hindex]
    rfl
  · rw [hindex] at hsome
    cases hsome
  · rw [hindex] at hsome
    cases hsome

theorem returned_executeBody {nested : List α → Prog (Bot φ (W × List (Invocation φ α))) Int}
    {indexPoint : Nat} (hindex : getCbIndex s.reg.indexList cbName = some indexPoint) :
    returned (executeBody (traced f) strArg nested cbName args s) ↔
      returned (callbackLoop (traced f) indexPoint args (bucket s.reg.indexList cbName).length
          0 s) ∧
        ∀ s', callbackLoop (traced f) indexPoint args (bucket s.reg.indexList cbName).length 0 s =
            .ok none s' →
          cbName ≠ callbackCallbacksExecuted → returned (nested (args ++ [strArg cbName]) s') := by
  rw [executeBody_known _ _ _ _ hindex]
  cases hloop : callbackLoop (traced f) indexPoint args (bucket s.reg.indexList cbName).length 0
      s with
  | error e u =>
      rw [bind_error hloop]
      exact iff_of_false Bool.false_ne_true fun h => Bool.false_ne_true h.1
  | ok o u =>
      rw [bind_ok hloop]
      cases o with
      | some r => exact iff_of_true rfl ⟨rfl, fun s' hs' => nomatch hs'⟩
      | none =>
          simp only [EStateM.Result.ok.injEq, true_and, forall_eq']
          by_cases hname : cbName ≠ callbackCallbacksExecuted
          · simp only [if_pos hname]
            cases hnested : nested (args ++ [strArg cbName]) u with
            | error e v =>
                rw [bind_error hnested]
                exact iff_of_false Bool.false_ne_true fun h => Bool.false_ne_true (h.2 hname)
            | ok c v =>
                rw [bind_ok hnested]
                exact iff_of_true rfl ⟨rfl, fun _ => rfl⟩
          · simp only [if_neg hname]
            exact iff_of_true rfl ⟨rfl, fun h => absurd h hname⟩

/-- The call comes down to its loop. -/
theorem bodyServes_known {nested : List α → Prog (Bot φ (W × List (Invocation φ α))) Int}
    {X : Bot φ (W × List (Invocation φ α)) → Prop} {indexPoint : Nat}
    (hindex : getCbIndex s.reg.indexList cbName = some indexPoint) :
    BodyServes f strArg nested X cbName args s ↔
      LoopServes f cbName indexPoint args
        (fun s' => cbName ≠ callbackCallbacksExecuted →
          returned (nested (args ++ [strArg cbName]) s') ∧ X s')
        (bucket s.reg.indexList cbName).length 0 s := by
  have hrounds : RoundsServe f cbName args s ↔
      ∀ k ≤ (bucket s.reg.indexList cbName).length, ∀ s',
        callbackLoop (traced f) indexPoint args k 0 s = .ok none s' →
          ServedUpTo cbName (0 + k) s' := by
    simp only [RoundsServe, hindex, Option.some.injEq, forall_eq', Nat.zero_add]
  unfold BodyServes LoopServes
  rw [returned_executeBody hindex, hrounds]
  constructor
  · rintro ⟨⟨hloop, hnested⟩, hserved, hX⟩
    exact ⟨hloop, hserved, fun s' hs' hname =>
      ⟨hnested s' hs' hname, hX hname indexPoint s' hindex hs'⟩⟩
  · rintro ⟨hloop, hserved, hend⟩
    refine ⟨⟨hloop, fun s' hs' hname => (hend s' hs' hname).1⟩, hserved, ?_⟩
    intro hname indexPoint' s' hindex' hs'
    obtain rfl := Option.some.inj (hindex.symm.trans hindex')
    exact (hend s' hs' hname).2

/-- The notification, which calls nothing further. -/
theorem bodyServes_note {indexPoint i : Nat} {P : Places φ} (h : InRound cbName indexPoint i P s)
    (hunheard : ∀ inv ∈ s.world.2, inv.cb ∉ bucket s.reg.indexList callbackCallbacksExecuted) :
    BodyServes f strArg (fun _ => pure bcircPluginOk) (fun _ => True) callbackCallbacksExecuted
        args s ↔
      Steady f args (fun _ _ => True) P.note.length P.notify s.world.1 := by
  obtain ⟨orphans, hinv⟩ := h.inv
  cases hindex : getCbIndex s.reg.indexList callbackCallbacksExecuted with
  | none =>
      have hlen : P.note.length = 0 := by
        rw [h.note, bucket_of_getCbIndex_none hindex]
        rfl
      rw [hlen]
      exact iff_of_true (bodyServes_unknown hindex) trivial
  | some notePoint =>
      have hplaces : P.notify = s.reg.places callbackCallbacksExecuted := by
        unfold Places.notify Registry.places
        rw [h.owned, h.images, h.note, h.names]
      rw [bodyServes_known hindex, h.note, hplaces]
      refine loopServes_iff_steady (inRound_start hinv hindex hunheard h.once) (served_zero _ _) ?_
      intro P' s' _ _
      exact iff_of_true (fun hname => absurd rfl hname) trivial

/-- No callback is invoked twice as long as none is after the loop. -/
theorem executeBody_once {nested : List α → Prog (Bot φ (W × List (Invocation φ α))) Int}
    {orphans : List (Callback φ)} (hinv : s.reg.Inv orphans)
    (hunheard : ∀ inv ∈ s.world.2, inv.cb ∉ bucket s.reg.indexList cbName)
    (honce : (s.world.2.map (·.cb)).Nodup)
    (hnested : ∀ indexPoint s', getCbIndex s.reg.indexList cbName = some indexPoint →
      callbackLoop (traced f) indexPoint args (bucket s.reg.indexList cbName).length 0 s =
        .ok none s' →
      (∃ i P', InRound cbName indexPoint i P' s') → cbName ≠ callbackCallbacksExecuted →
      ((endState (nested (args ++ [strArg cbName]) s')).world.2.map (·.cb)).Nodup) :
    ((endState (executeBody (traced f) strArg nested cbName args s)).world.2.map
      (·.cb)).Nodup := by
  cases hindex : getCbIndex s.reg.indexList cbName with
  | none =>
      rw [executeBody_unknown _ _ _ _ hindex]
      exact honce
  | some indexPoint =>
      have hlink := inRound_start hinv hindex hunheard honce
      have hloop := (hlink.once_of_loop f args (bucket s.reg.indexList cbName).length).1
      have hends := (hlink.once_of_loop f args (bucket s.reg.indexList cbName).length).2
      rw [executeBody_known _ _ _ _ hindex]
      cases hrun : callbackLoop (traced f) indexPoint args (bucket s.reg.indexList cbName).length 0
          s with
      | error e u =>
          rw [hrun] at hloop
          rw [bind_error hrun]
          exact hloop
      | ok o u =>
          rw [hrun] at hloop
          rw [bind_ok hrun]
          cases o with
          | some r => exact hloop
          | none =>
              by_cases hname : cbName ≠ callbackCallbacksExecuted
              · simp only [if_pos hname]
                rw [endState_bind_pure]
                obtain ⟨P', hlink⟩ := hends u hrun
                exact hnested indexPoint u hindex hrun ⟨_, P', hlink⟩ hname
              · simp only [if_neg hname]
                exact hloop

end Body

/-! ## Every dispatch -/

section Dispatch

variable {reg : Registry φ} (leaked : List Nat) (f : Answer φ α W) (strArg : Str → α)
  (cbName : CbName) (args : List α) (w : W)

/-- The event's own loop invokes none of the notification's callbacks. -/
theorem unheard_note (cbName : Str) (hreg : Reachable reg)
    (hname : cbName ≠ callbackCallbacksExecuted) {indexPoint : Nat}
    (hindex : getCbIndex reg.indexList cbName = some indexPoint)
    {s' : Bot φ (W × List (Invocation φ α))}
    (hrun : callbackLoop (traced f) indexPoint args (bucket reg.indexList cbName).length 0
      ⟨reg, (w, [])⟩ = .ok none s') {orphans : List (Callback φ)} (hinv : s'.reg.Inv orphans) :
    ∀ inv ∈ s'.world.2, inv.cb ∉ bucket s'.reg.indexList callbackCallbacksExecuted := by
  intro inv hinv' hnote
  obtain ⟨k, hk⟩ := List.mem_iff_getElem?.mp hinv'
  have hstart : Round indexPoint (bucket reg.indexList cbName).length reg 0 reg := .start
  obtain ⟨regₖ, hround, hcb⟩ := round_of_mem_log f args (bucket reg.indexList cbName).length 0
    (Nat.zero_add _) ⟨reg, (w, [])⟩ hstart k inv (by rw [hrun]; exact hk)
  obtain ⟨orphansₖ, hinvₖ⟩ := Reachable.inv (hreg.trans hround.later)
  have hindexₖ := (hround.getCbIndex cbName).trans hindex
  have hown := (hinvₖ.index.mem_bucket.mp (bucket_of_callbackAt hindexₖ hcb)).2
  exact hname (hown.symm.trans (hinv.index.mem_bucket.mp hnote).2)

/-- No callback is invoked twice, in whatever way the call ends. -/
theorem executeCallbacksMapped_once (hreg : Reachable reg) :
    ((endState (executeCallbacksMapped leaked (traced f) strArg cbName args
      ⟨reg, (w, [])⟩)).world.2.map (·.cb)).Nodup := by
  obtain ⟨orphans, hinv⟩ := hreg.inv
  by_cases hown : NamesMapped (reg.mapped leaked) reg.names cbName.str
  · rw [executeCallbacksMapped, executeBodyMapped_of_mapped hown]
    refine executeBody_once (s := ⟨reg, (w, [])⟩) hinv (fun _ h => absurd h List.not_mem_nil)
      List.nodup_nil ?_
    rintro indexPoint s' hindex hrun ⟨i, P', hlink⟩ hname
    obtain ⟨orphans', hinv'⟩ := hlink.inv
    by_cases hnote : NoteMapped (s'.reg.mapped leaked) s'.reg.names cbName.image
    · rw [notifyMapped_of_mapped hnote]
      refine executeBody_once hinv' (unheard_note f args w cbName.str hreg hname hindex hrun hinv')
        hlink.once ?_
      intro _ _ _ _ _ hself
      exact absurd rfl hself
    · rw [notifyMapped_of_not_mapped hnote]
      exact hlink.once
  · rw [executeCallbacksMapped, executeBodyMapped_of_not_mapped hown]
    exact List.nodup_nil

/-- The call comes down to its body, once the first lookup goes through. -/
theorem dispatchInRange_iff_body (hreg : Reachable reg)
    (hown : NamesMapped (reg.mapped leaked) reg.names cbName.str) :
    DispatchInRange leaked f strArg cbName args ⟨reg, (w, [])⟩ ↔
      BodyServes f strArg (notifyMapped leaked (traced f) strArg cbName.image)
        (RoundsServe f callbackCallbacksExecuted (args ++ [strArg cbName.str])) cbName.str args
        ⟨reg, (w, [])⟩ := by
  have hcall : executeCallbacksMapped leaked (traced f) strArg cbName args ⟨reg, (w, [])⟩ =
      executeBody (traced f) strArg (notifyMapped leaked (traced f) strArg cbName.image) cbName.str
        args ⟨reg, (w, [])⟩ := executeBodyMapped_of_mapped hown
  constructor
  · intro h
    have hreturned := h.inRange
    rw [hcall] at hreturned
    exact ⟨hreturned, h.served, h.notified⟩
  · rintro ⟨hreturned, hserved, hnotified⟩
    refine ⟨?_, executeCallbacksMapped_once leaked f strArg cbName args w hreg, hserved, hnotified⟩
    rw [hcall]
    exact hreturned

/-- What the notification must come to, from the places that the rounds of
the event have left. -/
theorem notification_iff (hreg : Reachable reg) (hname : cbName.str ≠ callbackCallbacksExecuted)
    {indexPoint i : Nat} {P : Places φ}
    (hindex : getCbIndex reg.indexList cbName.str = some indexPoint)
    {s' : Bot φ (W × List (Invocation φ α))}
    (hrun : callbackLoop (traced f) indexPoint args (bucket reg.indexList cbName.str).length 0
      ⟨reg, (w, [])⟩ = .ok none s') (h : InRound cbName.str indexPoint i P s') :
    returned (notifyMapped leaked (traced f) strArg cbName.image (args ++ [strArg cbName.str]) s') ∧
        RoundsServe f callbackCallbacksExecuted (args ++ [strArg cbName.str]) s' ↔
      NoteMapped (P.mapped leaked) P.names cbName.image ∧
        Steady f (args ++ [strArg cbName.str]) (fun _ _ => True) P.note.length P.notify
          s'.world.1 := by
  obtain ⟨orphans, hinv⟩ := h.inv
  have hmapped : s'.reg.mapped leaked = P.mapped leaked := by
    unfold Registry.mapped Places.mapped
    rw [h.images]
  have hnote : BodyServes f strArg (fun _ => pure bcircPluginOk) (fun _ => True)
      callbackCallbacksExecuted (args ++ [strArg cbName.str]) s' ↔
      Steady f (args ++ [strArg cbName.str]) (fun _ _ => True) P.note.length P.notify
        s'.world.1 :=
    bodyServes_note h (unheard_note f args w cbName.str hreg hname hindex hrun hinv)
  rw [returned_notifyMapped, hmapped, ← h.names, ← hnote, and_assoc]
  refine and_congr_right fun _ => ⟨fun hserves => ?_, fun hserves => ⟨hserves.1, hserves.2.1⟩⟩
  exact ⟨hserves.1, hserves.2, fun hself => absurd rfl hself⟩

/-- From every registry, for every event and all answers, whatever images
are left open. -/
theorem dispatchInRange_iff (hreg : Reachable reg) :
    DispatchInRange leaked f strArg cbName args ⟨reg, (w, [])⟩ ↔
      SteadyDispatch leaked f strArg cbName args reg w := by
  unfold SteadyDispatch
  by_cases hown : NamesMapped (reg.mapped leaked) reg.names cbName.str
  · rw [dispatchInRange_iff_body leaked f strArg cbName args w hreg hown, and_iff_right hown]
    cases hindex : getCbIndex reg.indexList cbName.str with
    | none => exact iff_of_true (bodyServes_unknown hindex) fun h => absurd rfl h
    | some indexPoint =>
        obtain ⟨orphans, hinv⟩ := hreg.inv
        have hlink : InRound cbName.str indexPoint 0 (reg.places cbName.str)
            (⟨reg, (w, [])⟩ : Bot φ (W × List (Invocation φ α))) :=
          inRound_start (s := ⟨reg, (w, [])⟩) hinv hindex (fun _ h => absurd h List.not_mem_nil)
            List.nodup_nil
        rw [bodyServes_known hindex,
          imp_iff_right (show some indexPoint ≠ none from Option.some_ne_none indexPoint)]
        refine loopServes_iff_steady hlink (served_zero _ _) fun P' s' hrun hend => ?_
        exact imp_congr_right fun hname =>
          notification_iff leaked f strArg cbName args w hreg hname hindex hrun hend
  · refine iff_of_false (fun h => ?_) fun h => hown h.1
    have hreturned := h.inRange
    rw [executeCallbacksMapped, executeBodyMapped_of_not_mapped hown] at hreturned
    cases hreturned

end Dispatch

/-- The callback with that number answers FAIL, the others OK. -/
def failing (n : Nat) : Answer Nat Str Unit := fun cb _ w =>
  (if cb.cbFunc = n then bcircPluginFail else bcircPluginOk, w)

/-- The plugin that is loaded last owns no name of the index. -/
def sampleLast : Registry Nat :=
  (loadPlugin (ascii "c.so") (some (sampleObject 3 [⟨some callbackServerRecv, some 10, 5⟩]
      bcircPluginOk))
    (loadPlugin (ascii "b.so") (some sampleSecond) initIndex).2).2

theorem sampleLast_managed : Managed sampleLast :=
  .load _ _ (.load _ _ .init (by decide +kernel)) (by decide +kernel)

/-- Of two callbacks the second fails, which stands where its plugin does:
the plugin goes, and the notification reaches the other one. -/
theorem dispatchInRange_iff_last :
    DispatchInRange [0] (failing 10) id ⟨0, callbackServerRecv⟩ [] ⟨sampleLast, ((), [])⟩ := by
  refine (dispatchInRange_iff [0] (failing 10) id ⟨0, callbackServerRecv⟩ [] ()
    sampleLast_managed.reachable).mpr ⟨by decide +kernel, fun _ => ?_⟩
  have hlen : (bucket sampleLast.indexList callbackServerRecv).length = 2 := by decide +kernel
  have hplaces : sampleLast.places callbackServerRecv =
      { passed := []
        ahead := [⟨1, ⟨2, callbackServerRecv⟩, 20, 3⟩, ⟨4, ⟨3, callbackServerRecv⟩, 10, 5⟩]
        owned :=
          [[⟨1, ⟨2, callbackServerRecv⟩, 20, 3⟩, ⟨2, ⟨2, callbackCallbacksExecuted⟩, 21, 0⟩],
            [⟨4, ⟨3, callbackServerRecv⟩, 10, 5⟩]]
        images := [2, 3]
        note := [⟨2, ⟨2, callbackCallbacksExecuted⟩, 21, 0⟩]
        names := [⟨2, callbackServerRecv⟩, ⟨2, callbackCallbacksExecuted⟩] } := by decide +kernel
  rw [hlen, hplaces]
  refine ⟨fun c hc => ?_, fun _ => ⟨⟨?_, ?_⟩, ?_⟩⟩
  · cases hc
  · decide +kernel
  · decide +kernel
  · exact trivial

/-- The first of three fails, and takes the other two with it: the second
round reads behind the bucket. -/
theorem not_dispatchInRange :
    ¬ DispatchInRange [0] (failing 20) id ⟨0, callbackServerRecv⟩ []
      ⟨sampleRegistry, ((), [])⟩ := by
  intro h
  have hmissed : returned (executeCallbacksMapped [0] (traced (failing 20)) id
      ⟨0, callbackServerRecv⟩ [] ⟨sampleRegistry, ((), [])⟩) = false := by decide +kernel
  exact absurd h.inRange (by rw [hmissed]; exact Bool.false_ne_true)

end Bcirc
