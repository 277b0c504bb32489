import Bcirc.Title

/-!
# The URL filter over a run (`plugins/src/title/urls.c`)

`UrlFilter` is what the filter is for: the lines `urls.txt` began with and
the URLs added to them. `urls.txt` and `check_url` agree with it along a
run (`FilterKept`) exactly as long as every URL looked up, by a check or by
`!addurl`, meets an empty list or an entry (`Served`): a list that was read
answers `true` to everything.
-/

namespace Bcirc

open CProg CStr

/-- What `urls.txt` held at first, and what was added since. -/
structure UrlFilter where
  content : Str
  added : List Str
  deriving DecidableEq, Repr

namespace UrlFilter

def entries (f : UrlFilter) : List Str := tokens isNewline f.content ++ f.added

def file (f : UrlFilter) : Str := f.content ++ f.added.flatMap (· ++ ascii "\n")

/-- An entry occurs in `url`. -/
def matched (f : UrlFilter) (url : Str) : Bool :=
  f.entries.any fun entry => url.tails.any fun rest => entry.isPrefixOf rest

def add (f : UrlFilter) (x : Str) : UrlFilter :=
  if f.matched x then f else { f with added := f.added ++ [x] }

end UrlFilter

/-- A call of `check_url`, or a message `!addurl x`. -/
inductive UrlEvent where
  | check (url : Str)
  | addurl (srv : Nat) (nick mask target x : Str)
  deriving DecidableEq, Repr

def addurlParams (srv : Nat) (nick mask target x : Str) : List Arg :=
  [.server srv, .str nick, .str mask, .str target, .str (ascii "!addurl " ++ x)]

/-- The message is at most 255 bytes long. -/
def UrlEvent.Short : UrlEvent → Prop
  | .check _ => True
  | .addurl _ _ _ _ x => (ascii "!addurl " ++ x).length ≤ 255

def UrlFilter.next (f : UrlFilter) : UrlEvent → UrlFilter
  | .check _ => f
  | .addurl _ _ _ _ x => f.add x

/-- The event takes `w` to `w'`, a check with the answer of the filter. -/
def UrlFilter.Answers (f : UrlFilter) (w w' : World) : UrlEvent → Prop
  | .check url => checkUrl url w = .ok (f.matched url) w'
  | .addurl srv nick mask target x =>
      ∃ r, addUrl (addurlParams srv nick mask target x) w = .ok r w'

/-- All along the run, `urls.txt` is the filter's and the checks answer as
the filter does. -/
def FilterKept : UrlFilter → World → List UrlEvent → Prop
  | f, w, [] => w.urlsFile = some f.file
  | f, w, e :: events =>
      w.urlsFile = some f.file ∧ ∃ w', f.Answers w w' e ∧ FilterKept (f.next e) w' events

/-- The URL looked up is matched, or there is nothing to match it with (and
`urls.txt` can be appended to). -/
def UrlFilter.Serves (f : UrlFilter) (writable : Bool) : UrlEvent → Prop
  | .check url => f.file = [] ∨ f.matched url
  | .addurl _ _ _ _ x => f.file = [] ∧ writable ∨ f.matched x

def Served (writable : Bool) : UrlFilter → List UrlEvent → Prop
  | _, [] => True
  | f, e :: events => f.Serves writable e ∧ Served writable (f.next e) events

/-! ## The list held in memory -/

/-- `urls` holds what is in the file; nothing, if that is nothing. -/
structure Holds (w : World) (f : UrlFilter) : Prop where
  file : w.urlsFile = some f.file
  urls : w.urls = if f.file = [] then none else some f.file

namespace UrlFilter

theorem eq_nil_of_file_eq_nil {f : UrlFilter} (h : f.file = []) :
    f.content = [] ∧ f.added = [] := by
  obtain ⟨hcontent, hadded⟩ := List.append_eq_nil_iff.mp h
  refine ⟨hcontent, ?_⟩
  cases hx : f.added with
  | nil => rfl
  | cons x added =>
      rw [hx, List.flatMap_cons] at hadded
      have hline := (List.append_eq_nil_iff.mp (List.append_eq_nil_iff.mp hadded).1).2
      exact absurd hline (by decide)

theorem not_matched_of_file_eq_nil {f : UrlFilter} (h : f.file = []) (url : Str) :
    f.matched url = false := by
  obtain ⟨hcontent, hadded⟩ := eq_nil_of_file_eq_nil h
  simp [matched, entries, hcontent, hadded]

theorem file_add_of_not_matched {f : UrlFilter} {x : Str} (h : f.matched x = false) :
    (f.add x).file = f.file ++ (x ++ ascii "\n") := by
  simp [add, h, file]

theorem add_of_matched {f : UrlFilter} {x : Str} (h : f.matched x = true) : f.add x = f :=
  if_pos h

end UrlFilter

theorem strstr_append_self (needle s : Str) : strstr (needle ++ s) needle = some 0 := by
  cases needle with
  | nil => cases s <;> simp [strstr]
  | cons c needle => simp [strstr]

theorem checkUrl_eq (str : Str) (w : World) : checkUrl str w = .ok w.urls.isSome w := by
  unfold checkUrl
  rw [get_bind_run]
  cases w.urls with
  | none => rfl
  | some urls =>
      show (if (tokens isNewline urls).any fun token => (strstr str token).isSome then
        (pure true : Prog World Bool) else pure true) w = _
      rw [ite_self]
      rfl

theorem Holds.checkUrl {w : World} {f : UrlFilter} (h : Holds w f) (str : Str) :
    checkUrl str w = .ok (decide (f.file ≠ [])) w := by
  rw [checkUrl_eq, h.urls]
  by_cases hnil : f.file = []
  · rw [if_pos hnil]
    simp [hnil]
  · rw [if_neg hnil]
    simp [hnil]

theorem getUrls_holds {w : World} {f : UrlFilter} (hurls : w.urls = none)
    (hfile : w.urlsFile = some f.file) :
    ∃ w', getUrls w = .ok true w' ∧ Holds w' f ∧ w'.urlsWritable = w.urlsWritable := by
  unfold getUrls
  rw [get_bind_run, hfile]
  by_cases hnil : f.file = []
  · refine ⟨w, ?_, ⟨hfile, by rw [hurls, if_pos hnil]⟩, rfl⟩
    simp [hnil]
  · have hread : w.urls.getD [] ++ f.file = f.file := by
      rw [hurls]
      rfl
    refine ⟨{ w with urls := some f.file }, ?_, ⟨hfile, (if_neg hnil).symm⟩, rfl⟩
    show (if f.file ≠ [] then _ else _ : Prog World Bool) w = _
    rw [if_pos hnil, modify_bind_run, hread]
    rfl

theorem addUrl_eq {x : Str} (hshort : (ascii "!addurl " ++ x).length ≤ 255) (srv : Nat)
    (nick mask target : Str) (w : World) :
    addUrl (addurlParams srv nick mask target x) w =
      (if w.urls.isSome then pure bcircPluginContinue
      else if w.urlsWritable then do
        modify fun w =>
          { w with urlsFile := some (w.urlsFile.getD [] ++ x ++ ascii "\n"), urls := none }
        let _ ← getUrls
        pure bcircPluginOk
      else throw .nullPointer : Prog World Int) w := by
  have hrun : addUrl (addurlParams srv nick mask target x) w =
      (if strstr (ascii "!addurl " ++ x) (ascii "!addurl ") ≠ some 0 then
        pure bcircPluginContinue
      else if 255 < (ascii "!addurl " ++ x).length then pure bcircPluginContinue
      else do
        if ← Bcirc.checkUrl ((ascii "!addurl " ++ x).drop 8) then return bcircPluginContinue
        let w ← get
        if !w.urlsWritable then throw .nullPointer
        modify fun w => { w with
          urlsFile := some (w.urlsFile.getD [] ++ (ascii "!addurl " ++ x).drop 8 ++ ascii "\n")
          urls := none }
        let _ ← getUrls
        pure bcircPluginOk : Prog World Int) w := rfl
  rw [hrun, if_neg (by simp [strstr_append_self]), if_neg (by omega), bind_ok (checkUrl_eq _ w)]
  cases w.urls with
  | some urls => rfl
  | none =>
      show ((do
        if !w.urlsWritable then throw .nullPointer
        _ : Prog World Int) w) = _
      cases w.urlsWritable <;> rfl

/-! ## A run -/

theorem Holds.check_iff {w : World} {f : UrlFilter} (h : Holds w f) (url : Str) (w' : World) :
    f.Answers w w' (.check url) ↔ w' = w ∧ f.Serves w.urlsWritable (.check url) := by
  have hrun : Bcirc.checkUrl url w = .ok (decide (f.file ≠ [])) w := h.checkUrl url
  show Bcirc.checkUrl url w = .ok (f.matched url) w' ↔ w' = w ∧ (f.file = [] ∨ f.matched url)
  rw [hrun]
  by_cases hnil : f.file = []
  · simp [hnil, UrlFilter.not_matched_of_file_eq_nil hnil, eq_comm]
  · cases hm : f.matched url <;> simp [hnil, eq_comm]

theorem Holds.addurl_served {w : World} {f : UrlFilter} (h : Holds w f) {x : Str}
    (hshort : (ascii "!addurl " ++ x).length ≤ 255) (srv : Nat) (nick mask target : Str)
    (hserves : f.Serves w.urlsWritable (.addurl srv nick mask target x)) :
    ∃ r w', addUrl (addurlParams srv nick mask target x) w = .ok r w' ∧ Holds w' (f.add x) ∧
      w'.urlsWritable = w.urlsWritable := by
  rw [addUrl_eq hshort, h.urls]
  by_cases hnil : f.file = []
  · have hnot := UrlFilter.not_matched_of_file_eq_nil hnil x
    have hwritable : w.urlsWritable = true := by
      rcases hserves with ⟨-, hw⟩ | hm
      · exact hw
      · rw [hnot] at hm
        cases hm
    obtain ⟨w', hget, hholds, hsame⟩ := getUrls_holds (f := f.add x)
      (w := { w with urlsFile := some (w.urlsFile.getD [] ++ x ++ ascii "\n"), urls := none })
      rfl (by rw [h.file, UrlFilter.file_add_of_not_matched hnot, ← List.append_assoc]; rfl)
    refine ⟨bcircPluginOk, w', ?_, hholds, hsame⟩
    rw [if_pos hnil, if_neg (by simp), if_pos hwritable, modify_bind_run, bind_ok hget]
    rfl
  · have hm : f.matched x = true := hserves.resolve_left fun hfile => hnil hfile.1
    refine ⟨bcircPluginContinue, w, ?_, ?_, rfl⟩
    · rw [if_neg hnil]
      rfl
    · rw [UrlFilter.add_of_matched hm]
      exact h

/-- An `!addurl` that is not served fails, or is lost. -/
theorem Holds.addurl_unserved {w w' : World} {f : UrlFilter} (h : Holds w f) {x : Str}
    (hshort : (ascii "!addurl " ++ x).length ≤ 255) {srv : Nat} {nick mask target : Str}
    (hserves : ¬ f.Serves w.urlsWritable (.addurl srv nick mask target x)) {r : Int}
    (hrun : addUrl (addurlParams srv nick mask target x) w = .ok r w') :
    w'.urlsFile ≠ some (f.add x).file := by
  obtain ⟨hempty, hm⟩ := not_or.mp hserves
  rw [Bool.not_eq_true] at hm
  rw [addUrl_eq hshort, h.urls] at hrun
  by_cases hnil : f.file = []
  · have hw : ¬ w.urlsWritable = true := fun hw => hempty ⟨hnil, hw⟩
    rw [if_pos hnil, if_neg (by simp), if_neg hw] at hrun
    cases hrun
  · rw [if_neg hnil] at hrun
    obtain rfl : w = w' := (EStateM.Result.ok.inj hrun).2
    rw [h.file, UrlFilter.file_add_of_not_matched hm]
    simp [ascii]

theorem Holds.kept_iff_served {events : List UrlEvent} (hshort : ∀ e ∈ events, e.Short)
    {w : World} {f : UrlFilter} (h : Holds w f) :
    FilterKept f w events ↔ Served w.urlsWritable f events := by
  induction events generalizing w f with
  | nil => exact ⟨fun _ => trivial, fun _ => h.file⟩
  | cons e events ih =>
      have ih' := fun w f =>
        ih (fun e' he' => hshort e' (List.mem_cons_of_mem e he')) (w := w) (f := f)
      have he := hshort e List.mem_cons_self
      cases e with
      | check url =>
          constructor
          · rintro ⟨-, w', hanswer, hrest⟩
            obtain ⟨rfl, hserves⟩ := (h.check_iff url w').mp hanswer
            exact ⟨hserves, (ih' _ _ h).mp hrest⟩
          · rintro ⟨hserves, hrest⟩
            exact ⟨h.file, w, (h.check_iff url w).mpr ⟨rfl, hserves⟩, (ih' _ _ h).mpr hrest⟩
      | addurl srv nick mask target x =>
          by_cases hserves : f.Serves w.urlsWritable (.addurl srv nick mask target x)
          · obtain ⟨r, w', hrun, hholds, hsame⟩ := h.addurl_served he srv nick mask target hserves
            constructor
            · rintro ⟨-, w₁, ⟨r₁, hrun₁⟩, hrest⟩
              obtain ⟨-, rfl⟩ := EStateM.Result.ok.inj (hrun.symm.trans hrun₁)
              rw [← hsame]
              exact ⟨hsame ▸ hserves, (ih' _ _ hholds).mp hrest⟩
            · rintro ⟨-, hrest⟩
              rw [← hsame] at hrest
              exact ⟨h.file, w', ⟨r, hrun⟩, (ih' _ _ hholds).mpr hrest⟩
          · constructor
            · rintro ⟨-, w', ⟨r, hrun⟩, hrest⟩
              refine absurd ?_ (h.addurl_unserved he hserves hrun)
              cases events with
              | nil => exact hrest
              | cons => exact hrest.1
            · intro hserved
              exact absurd hserved.1 hserves

/-- `urls.txt` and the answers of `check_url` are the filter's all along a
run that begins with the loading of the plugin, if and only if every URL is
served in it. -/
theorem filterKept_iff {events : List UrlEvent} (hshort : ∀ e ∈ events, e.Short) {w : World}
    {content : Str} (hurls : w.urls = none) (hfile : w.urlsFile = some content) :
    FilterKept ⟨content, []⟩ (endState (getUrls w)) events ↔
      Served w.urlsWritable ⟨content, []⟩ events := by
  have hfirst : w.urlsFile = some (UrlFilter.file ⟨content, []⟩) := by
    rw [hfile]
    simp [UrlFilter.file]
  obtain ⟨w', hget, hholds, hsame⟩ := getUrls_holds hurls hfirst
  rw [hget, ← hsame]
  exact hholds.kept_iff_served hshort

/-- An empty `urls.txt`, a first URL and a link it occurs in. -/
theorem filterKept_iff_sample :
    FilterKept ⟨[], []⟩
      (endState (getUrls
        { sampleWorld with urls := none, urlsFile := some [], urlsWritable := true }))
      [.addurl 0 (ascii "ann") (ascii "a@h") (ascii "#c") (ascii "b.org"),
        .check (ascii "http://b.org/x")] := by
  refine (filterKept_iff ?_ rfl rfl).mpr ?_
  · rw [List.forall_mem_cons, List.forall_mem_singleton]
    exact ⟨by simp [UrlEvent.Short, ascii], trivial⟩
  · exact ⟨Or.inl ⟨rfl, rfl⟩, Or.inr (by decide +kernel), trivial⟩

/-- `a.org` is all the file has, and `check_url("b.org")` is true. -/
theorem filterKept_unserved :
    ¬ ∀ content events (w : World), (∀ e ∈ events, e.Short) → w.urls = none →
      w.urlsFile = some content → w.urlsWritable = true →
        FilterKept ⟨content, []⟩ (endState (getUrls w)) events := by
  intro h
  have hrun := h (ascii "a.org\n") [.check (ascii "b.org")]
    { sampleWorld with urls := none, urlsFile := some (ascii "a.org\n"), urlsWritable := true }
    (by rw [List.forall_mem_singleton]; trivial) rfl rfl rfl
  obtain ⟨-, w', hanswer, -⟩ := hrun
  have hanswers : checkUrl (ascii "b.org") (endState (getUrls { sampleWorld with
      urls := none, urlsFile := some (ascii "a.org\n"), urlsWritable := true })) =
      .ok (UrlFilter.matched ⟨ascii "a.org\n", []⟩ (ascii "b.org")) w' := hanswer
  rw [checkUrl_eq] at hanswers
  exact absurd (EStateM.Result.ok.inj hanswers).1 (by decide +kernel)

end Bcirc
