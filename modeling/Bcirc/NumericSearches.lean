import Bcirc.ChannelRecords
import Bcirc.Events

/-!
# Searches in a numeric (`get_channel_info` in
`plugins/src/channel-handler/channelhandler.c`)

The callback looks for a `#`, for the blank behind it and, in a topic or a
list of names, for a `:`, and uses what it finds without a look at it.
`get_numeric` lets a line through for its second word, so nothing says that
they are there.
-/

namespace Bcirc

open CProg CStr

/-- The numerics that `get_channel_info` is for. -/
def channelNumerics : List Int := [rplTopic, rplTopicwhotime, rplNamreply, rplEndofnames]

/-- `get_channel_info` is all that listens. -/
def infoRaise (_ : Str) (args : List Arg) : Prog World Int := getChannelInfo args

/-- In every state, no search in the line comes back with `NULL`, and the
scan for the blank ends in it. -/
structure SearchesSucceed (line : Str) : Prop where
  found : ∀ srv w w', getNumeric infoRaise [.server srv, .str line] w ≠ .error .nullPointer w'
  inside : channelName line ≠ .error .outOfBounds

/-- A `#`, and a blank somewhere behind it. -/
def NamesChannel (line : Str) : Prop := ∃ a b, line = a ++ 35 :: b ∧ 32 ∈ b

/-! ## The name -/

/-- It is enough to look behind the first `#`. -/
theorem namesChannel_append {a : Str} (ha : 35 ∉ a) (b : Str) :
    NamesChannel (a ++ 35 :: b) ↔ 32 ∈ b := by
  refine ⟨?_, fun hblank => ⟨a, b, rfl, hblank⟩⟩
  rintro ⟨a', b', hsplit, hblank⟩
  rcases List.append_eq_append_iff.mp hsplit with ⟨c, -, hb⟩ | ⟨c, hc, hb⟩
  · cases c with
    | nil =>
        obtain rfl := (List.cons.inj hb).2
        exact hblank
    | cons d c =>
        obtain rfl := (List.cons.inj hb).2
        simp [hblank]
  · cases c with
    | nil =>
        obtain rfl := (List.cons.inj hb).2
        exact hblank
    | cons d c =>
        obtain ⟨rfl, -⟩ := List.cons.inj hb
        exact absurd (by rw [hc]; simp) ha

/-- How the search for the name can end. -/
theorem channelName_cases (line : Str) :
    (35 ∉ line ∧ channelName line = .error .nullPointer) ∨
    (¬ NamesChannel line ∧ channelName line = .error .outOfBounds) ∨
    (NamesChannel line ∧ 35 ∈ line ∧ ∃ name, channelName line = .ok name) := by
  by_cases hhash : 35 ∈ line
  · obtain ⟨a, b, rfl, ha⟩ := List.eq_append_cons_of_mem hhash
    rw [namesChannel_append ha]
    by_cases hblank : 32 ∈ b
    · obtain ⟨c, rest, rfl, hc⟩ := List.eq_append_cons_of_mem hblank
      have hname := channelName_append ha hc rest
      rw [List.append_assoc, List.cons_append] at hname
      exact Or.inr (Or.inr ⟨hblank, hhash, _, hname⟩)
    · refine Or.inr (Or.inl ⟨hblank, ?_⟩)
      unfold channelName
      rw [memchr_append ha]
      simp only [List.drop_left]
      rw [memchr_eq_none.mpr (by simp [hblank])]
  · refine Or.inl ⟨hhash, ?_⟩
    unfold channelName
    rw [memchr_eq_none.mpr hhash]

/-! ## What the callback does -/

section Info

variable {line name : Str} {numeric : Int}

/-- The callback, for one of its numerics. -/
theorem getChannelInfo_reply (hreply : numeric ∈ channelNumerics) (srv : Nat) :
    getChannelInfo [.server srv, .int numeric, .str line] = (do
      let chanName ← liftExcept (channelName line)
      let thisChannel ← getOrCreateChannel chanName srv
      if numeric = rplTopic then getChannelTitle thisChannel line
      else if numeric = rplTopicwhotime then getChannelTitleInfo thisChannel line
      else if numeric = rplNamreply then getChannelUsers thisChannel line
      else pure bcircPluginFail : Prog World Int) := by
  have hfor : ¬ (numeric ≠ rplTopic ∧ numeric ≠ rplEndofnames ∧ numeric ≠ rplTopicwhotime ∧
      numeric ≠ rplNamreply) := by
    simp only [channelNumerics, List.mem_cons, List.not_mem_nil, or_false] at hreply
    tauto
  exact if_neg hfor

/-- Behind the name: the record of the channel, and the answer to the
numeric. -/
theorem getChannelInfo_behind (hreply : numeric ∈ channelNumerics)
    (hname : channelName line = .ok name) (srv : Nat) (w : World) : ∃ chan w₁,
    getChannelInfo [.server srv, .int numeric, .str line] w =
      (if numeric = rplTopic then getChannelTitle chan line
      else if numeric = rplTopicwhotime then getChannelTitleInfo chan line
      else if numeric = rplNamreply then getChannelUsers chan line
      else pure bcircPluginFail : Prog World Int) w₁ := by
  obtain ⟨chan, w₁, hrun, -, -⟩ := getOrCreateChannel_changes name srv w
  refine ⟨chan, w₁, ?_⟩
  rw [getChannelInfo_reply hreply, hname, liftExcept_ok, pure_bind]
  exact bind_ok hrun

theorem getChannelTitle_ne_null {w w' : World} (hcolon : 58 ∈ line.tail) (chan : Nat) :
    getChannelTitle chan line w ≠ .error .nullPointer w' := by
  intro h
  unfold getChannelTitle at h
  rw [(memchr_colon hcolon).1] at h
  simp only [deref, orFault_some, pure_bind_run] at h
  split at h
  · cases h
  · cases h

theorem getChannelUsers_ne_null {w w' : World} (hcolon : 58 ∈ line.tail) (chan : Nat) :
    getChannelUsers chan line w ≠ .error .nullPointer w' := by
  intro h
  unfold getChannelUsers at h
  rw [(memchr_colon hcolon).1] at h
  cases h

/-- The `#` has been found before. -/
theorem getChannelTitleInfo_ne_null {w w' : World} (hhash : 35 ∈ line) (chan : Nat) :
    getChannelTitleInfo chan line w ≠ .error .nullPointer w' := by
  intro h
  obtain ⟨a, b, rfl, ha⟩ := List.eq_append_cons_of_mem hhash
  unfold getChannelTitleInfo at h
  rw [memchr_append ha] at h
  simp only [deref, orFault_some, pure_bind_run] at h
  generalize (tokens isSpace ((a ++ 35 :: b).drop a.length)).drop 1 = words at h
  rcases words with _ | ⟨creator, _ | ⟨created, rest⟩⟩
  · cases h
  · cases h
  · cases h

/-- A colon is looked for in a topic and in a list of names. -/
def ColonSought (numeric : Int) : Prop := numeric = rplTopic ∨ numeric = rplNamreply

theorem getChannelInfo_ne_null (hreply : numeric ∈ channelNumerics) (hhash : 35 ∈ line)
    (hname : channelName line = .ok name) (hcolon : ColonSought numeric → 58 ∈ line.tail)
    (srv : Nat) (w w' : World) :
    getChannelInfo [.server srv, .int numeric, .str line] w ≠ .error .nullPointer w' := by
  obtain ⟨chan, w₁, hrun⟩ := getChannelInfo_behind hreply hname srv w
  rw [hrun]
  by_cases htopic : numeric = rplTopic
  · rw [if_pos htopic]
    exact getChannelTitle_ne_null (hcolon (Or.inl htopic)) chan
  · by_cases hwho : numeric = rplTopicwhotime
    · rw [if_neg htopic, if_pos hwho]
      exact getChannelTitleInfo_ne_null hhash chan
    · by_cases hnames : numeric = rplNamreply
      · rw [if_neg htopic, if_neg hwho, if_pos hnames]
        exact getChannelUsers_ne_null (hcolon (Or.inr hnames)) chan
      · rw [if_neg htopic, if_neg hwho, if_neg hnames]
        intro h
        cases h

/-- Without a colon `NULL` is used. -/
theorem getChannelInfo_null (hname : channelName line = .ok name) (hsought : ColonSought numeric)
    (hcolon : 58 ∉ line.tail) (srv : Nat) (w : World) :
    ∃ w', getChannelInfo [.server srv, .int numeric, .str line] w = .error .nullPointer w' := by
  obtain ⟨chan, w₁, -, -, htitle, husers⟩ := getChannelInfo_named hname srv w
  refine ⟨w₁, ?_⟩
  rcases hsought with rfl | rfl
  · rw [htitle, getChannelTitle, memchr_eq_none.mpr hcolon]
    rfl
  · rw [husers, getChannelUsers, memchr_eq_none.mpr hcolon]
    rfl

theorem getChannelInfo_nameless (hreply : numeric ∈ channelNumerics)
    (hname : channelName line = .error .nullPointer) (srv : Nat) (w : World) :
    getChannelInfo [.server srv, .int numeric, .str line] w = .error .nullPointer w := by
  rw [getChannelInfo_reply hreply, hname]
  rfl

end Info

/-! ## Lines that are safe -/

theorem getNumeric_null_iff {line : Str} {numeric : Int} (hnumeric : numericOf line = some numeric)
    (srv : Nat) (w w' : World) :
    getNumeric infoRaise [.server srv, .str line] w = .error .nullPointer w' ↔
      getChannelInfo [.server srv, .int numeric, .str line] w = .error .nullPointer w' := by
  rw [getNumeric_str, hnumeric]
  constructor
  · intro h
    rcases of_bind_error (m := getChannelInfo [.server srv, .int numeric, .str line]) h with
      hinfo | ⟨code, w₁, -, hrest⟩
    · exact hinfo
    · cases hrest
  · exact fun h => bind_error h

theorem searchesSucceed_iff {line : Str} {numeric : Int} (hnumeric : numericOf line = some numeric)
    (hreply : numeric ∈ channelNumerics) :
    SearchesSucceed line ↔
      NamesChannel line ∧ (ColonSought numeric → 58 ∈ line.tail) := by
  rcases channelName_cases line with ⟨hhash, hname⟩ | ⟨hblank, hname⟩ | ⟨hnames, hhash, name, hname⟩
  · refine iff_of_false (fun h => ?_) (fun h => ?_)
    · refine h.found 0 sampleWorld sampleWorld ?_
      rw [getNumeric_null_iff hnumeric]
      exact getChannelInfo_nameless hreply hname 0 sampleWorld
    · obtain ⟨⟨a, b, rfl, -⟩, -⟩ := h
      exact hhash (by simp)
  · exact iff_of_false (fun h => h.inside hname) (fun h => hblank h.1)
  · constructor
    · refine fun h => ⟨hnames, fun hsought => ?_⟩
      by_contra hcolon
      obtain ⟨w', hrun⟩ := getChannelInfo_null hname hsought hcolon 0 sampleWorld
      exact h.found 0 sampleWorld w' ((getNumeric_null_iff hnumeric 0 sampleWorld w').mpr hrun)
    · rintro ⟨-, hcolon⟩
      refine ⟨fun srv w w' => ?_, by rw [hname]; exact fun h => nomatch h⟩
      rw [ne_eq, getNumeric_null_iff hnumeric]
      exact getChannelInfo_ne_null hreply hhash hname hcolon srv w w'

/-- The topic of `#c`. -/
theorem searchesSucceed_iff_sample :
    SearchesSucceed (ascii ":irc 332 me #c :hi") ↔
      NamesChannel (ascii ":irc 332 me #c :hi") ∧
        (ColonSought rplTopic → 58 ∈ (ascii ":irc 332 me #c :hi").tail) :=
  searchesSucceed_iff (by decide +kernel) (by decide)

/-- A topic for nobody: there is no `#`. -/
theorem not_searchesSucceed :
    ¬ ∀ line numeric, numericOf line = some numeric → numeric ∈ channelNumerics →
      SearchesSucceed line := by
  intro h
  have hline := h (ascii ":irc 332 me") rplTopic (by decide +kernel) (by decide)
  exact hline.found 0 sampleWorld sampleWorld rfl

end Bcirc
