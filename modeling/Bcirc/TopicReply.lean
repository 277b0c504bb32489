import Bcirc.ChannelRecords
import Bcirc.TrailingForm

/-!
# The topic of a channel

`get_channel_title` copies as many bytes from behind the colon of
`RPL_TOPIC` as there are before it, and no terminator of its own: the topic
is a string, and the right one, when it is just as long as what precedes
it.
-/

namespace Bcirc

open CProg CStr KeyedList

/-! ## The line -/

/-- What stands between the first colon and the channel. -/
def topicHead (server nick : Str) : Str := server ++ 32 :: (ascii "332" ++ 32 :: (nick ++ [32]))

/-- `:server 332 nick #c :topic`. -/
def topicLine (server nick c topic : Str) : Str :=
  58 :: (topicHead server nick ++ 35 :: c ++ 32 :: 58 :: topic)

/-- The first name in the line that starts with a `#`, without that. -/
def firstName (head c : Str) : Str :=
  match head.dropWhile (· ≠ 35) with
  | [] => c
  | _ :: rest => rest.takeWhile (!isSpace ·)

/-- The topic is there, as a string. -/
def Channel.HasTopic (record : Channel) (topic : Str) : Prop :=
  ∃ bytes, record.topic = some bytes ∧ 0 ∈ bytes ∧ untilNul bytes = topic

/-- The line is handled without a byte from outside of it, and the channel
has the topic. -/
def TopicStored (w : World) (srv : Nat) (server nick c topic : Str) : Prop :=
  ∃ w' record, getChannelInfo [.server srv, .int rplTopic, .str (topicLine server nick c topic)] w =
      .ok bcircPluginOk w' ∧
    w'.channel (35 :: c) srv = some record ∧ record.HasTopic topic

/-- The channel had the topic before. -/
def World.HadTopic (w : World) (srv : Nat) (c topic : Str) : Prop :=
  ∃ record, w.channel (35 :: c) srv = some record ∧ record.HasTopic topic

/-- The channel is the first name, there is no colon before the topic's, and
as many bytes before that as behind it. Or else another channel is the
first name, and this one has the topic already. -/
def TopicFits (w : World) (srv : Nat) (server nick c topic : Str) : Prop :=
  (firstName (topicHead server nick) c = c ∧ 58 ∉ topicHead server nick ++ c ∧
      topic.length = (topicHead server nick ++ 35 :: c ++ [32]).length) ∨
    (firstName (topicHead server nick) c ≠ c ∧
      (beforeColon (topicLine server nick c topic).tail).length ≤
        (afterColon (topicLine server nick c topic).tail).length ∧
      w.HadTopic srv c topic)

section Line

variable {server nick c topic : Str}

theorem firstName_of_not_mem {head : Str} (h : 35 ∉ head) (c : Str) : firstName head c = c := by
  have hdrop : head.dropWhile (· ≠ 35) = [] := by
    refine List.dropWhile_eq_nil_iff.mpr fun b hb => ?_
    simpa using fun hb' : b = 35 => h (hb' ▸ hb)
  rw [firstName, hdrop]

theorem firstName_append {a : Str} (ha : 35 ∉ a) (rest c : Str) :
    firstName (a ++ 35 :: rest) c = rest.takeWhile (!isSpace ·) := by
  have hdrop : (a ++ 35 :: rest).dropWhile (· ≠ 35) = 35 :: rest := by
    refine (List.dropWhile_append_of_pos fun b hb => ?_).trans rfl
    simpa using fun hb' : b = 35 => ha (hb' ▸ hb)
  rw [firstName, hdrop]

/-- There is a blank before the channel. -/
theorem blank_of_topicHead {a rest : Str} (h : topicHead server nick = a ++ 35 :: rest) :
    32 ∈ rest := by
  have hlast : (a ++ 35 :: rest).getLast? = some 32 := by
    rw [← h]
    simp [topicHead, List.getLast?_append, List.getLast?_cons]
  rw [List.getLast?_append, List.getLast?_cons, Option.some_or] at hlast
  cases hrest : rest.getLast? with
  | none =>
      rw [hrest] at hlast
      cases hlast
  | some b =>
      rw [hrest] at hlast
      cases hlast
      exact List.mem_of_getLast? hrest

theorem channelName_topicLine (server nick topic : Str) (hc : 32 ∉ c) :
    channelName (topicLine server nick c topic) =
      .ok (35 :: firstName (topicHead server nick) c) := by
  by_cases hmem : 35 ∈ topicHead server nick
  · obtain ⟨a, rest, hhead, ha⟩ := List.eq_append_cons_of_mem hmem
    obtain ⟨word, more, rfl, hword⟩ := List.eq_append_cons_of_mem (blank_of_topicHead hhead)
    have hname : (word ++ 32 :: more).takeWhile (!isSpace ·) = word := by
      rw [List.takeWhile_append_of_pos fun b hb => by simp [isSpace_of_not_mem hword b hb]]
      simp [isSpace]
    have hline : topicLine server nick c topic =
        (58 :: a) ++ 35 :: word ++ 32 :: (more ++ 35 :: c ++ 32 :: 58 :: topic) := by
      simp [topicLine, hhead]
    rw [hhead, firstName_append ha, hname, hline]
    exact channelName_append (by simp [ha]) hword _
  · rw [firstName_of_not_mem hmem]
    exact channelName_append (a := 58 :: topicHead server nick) (by simp [hmem]) hc _

theorem topicLine_tail (server nick c topic : Str) :
    (topicLine server nick c topic).tail =
      (topicHead server nick ++ 35 :: c ++ [32]) ++ 58 :: topic := by
  simp [topicLine]

theorem colon_prefix (head c : Str) : 58 ∈ head ++ 35 :: c ++ [32] ↔ 58 ∈ head ++ c := by
  simp

/-- What is behind the first colon is the topic if that colon is its own. -/
theorem afterColon_topicLine :
    afterColon (topicLine server nick c topic).tail = topic ↔
      58 ∉ topicHead server nick ++ c := by
  rw [topicLine_tail, ← colon_prefix]
  constructor
  · intro h hmem
    obtain ⟨d, hd⟩ := afterColon_early hmem topic
    have hlen := congrArg List.length (hd.symm.trans h)
    rw [List.length_append, List.length_cons] at hlen
    omega
  · exact fun hfree => (colon_append hfree topic).2

theorem beforeColon_topicLine (hfree : 58 ∉ topicHead server nick ++ c) :
    beforeColon (topicLine server nick c topic).tail =
      topicHead server nick ++ 35 :: c ++ [32] := by
  rw [← colon_prefix] at hfree
  rw [topicLine_tail, (colon_append hfree topic).1]

end Line

/-! ## The copy -/

/-- The terminator is copied as the last byte there is. -/
theorem zero_mem_take {s : Str} (hs : 0 ∉ s) (n : Nat) : 0 ∈ (s ++ [0]).take n ↔ s.length < n := by
  constructor
  · intro h
    by_contra hn
    rw [List.take_append_of_le_length (Nat.not_lt.mp hn)] at h
    exact hs (List.mem_of_mem_take h)
  · intro hn
    rw [List.take_of_length_le (by simpa using Nat.succ_le_of_lt hn)]
    simp

theorem untilNul_take {s : Str} (hs : 0 ∉ s) {n : Nat} (hn : s.length < n) :
    untilNul ((s ++ [0]).take n) = s := by
  rw [List.take_of_length_le (by simpa using Nat.succ_le_of_lt hn), untilNul_append hs]
  simp [untilNul]

theorem hasTopic_setTopic (record : Channel) {s : Str} (hs : 0 ∉ s) (n : Nat) (topic : Str) :
    (record.setTopic ((s ++ [0]).take n)).HasTopic topic ↔ s.length < n ∧ s = topic := by
  constructor
  · rintro ⟨bytes, hbytes, hzero, hnul⟩
    have hcopy : some ((s ++ [0]).take n) = some bytes := hbytes
    obtain rfl := Option.some.inj hcopy
    have hn := (zero_mem_take hs n).mp hzero
    rw [untilNul_take hs hn] at hnul
    exact ⟨hn, hnul⟩
  · rintro ⟨hn, rfl⟩
    exact ⟨_, rfl, (zero_mem_take hs n).mpr hn, untilNul_take hs hn⟩

/-! ## When it is the topic -/

section Stored

variable {w : World} {srv : Nat} {server nick c topic : Str}

theorem colon_topicLine (server nick c topic : Str) :
    58 ∈ (topicLine server nick c topic).tail := by
  simp [topicLine]

theorem zero_not_mem_afterColon (hnul : 0 ∉ topicLine server nick c topic) :
    0 ∉ afterColon (topicLine server nick c topic).tail := fun h =>
  hnul (List.mem_of_mem_tail ((List.dropWhile_suffix _).subset (List.mem_of_mem_tail h)))

theorem topicStored_iff_ok {w' : World}
    (hrun : getChannelInfo [.server srv, .int rplTopic, .str (topicLine server nick c topic)] w =
      .ok bcircPluginOk w') :
    TopicStored w srv server nick c topic ↔ w'.HadTopic srv c topic := by
  constructor
  · rintro ⟨w'', record, hok, hrecord⟩
    rw [hrun] at hok
    cases hok
    exact ⟨record, hrecord⟩
  · rintro ⟨record, hrecord⟩
    exact ⟨w', record, hrun, hrecord⟩

theorem not_topicStored_of_fault {e : Fault} {w' : World}
    (hrun : getChannelInfo [.server srv, .int rplTopic, .str (topicLine server nick c topic)] w =
      .error e w') : ¬ TopicStored w srv server nick c topic := by
  rintro ⟨w'', record, hok, -⟩
  rw [hrun] at hok
  cases hok

/-- The record of the channel is the one that is written. -/
theorem topicStored_named (hc : 32 ∉ c) (hnul : 0 ∉ topicLine server nick c topic)
    (hfirst : firstName (topicHead server nick) c = c) (w : World) (srv : Nat) :
    TopicStored w srv server nick c topic ↔ 58 ∉ topicHead server nick ++ c ∧
      topic.length = (topicHead server nick ++ 35 :: c ++ [32]).length := by
  have hname := channelName_topicLine server nick topic hc
  rw [hfirst] at hname
  rw [← afterColon_topicLine]
  rcases getChannelInfo_topic hname (colon_topicLine server nick c topic) srv w with
    ⟨hshort, w', hrun⟩ | ⟨hfits, w', hrun, hchanges⟩
  · refine iff_of_false (not_topicStored_of_fault hrun) ?_
    rintro ⟨hafter, hlen⟩
    rw [hafter, beforeColon_topicLine (afterColon_topicLine.mp hafter)] at hshort
    omega
  · have htopic : w'.HadTopic srv c topic ↔
        (afterColon (topicLine server nick c topic).tail).length <
            (beforeColon (topicLine server nick c topic).tail).length + 1 ∧
          afterColon (topicLine server nick c topic).tail = topic := by
      rw [← hasTopic_setTopic _ (zero_not_mem_afterColon hnul)]
      unfold World.HadTopic
      rw [hchanges.here]
      constructor
      · rintro ⟨record, hrecord, htopic⟩
        obtain rfl := Option.some.inj hrecord
        exact htopic
      · exact fun htopic => ⟨_, rfl, htopic⟩
    rw [topicStored_iff_ok hrun, htopic, and_comm]
    refine and_congr_right fun hafter => ?_
    rw [beforeColon_topicLine (afterColon_topicLine.mp hafter), hafter] at hfits ⊢
    omega

/-- Another one is written, the record of the channel is as before. -/
theorem topicStored_other (hc : 32 ∉ c) (hfirst : firstName (topicHead server nick) c ≠ c)
    (w : World) (srv : Nat) :
    TopicStored w srv server nick c topic ↔
      (beforeColon (topicLine server nick c topic).tail).length ≤
          (afterColon (topicLine server nick c topic).tail).length ∧
        w.HadTopic srv c topic := by
  have hname := channelName_topicLine server nick topic hc
  rcases getChannelInfo_topic hname (colon_topicLine server nick c topic) srv w with
    ⟨hshort, w', hrun⟩ | ⟨hfits, w', hrun, hchanges⟩
  · exact iff_of_false (not_topicStored_of_fault hrun) fun h => hshort h.1
  · have hsame : w'.channel (35 :: c) srv = w.channel (35 :: c) srv := by
      refine hchanges.elsewhere _ _ fun h => hfirst ?_
      simpa using (Prod.mk.inj h).1.symm
    rw [topicStored_iff_ok hrun, World.HadTopic, hsame]
    exact ⟨fun h => ⟨hfits, h⟩, fun h => h.2⟩

/-- A topic is stored as it is when it is one byte shorter than what comes
before its colon. -/
theorem topicStored_iff (hc : 32 ∉ c) (hnul : 0 ∉ topicLine server nick c topic) (w : World)
    (srv : Nat) :
    TopicStored w srv server nick c topic ↔ TopicFits w srv server nick c topic := by
  unfold TopicFits
  by_cases hfirst : firstName (topicHead server nick) c = c
  · rw [topicStored_named hc hnul hfirst]
    simp [hfirst]
  · rw [topicStored_other hc hfirst]
    simp [hfirst]

end Stored

/-- `irc 332 me #c ` has as many bytes as `rules: be nice`. -/
theorem topicStored_iff_sample :
    TopicStored welcomedWorld 0 (ascii "irc") (ascii "me") (ascii "c")
      (ascii "rules: be nice") := by
  refine (topicStored_iff (by decide) (by decide) welcomedWorld 0).mpr (Or.inl ?_)
  decide +kernel

/-- The usual short topic: bytes behind the line are read. -/
theorem not_topicStored :
    ¬ TopicStored welcomedWorld 0 (ascii "irc") (ascii "me") (ascii "c") (ascii "hi") := by
  rw [topicStored_named (by decide) (by decide) (by decide +kernel)]
  rintro ⟨-, hlen⟩
  revert hlen
  decide

end Bcirc
