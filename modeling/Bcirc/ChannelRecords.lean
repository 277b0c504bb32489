import Bcirc.ChannelHandler
import Bcirc.ChannelMap

/-!
# The records of the channels

`channel_list` by name and server, as the callbacks for numerics change it:
the record of one channel, found or made for the purpose, and no other.
-/

namespace Bcirc

open CProg CStr KeyedList

/-- The record of a channel, if there is one. -/
def World.channel (w : World) (name : Str) (srv : Nat) : Option Channel :=
  entry channelKey (name, srv) w.channelList

/-- What `create_channel` fills in. -/
def newChannel (name : Str) (srv : Nat) : Channel :=
  ⟨name, none, none, none, 0, none, none, srv⟩

/-- The channel has the record `f` makes of the one it had, or of a new one,
and the other channels have the records they had. -/
structure Changes (w w' : World) (name : Str) (srv : Nat) (f : Channel → Channel) : Prop where
  here : w'.channel name srv = some (f ((w.channel name srv).getD (newChannel name srv)))
  elsewhere : ∀ name' srv', (name', srv') ≠ (name, srv) →
    w'.channel name' srv' = w.channel name' srv'

section Records

variable {w w' : World} {name : Str} {srv chan : Nat} {f : Channel → Channel}

theorem getOrCreateChannel_changes (name : Str) (srv : Nat) (w : World) :
    ∃ chan w', getOrCreateChannel name srv w = .ok chan w' ∧
      lookup channelKey (name, srv) w'.channelList = some chan ∧ Changes w w' name srv id := by
  unfold getOrCreateChannel
  rw [bind_ok (getChannel_run name srv w)]
  cases hfind : lookup channelKey (name, srv) w.channelList with
  | some chan =>
      obtain ⟨record, hrecord, -⟩ := lookup_some hfind
      have hhere : w.channel name srv = some record := (entry_of_lookup hfind).trans hrecord
      refine ⟨chan, w, rfl, hfind, ?_, fun _ _ _ => rfl⟩
      rw [hhere]
      rfl
  | none =>
      have hnone : w.channel name srv = none := by
        rw [World.channel, entry, hfind]
        rfl
      have hkey : channelKey (newChannel name srv) = (name, srv) := rfl
      refine ⟨w.channelList.length,
        { w with channelList := w.channelList ++ [newChannel name srv] }, rfl,
        lookup_concat hkey hfind, ?_, ?_⟩
      · rw [hnone]
        exact entry_concat hkey hfind
      · intro name' srv' hne
        exact entry_concat_of_ne (fun h => hne (h.symm.trans hkey)) w.channelList

theorem setChannel_changes (hf : ∀ c, channelKey (f c) = channelKey c) {w₁ : World}
    (hfound : lookup channelKey (name, srv) w₁.channelList = some chan)
    (hchanges : Changes w w₁ name srv id) :
    Changes w { w₁ with channelList := w₁.channelList.modify chan f } name srv f where
  here := by
    refine (entry_modify hf hfound).trans ?_
    have hhere : entry channelKey (name, srv) w₁.channelList = _ := hchanges.here
    rw [hhere]
    rfl
  elsewhere name' srv' hne :=
    (entry_modify_of_ne hf hfound hne).trans (hchanges.elsewhere name' srv' hne)

/-- The callback that answers a numeric gets the record of the channel the
line names. -/
theorem getChannelInfo_named {buffer : Str} (hname : channelName buffer = .ok name) (srv : Nat)
    (w : World) : ∃ chan w₁, lookup channelKey (name, srv) w₁.channelList = some chan ∧
      Changes w w₁ name srv id ∧
      getChannelInfo [.server srv, .int rplTopic, .str buffer] w =
        getChannelTitle chan buffer w₁ ∧
      getChannelInfo [.server srv, .int rplNamreply, .str buffer] w =
        getChannelUsers chan buffer w₁ := by
  obtain ⟨chan, w₁, hrun, hfound, hchanges⟩ := getOrCreateChannel_changes name srv w
  refine ⟨chan, w₁, hfound, hchanges, ?_, ?_⟩
  · show ((liftExcept (channelName buffer) : Prog World Str) >>= fun chanName => _) w = _
    rw [hname, liftExcept_ok, pure_bind_run]
    exact bind_ok hrun
  · show ((liftExcept (channelName buffer) : Prog World Str) >>= fun chanName => _) w = _
    rw [hname, liftExcept_ok, pure_bind_run]
    exact bind_ok hrun

/-! ## Reading the line -/

def beforeColon (s : Str) : Str := s.takeWhile (· ≠ 58)

def afterColon (s : Str) : Str := (s.dropWhile (· ≠ 58)).tail

theorem colon_append {a : Str} (ha : 58 ∉ a) (b : Str) :
    beforeColon (a ++ 58 :: b) = a ∧ afterColon (a ++ 58 :: b) = b := by
  have hall : ∀ c ∈ a, decide (c ≠ 58) := by
    intro c hc
    simpa using fun h : c = 58 => ha (h ▸ hc)
  constructor
  · rw [beforeColon, List.takeWhile_append_of_pos hall]
    simp
  · rw [afterColon, List.dropWhile_append_of_pos hall]
    rfl

/-- An earlier colon brings the later one with it. -/
theorem afterColon_early {a : Str} (ha : 58 ∈ a) (b : Str) :
    ∃ d, afterColon (a ++ 58 :: b) = d ++ 58 :: b := by
  obtain ⟨a, d, rfl, hfirst⟩ := List.eq_append_cons_of_mem ha
  refine ⟨d, ?_⟩
  rw [List.append_assoc]
  exact (colon_append hfirst _).2

theorem memchr_colon {s : Str} (h : 58 ∈ s) :
    memchr s 58 = some (beforeColon s).length ∧
      s.drop ((beforeColon s).length + 1) = afterColon s := by
  obtain ⟨a, b, rfl, ha⟩ := List.eq_append_cons_of_mem h
  rw [(colon_append ha b).1, (colon_append ha b).2]
  refine ⟨memchr_append ha b, ?_⟩
  rw [List.drop_append, List.drop_eq_nil_of_le (Nat.le_succ _)]
  simp

theorem length_colon {s : Str} (h : 58 ∈ s) :
    (beforeColon s).length + 1 + (afterColon s).length = s.length := by
  obtain ⟨a, b, rfl, ha⟩ := List.eq_append_cons_of_mem h
  rw [(colon_append ha b).1, (colon_append ha b).2, List.length_append, List.length_cons]
  omega

theorem channelName_append {a c : Str} (ha : 35 ∉ a) (hc : 32 ∉ c) (rest : Str) :
    channelName (a ++ 35 :: c ++ 32 :: rest) = .ok (35 :: c) := by
  have hstart : memchr (a ++ 35 :: c ++ 32 :: rest) 35 = some a.length := by
    rw [List.append_assoc]
    exact memchr_append ha _
  have hdrop : (a ++ 35 :: c ++ 32 :: rest).drop a.length = 35 :: c ++ 32 :: rest := by
    rw [List.append_assoc, List.drop_left]
  have hlen : memchr (35 :: c ++ 32 :: rest) 32 = some (35 :: c).length :=
    memchr_append (by simp [hc]) rest
  unfold channelName
  rw [hstart]
  simp only
  rw [hdrop, hlen]
  simp only
  rw [List.take_left]

/-! ## What the two callbacks write -/

def Channel.addUsers (users : Str) (c : Channel) : Channel :=
  { c with users := some (c.users.getD [] ++ users) }

def Channel.setTopic (topic : List UInt8) (c : Channel) : Channel :=
  { c with topic := some topic }

theorem channelKey_addUsers (users : Str) (c : Channel) :
    channelKey (c.addUsers users) = channelKey c := rfl

theorem channelKey_setTopic (topic : List UInt8) (c : Channel) :
    channelKey (c.setTopic topic) = channelKey c := rfl

/-- Users come behind those that are there. -/
theorem getChannelInfo_namreply {buffer : Str} (hname : channelName buffer = .ok name)
    (hcolon : 58 ∈ buffer.tail) (srv : Nat) (w : World) :
    ∃ w', getChannelInfo [.server srv, .int rplNamreply, .str buffer] w = .ok bcircPluginOk w' ∧
      Changes w w' name srv (Channel.addUsers (afterColon buffer.tail)) := by
  obtain ⟨chan, w₁, hfound, hchanges, -, hrun⟩ := getChannelInfo_named hname srv w
  obtain ⟨hmem, hdrop⟩ := memchr_colon hcolon
  refine ⟨_, ?_, setChannel_changes (channelKey_addUsers _) hfound hchanges⟩
  rw [hrun]
  unfold getChannelUsers
  rw [hmem]
  simp only [deref, orFault_some, pure_bind_run]
  rw [hdrop]
  rfl

/-- As many bytes are copied as there are before the colon, when the line
has that many. -/
theorem getChannelInfo_topic {buffer : Str} (hname : channelName buffer = .ok name)
    (hcolon : 58 ∈ buffer.tail) (srv : Nat) (w : World) :
    (¬ (beforeColon buffer.tail).length ≤ (afterColon buffer.tail).length ∧
      ∃ w', getChannelInfo [.server srv, .int rplTopic, .str buffer] w =
        .error .outOfBounds w') ∨
    ((beforeColon buffer.tail).length ≤ (afterColon buffer.tail).length ∧
      ∃ w', getChannelInfo [.server srv, .int rplTopic, .str buffer] w = .ok bcircPluginOk w' ∧
        Changes w w' name srv (Channel.setTopic
          ((afterColon buffer.tail ++ [0]).take ((beforeColon buffer.tail).length + 1)))) := by
  obtain ⟨chan, w₁, hfound, hchanges, hrun, -⟩ := getChannelInfo_named hname srv w
  obtain ⟨hmem, hdrop⟩ := memchr_colon hcolon
  have hlen := length_colon hcolon
  rw [hrun]
  unfold getChannelTitle
  rw [hmem]
  simp only [deref, orFault_some, pure_bind_run]
  rw [List.length_tail] at hlen
  by_cases hfits : (beforeColon buffer.tail).length ≤ (afterColon buffer.tail).length
  · refine Or.inr ⟨hfits, _, ?_, setChannel_changes (channelKey_setTopic _) hfound hchanges⟩
    have hbytes : (buffer ++ [0]).drop ((beforeColon buffer.tail).length + 1 + 1) =
        afterColon buffer.tail ++ [0] := by
      rw [List.drop_append_of_le_length (by omega), ← hdrop, List.drop_tail]
    rw [if_neg (by omega), hbytes]
    rfl
  · refine Or.inl ⟨hfits, w₁, ?_⟩
    rw [if_pos (by omega)]
    rfl

end Records

end Bcirc
