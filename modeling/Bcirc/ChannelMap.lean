import Bcirc.Effects

/-!
# `channel_list` is a map

Records are created by the channel events and by the numerics, and both
look the channel up first. `Onward` relates the moments of a run, those in
the middle of a line included; along it the list only grows, no two of its
records share name and server, and a record that was obtained is found
again.
-/

namespace Bcirc

open CProg CStr KeyedList

/-! ## Moments of a run -/

/-- Lines may bring any event to any server. -/
def anyCause : Cause where
  welcomed _ := True
  connected _ := True
  lost _ := True

/-- `w'` is a moment after `w`, in the same line or a later one. -/
def Onward (w w' : World) : Prop := Relation.ReflTransGen (Effect anyCause) w w'

theorem truthful_anyCause (cbName : Str) (args : List Arg) : Truthful anyCause cbName args := by
  intro f _
  cases f with
  | gotIn => exact fun _ _ _ => trivial
  | getNumeric => exact fun _ _ _ _ _ => trivial
  | handleRegisteration | serverRejoin => exact fun _ _ => trivial
  | handlePing | handleNick | getPrivmsg | getChanEvent => trivial
  | getChannelInfo | removeUser | checkForUrl | addUrl => trivial

theorem receive_follows (lib : TitleLib) (depth : Nat) (lines : List (Nat × Str))
    (names : List CbName) (w : World) :
    Ensures (Follows anyCause names w) (receive lib depth lines) fun _ => True := by
  induction lines with
  | nil => exact Ensures.pure trivial
  | cons line lines ih =>
      have hline := dispatch_follows lib depth names
        (truthful_anyCause callbackServerRecv [.server line.1, .str line.2]) w
      exact Ensures.bind hline fun _ _ => ih

theorem receive_append (lib : TitleLib) (depth : Nat) (pre post : List (Nat × Str)) :
    receive lib depth (pre ++ post) =
      receive lib depth pre >>= fun _ => receive lib depth post := by
  induction pre with
  | nil => rfl
  | cons line pre ih =>
      rw [List.cons_append, receive, receive, ih, bind_assoc]

/-- The world once these lines have come in. -/
def afterLines (lib : TitleLib) (depth : Nat) (bot : Bot Handler World)
    (lines : List (Nat × Str)) : World :=
  (endState (receive lib depth lines bot)).world

theorem later_afterLines (lib : TitleLib) (depth : Nat) {names : List CbName}
    (bot : Bot Handler World) (hreg : PluginsOnly names bot.reg) (lines : List (Nat × Str)) :
    Onward bot.world (afterLines lib depth bot lines) :=
  (receive_follows lib depth lines names bot.world bot ⟨hreg, .refl⟩).1.2

theorem later_of_prefix (lib : TitleLib) (depth : Nat) {names : List CbName}
    (bot : Bot Handler World) (hreg : PluginsOnly names bot.reg) {pre lines : List (Nat × Str)}
    (hpre : pre <+: lines) :
    Onward (afterLines lib depth bot pre) (afterLines lib depth bot lines) := by
  obtain ⟨post, rfl⟩ := hpre
  have hmid := (receive_follows lib depth pre names bot.world bot ⟨hreg, .refl⟩).1.1
  unfold afterLines
  rw [receive_append]
  cases hrun : receive lib depth pre bot with
  | ok a bot' =>
      rw [hrun] at hmid
      rw [bind_ok hrun]
      exact later_afterLines lib depth bot' hmid post
  | error e bot' =>
      rw [bind_error hrun]
      exact .refl

/-! ## What each change does to the list -/

/-- Names and servers of the records, in the order of the list. -/
def World.keys (w : World) : List (Str × Nat) := w.channelList.map channelKey

theorem Effect.extends {c : Cause} {w w' : World} (h : Effect c w w') :
    Extends channelKey w.channelList w'.channelList := by
  cases h with
  | outside hservers hchannels hrejoining hclock =>
      rw [hchannels]
      exact Extends.refl channelKey _
  | server srv f hf => exact Extends.refl channelKey _
  | welcome hsrv => exact Extends.refl channelKey _
  | connect hsrv => exact Extends.refl channelKey _
  | lose results hsrv => exact Extends.refl channelKey _
  | create record hnew => exact extends_concat channelKey _ record
  | channel chan f hf => exact extends_modify hf _ chan

theorem Effect.nodup {c : Cause} {w w' : World} (h : Effect c w w') (hw : w.keys.Nodup) :
    w'.keys.Nodup := by
  cases h with
  | outside hservers hchannels hrejoining hclock =>
      unfold World.keys
      rw [hchannels]
      exact hw
  | server srv f hf => exact hw
  | welcome hsrv => exact hw
  | connect hsrv => exact hw
  | lose results hsrv => exact hw
  | create record hnew => exact nodup_concat hw hnew
  | channel chan f hf =>
      show ((w.channelList.modify chan f).map channelKey).Nodup
      rw [map_modify hf]
      exact hw

theorem Onward.extends {w w' : World} (h : Onward w w') :
    Extends channelKey w.channelList w'.channelList := by
  induction h with
  | refl => exact Extends.refl channelKey _
  | tail _ heffect ih => exact ih.trans heffect.extends

theorem Onward.nodup {w w' : World} (h : Onward w w') (hw : w.keys.Nodup) : w'.keys.Nodup := by
  induction h with
  | refl => exact hw
  | tail _ heffect ih => exact heffect.nodup ih

/-! ## Obtaining a record -/

/-- The channel a channel event is about, by what follows the command. -/
def chanEventName (event : ChanEvent) (save : Str) : Option Str :=
  match strtokR isSpace save with
  | (none, _) => none
  | (some token, save) =>
    match event with
    | .invite => some save
    | _ => some token

/-- `chan` is the record that `get_chan_event` or `get_channel_info`, in
the state `w`, finds or creates for the channel. -/
inductive Obtains (w : World) (chanName : Str) (srv chan : Nat) (w' : World) : Prop where
  | chanEvent {event : ChanEvent} {save : Str} {reason : Option Str}
      (hname : chanEventName event save = some chanName)
      (hrun : chanEventTarget event srv save w = .ok (some chan, reason) w')
  | channelInfo {buffer : Str} (hname : channelName buffer = .ok chanName)
      (hrun : getOrCreateChannel chanName srv w = .ok chan w')

theorem getOrCreateChannel_found {chanName : Str} {srv chan : Nat} {w w' : World}
    (h : getOrCreateChannel chanName srv w = .ok chan w') :
    lookup channelKey (chanName, srv) w'.channelList = some chan := by
  unfold getOrCreateChannel at h
  rw [bind_ok (getChannel_run chanName srv w)] at h
  cases hfind : lookup channelKey (chanName, srv) w.channelList with
  | some found =>
      rw [hfind] at h
      cases h
      exact hfind
  | none =>
      rw [hfind] at h
      cases h
      exact lookup_concat rfl hfind

theorem chanEventTarget_found {event : ChanEvent} {srv chan : Nat} {save chanName : Str}
    {reason : Option Str} {w w' : World} (hname : chanEventName event save = some chanName)
    (h : chanEventTarget event srv save w = .ok (some chan, reason) w') :
    lookup channelKey (chanName, srv) w'.channelList = some chan := by
  unfold chanEventName at hname
  unfold chanEventTarget at h
  rcases hcut : strtokR isSpace save with ⟨_ | token, rest⟩
  · rw [hcut] at hname
    cases hname
  simp only [hcut] at hname h
  cases event with
  | invite =>
      obtain rfl : rest = chanName := Option.some.inj hname
      obtain ⟨found, w₁, hfound, hrun⟩ := of_bind_ok h
      cases hrun
      exact getOrCreateChannel_found hfound
  | quit =>
      obtain rfl : token = chanName := Option.some.inj hname
      simp only at h
      rw [bind_ok (getChannel_run token srv w)] at h
      cases hfind : lookup channelKey (token, srv) w.channelList with
      | none =>
          rw [hfind] at h
          cases h
      | some found =>
          rw [hfind] at h
          rcases hcut : strtokR isSpace rest with ⟨_ | token, save⟩
          · simp only [hcut] at h
            cases h
            exact hfind
          · simp only [hcut] at h
            cases h
            exact hfind
  | join | kick | part =>
      obtain rfl : token = chanName := Option.some.inj hname
      obtain ⟨found, w₁, hfound, hrun⟩ := of_bind_ok h
      have hlookup := getOrCreateChannel_found hfound
      rcases hword : strtokR isSpace rest with ⟨_ | word, save'⟩
      · rw [hword] at hrun
        cases hrun
        exact hlookup
      · rw [hword] at hrun
        cases hrun
        exact hlookup

theorem Obtains.found {w w' : World} {chanName : Str} {srv chan : Nat}
    (h : Obtains w chanName srv chan w') :
    lookup channelKey (chanName, srv) w'.channelList = some chan := by
  cases h with
  | chanEvent hname hrun => exact chanEventTarget_found hname hrun
  | channelInfo hname hrun => exact getOrCreateChannel_found hrun

/-- Obtaining a record is a moment of the run as well. -/
theorem Does.later {α : Type} {m : Prog World α} (hm : Does anyCause m) (w : World) :
    Onward w (endState (m w)) :=
  (hm (Onward w) (fun _ _ heffect h => h.tail heffect) w .refl).1

theorem Obtains.later {w w' : World} {chanName : Str} {srv chan : Nat}
    (h : Obtains w chanName srv chan w') : Onward w w' := by
  cases h with
  | @chanEvent event save reason hname hrun =>
      have hlater := (does_chanEventTarget anyCause event srv save).later w
      rwa [hrun] at hlater
  | channelInfo hname hrun =>
      have hlater := (does_getOrCreateChannel anyCause chanName srv).later w
      rwa [hrun] at hlater

theorem Onward.getChannel {w w' : World} (h : Onward w w') {chanName : Str} {srv chan : Nat}
    (hfound : lookup channelKey (chanName, srv) w.channelList = some chan) :
    getChannel chanName srv w' = .ok (some chan) w' := by
  rw [getChannel_run, h.extends.lookup hfound]

/-! ## The list over a whole run -/

/-- From `w` on the list is a map: no key is there twice, none is lost or
moved, and what was looked up before is found in the same place. -/
structure MapBetween (w w' : World) : Prop where
  nodup : w'.keys.Nodup
  kept : w.keys <+: w'.keys
  found : ∀ chanName srv chan, getChannel chanName srv w = .ok (some chan) w →
    getChannel chanName srv w' = .ok (some chan) w'

theorem Onward.mapBetween {w w' : World} (h : Onward w w') (hw : w.keys.Nodup) :
    MapBetween w w' where
  nodup := h.nodup hw
  kept := h.extends
  found chanName srv chan hget := by
    rw [getChannel_run] at hget
    have hfound : lookup channelKey (chanName, srv) w.channelList = some chan := by
      injection hget
    exact h.getChannel hfound

/-- Lines from any servers, whatever plugins are loaded. The list is a map
between any two of its lines and any two moments of the run, and a record
obtained at one moment is what `get_channel` returns at every later one. -/
theorem receive_channelMap (lib : TitleLib) (depth : Nat) (loads : List Load) {w : World}
    (hw : w.keys.Nodup) (lines : List (Nat × Str)) :
    let after := afterLines lib depth ⟨loadPlugins loads initIndex, w⟩
    (∀ pre, pre <+: lines → Onward w (after pre) ∧ Onward (after pre) (after lines) ∧
      MapBetween (after pre) (after lines)) ∧
    ∀ w₁ w₂, Onward w w₁ → Onward w₁ w₂ → MapBetween w₁ w₂ ∧
      ∀ chanName srv chan w', Obtains w₁ chanName srv chan w' → Onward w₁ w' ∧
        ∀ w₃, Onward w' w₃ → getChannel chanName srv w₃ = .ok (some chan) w₃ := by
  intro after
  have hreg := pluginsOnly_loadPlugins loads
  refine ⟨fun pre hpre => ?_, fun w₁ w₂ h₁ h₂ => ⟨h₂.mapBetween (h₁.nodup hw), ?_⟩⟩
  · have hbefore : Onward w (after pre) :=
      later_afterLines lib depth ⟨loadPlugins loads initIndex, w⟩ hreg pre
    have hafter : Onward (after pre) (after lines) :=
      later_of_prefix lib depth ⟨loadPlugins loads initIndex, w⟩ hreg hpre
    exact ⟨hbefore, hafter, hafter.mapBetween (hbefore.nodup hw)⟩
  · intro chanName srv chan w' hobtain
    exact ⟨hobtain.later, fun w₃ h₃ => h₃.getChannel hobtain.found⟩

def channelLines : List (Nat × Str) :=
  [(0, ascii ":irc.net 001 bot :Welcome"), (0, ascii ":bot!b@host JOIN #c now"),
    (0, ascii ":irc.net 353 bot = #c :bot a"), (0, ascii ":a!b@c INVITE bot #d x y z")]

theorem receive_channelMap_sample :
    let after := afterLines sampleLib 2 ⟨loadPlugins sampleLoads initIndex, sampleWorld⟩
    MapBetween (after (channelLines.take 2)) (after channelLines) ∧
      (after channelLines).keys = [(ascii "#c", 0), (ascii "#d x y z", 0)] := by
  have hmap := (receive_channelMap sampleLib 2 sampleLoads (w := sampleWorld) (by decide)
    channelLines).1 (channelLines.take 2) (List.take_prefix 2 _)
  exact ⟨hmap.2.2, by decide +kernel⟩

end Bcirc
