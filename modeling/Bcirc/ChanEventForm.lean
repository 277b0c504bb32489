import Bcirc.ChanEvents

/-!
# Which lines are channel events

The token loop of `get_chan_event` ends with whatever it has by then: on a
line of one word with a JOIN of nobody, without parameters with an event of
no channel. Lines of less than 20 bytes are dropped before it, events among
them. `chanEventSound_iff` is the exact condition, by the words of the line.
-/

namespace Bcirc

open CProg CStr KeyedList

/-! ## The form of a channel event -/

/-- How many parameters the command must have. -/
def ChanEvent.mandatory : ChanEvent → Nat
  | .join => 1
  | .part => 1
  | .kick => 2
  | .quit => 0
  | .invite => 2

/-- The parameters among these words: one that starts with a colon is the
last and takes the rest of the line. -/
def paramCount : List Str → Nat
  | [] => 0
  | p :: ps => if p.head? = some 58 then 1 else paramCount ps + 1

/-- A line with a prefix, the command, and its mandatory parameters. -/
def EventForm (event : ChanEvent) (line : Str) : Prop :=
  ∃ source params, tokens isSpace line = (58 :: source) :: event.word :: params ∧
    line.head? = some 58 ∧ source ≠ [] ∧ event.mandatory ≤ paramCount params

/-- Such a line raises its event, any other line raises none, and what is
raised has a nick, a mask and, unless it is a QUIT, a channel. -/
structure ChanEventSound (w : World) (srv : Nat) (line : Str) : Prop where
  one : ∀ event, EventForm event line → ∃ args w', ChanRaises w w' srv line event args
  none : (∀ event, ¬ EventForm event line) → ChanSilent w srv line
  notNull : ∀ event args w', ChanRaises w w' srv line event args →
    ∃ chan nick mask rest, args = chan :: .str nick :: .str mask :: rest ∧
      (event ≠ .quit → chan ≠ .null)

/-! ## When it holds -/

/-- The line starts with a word that has a `!`, but not as its first byte. -/
def Sourced (line : Str) : Prop :=
  ∃ a mask rest, line = a ++ 33 :: mask ++ 32 :: rest ∧ a ≠ [] ∧ 33 ∉ a ∧ 32 ∉ a ∧ 32 ∉ mask

/-- A short line is no channel event; a longer one has two words at least,
and if its second is a command, the line has a `!` only behind a source,
and a source if and only if it has the form of the event. -/
def EventChecked (line : Str) : Prop :=
  (line.length < 20 → ∀ event, ¬ EventForm event line) ∧
    (20 ≤ line.length → ∃ first second params,
      tokens isSpace line = first :: second :: params ∧
        ∀ event : ChanEvent, second = event.word →
          (33 ∈ line → Sourced line) ∧ (EventForm event line ↔ Sourced line))

theorem ChanEvent.word_injective {event event' : ChanEvent} (h : event.word = event'.word) :
    event = event' :=
  Option.some.inj ((ofWord_word event).symm.trans ((congrArg _ h).trans (ofWord_word event')))

theorem word_of_ofWord {token : Str} {event : ChanEvent}
    (h : ChanEvent.ofWord token = some event) : token = event.word := by
  unfold ChanEvent.ofWord at h
  split_ifs at h with hword hword hword hword hword <;> cases h <;> exact hword

theorem ne_nil_of_mandatory {event : ChanEvent} (hquit : event ≠ .quit) {params : List Str}
    (h : event.mandatory ≤ paramCount params) : params ≠ [] := by
  rintro rfl
  cases event <;> first | exact hquit rfl | exact absurd h (by decide)

/-! ## The source -/

theorem sourced_of_ok {line : Str} {source : Str × Str}
    (h : chanEventSource line = .ok (some source)) : Sourced line := by
  unfold chanEventSource at h
  cases hnick : memchr line 33 with
  | none =>
      rw [hnick] at h
      cases h
  | some nickEnd =>
      cases hmask : memchr line 32 with
      | none =>
          rw [hnick, hmask] at h
          simp only at h
          split at h <;> cases h
      | some maskEnd =>
          rw [hnick, hmask] at h
          simp only at h
          split at h
          · cases h
          rename_i hzero
          split at h
          · cases h
          rename_i horder
          obtain ⟨a, b, rfl, ha, rfl⟩ := of_memchr_some hnick
          obtain ⟨word, rest, hcut, hword, rfl⟩ := of_memchr_some hmask
          rcases List.append_eq_append_iff.mp hcut with ⟨t, rfl, ht⟩ | ⟨t, rfl, -⟩
          · cases t with
            | nil => simp at horder
            | cons c mask =>
                obtain ⟨rfl, rfl⟩ := List.cons.inj ht
                rw [List.mem_append, List.mem_cons, not_or, not_or] at hword
                refine ⟨a, mask, rest, by simp, ?_, ha, hword.1, hword.2.2⟩
                rintro rfl
                exact hzero rfl
          · simp at horder

theorem Sourced.bang {line : Str} (h : Sourced line) : 33 ∈ line := by
  obtain ⟨a, mask, rest, rfl, -⟩ := h
  simp

/-- A `!` that is not in the first word makes a length negative. -/
theorem chanEventSource_error {line : Str} (hbang : 33 ∈ line) (hblank : 32 ∈ line)
    (hnot : ¬ Sourced line) : ∃ e, chanEventSource line = .error e := by
  cases hsource : chanEventSource line with
  | error e => exact ⟨e, rfl⟩
  | ok source =>
      cases source with
      | some source => exact absurd (sourced_of_ok hsource) hnot
      | none =>
          unfold chanEventSource at hsource
          cases hnick : memchr line 33 with
          | none => exact absurd hbang (memchr_eq_none.mp hnick)
          | some nickEnd =>
              cases hmask : memchr line 32 with
              | none => exact absurd hblank (memchr_eq_none.mp hmask)
              | some maskEnd =>
                  rw [hnick, hmask] at hsource
                  simp only at hsource
                  split at hsource
                  · cases hsource
                  · split at hsource <;> cases hsource

theorem chanEventSource_none {line : Str} (h : 33 ∉ line) : chanEventSource line = .ok none := by
  unfold chanEventSource
  rw [memchr_eq_none.mpr h]

/-! ## What is raised -/

theorem chanEventTarget_ok (event : ChanEvent) (srv : Nat) (save : Str) (w : World) :
    ∃ chan reason w', chanEventTarget event srv save w = .ok (chan, reason) w' ∧
      (event ≠ .quit → tokens isSpace save ≠ [] → chan ≠ none) := by
  cases hwords : tokens isSpace save with
  | nil =>
      unfold chanEventTarget
      rw [strtokR_of_tokens_nil hwords]
      exact ⟨none, none, w, rfl, fun _ h => absurd rfl h⟩
  | cons token params =>
      obtain ⟨rest, hcut, -⟩ := strtokR_of_tokens_cons hwords
      unfold chanEventTarget
      rw [hcut]
      cases event with
      | invite =>
          obtain ⟨chan, w', hchan⟩ := getOrCreateChannel_ok rest srv w
          refine ⟨some chan, none, w', ?_, fun _ _ => Option.some_ne_none chan⟩
          exact bind_ok hchan
      | quit =>
          simp only
          rw [bind_ok (getChannel_run token srv w)]
          cases lookup channelKey (token, srv) w.channelList with
          | none => exact ⟨none, _, w, rfl, fun h => absurd rfl h⟩
          | some chan =>
              rcases strtokR isSpace rest with ⟨_ | token, save'⟩
              · exact ⟨some chan, none, w, rfl, fun h => absurd rfl h⟩
              · exact ⟨some chan, _, w, rfl, fun h => absurd rfl h⟩
      | join | kick | part =>
          obtain ⟨chan, w', hchan⟩ := getOrCreateChannel_ok token srv w
          simp only
          rw [bind_ok hchan]
          rcases strtokR isSpace rest with ⟨_ | token, save'⟩
          · exact ⟨some chan, none, w', rfl, fun _ _ => Option.some_ne_none chan⟩
          · exact ⟨some chan, _, w', rfl, fun _ _ => Option.some_ne_none chan⟩

section Line

variable {w : World} {srv : Nat} {record : Server} {line first second : Str}
  {event : ChanEvent} {params : List Str}

theorem silent_short (hshort : line.length < 20) : ChanSilent w srv line := by
  have hrun : chanDelivery srv line w = .ok (.code bcircPluginContinue) w := by
    unfold chanDelivery
    rw [if_pos (by omega)]
    rfl
  exact chanSilent_of_code hrun

/-- The loop ends before it has seen the command. -/
theorem raises_nobody (hsrv : w.servers[srv]? = some record) (hwelcome : record.motdSent ≠ 0)
    (hlong : 20 ≤ line.length) (hfits : line.length < 1024)
    (hwords : (tokens isSpace line).length < 2) :
    ChanRaises w w srv line .join [.null, .null, .null, .null] := by
  have hrun : chanDelivery srv line w = .ok (.event .join none none none none) w := by
    unfold chanDelivery
    rw [if_neg (by omega), bind_ok (getServer_ok hsrv), if_neg hwelcome, if_neg (by omega)]
    cases hline : tokens isSpace line with
    | nil =>
        rw [strtokR_of_tokens_nil hline]
        rfl
    | cons first words =>
        rw [hline, List.length_cons] at hwords
        obtain rfl : words = [] := List.eq_nil_of_length_eq_zero (by omega)
        obtain ⟨save, hcut, hsave⟩ := strtokR_of_tokens_cons hline
        rw [hcut]
        simp only
        rw [strtokR_of_tokens_nil hsave]
        rfl
  exact chanRaises_of_delivery hrun

theorem raises_of_words (hsrv : w.servers[srv]? = some record) (hwelcome : record.motdSent ≠ 0)
    (hlong : 20 ≤ line.length) (hfits : line.length < 1024)
    (hwords : tokens isSpace line = first :: event.word :: params) (hsourced : Sourced line) :
    ∃ (chan : Option Nat) (nick mask : Str) (reason : Arg) (w' : World),
      ChanRaises w w' srv line event
        [chan.elim .null .channel, .str nick, .str mask, reason] ∧
      (event ≠ .quit → params ≠ [] → chan ≠ none) := by
  obtain ⟨save, hfirst, hsave⟩ := strtokR_of_tokens_cons hwords
  obtain ⟨rest, hsecond, hrest⟩ := strtokR_of_tokens_cons hsave
  obtain ⟨chan, reason, w', htarget, hchan⟩ := chanEventTarget_ok event srv rest w
  obtain ⟨a, mask, after, rfl, hne, hbang, ha, hmask⟩ := hsourced
  refine ⟨chan, a.tail, mask, _, w', chanRaises_of_delivery (chanDelivery_event hsrv hwelcome
    hlong hfits hfirst hsecond (ofWord_word event) (chanEventSource_word hne hbang ha hmask after)
    htarget), ?_⟩
  rwa [← hrest]

theorem silent_of_words (hsrv : w.servers[srv]? = some record) (hwelcome : record.motdSent ≠ 0)
    (hlong : 20 ≤ line.length) (hfits : line.length < 1024)
    (hwords : tokens isSpace line = first :: second :: params)
    (hnot : ∀ event : ChanEvent, second = event.word → 33 ∉ line) :
    ChanSilent w srv line := by
  obtain ⟨save, hfirst, hsave⟩ := strtokR_of_tokens_cons hwords
  obtain ⟨rest, hsecond, -⟩ := strtokR_of_tokens_cons hsave
  have hrun : ∃ code, chanDelivery srv line w = .ok (.code code) w := by
    unfold chanDelivery
    rw [if_neg (by omega), bind_ok (getServer_ok hsrv), if_neg hwelcome, if_neg (by omega),
      hfirst]
    simp only
    rw [hsecond]
    simp only
    cases hword : ChanEvent.ofWord second with
    | none => exact ⟨bcircPluginOk, rfl⟩
    | some event =>
        simp only
        rw [chanEventSource_none (hnot event (word_of_ofWord hword))]
        exact ⟨bcircPluginContinue, rfl⟩
  obtain ⟨code, hrun⟩ := hrun
  exact chanSilent_of_code hrun

/-- The two lengths are taken from a `!` that is in no first word. -/
theorem fault_of_words (hsrv : w.servers[srv]? = some record) (hwelcome : record.motdSent ≠ 0)
    (hlong : 20 ≤ line.length) (hfits : line.length < 1024)
    (hwords : tokens isSpace line = first :: event.word :: params) (hbang : 33 ∈ line)
    (hnot : ¬ Sourced line) : ∃ e, chanDelivery srv line w = .error e w := by
  obtain ⟨save, hfirst, hsave⟩ := strtokR_of_tokens_cons hwords
  obtain ⟨rest, hsecond, -⟩ := strtokR_of_tokens_cons hsave
  have hblank : 32 ∈ line := by
    obtain ⟨blanks, -, -, -, hshape⟩ := of_strtokR_some hfirst
    rcases hshape with ⟨-, rfl⟩ | ⟨d, hd, rfl⟩
    · cases hsave
    · obtain rfl : d = 32 := by simpa [isSpace] using hd
      simp
  obtain ⟨e, hsource⟩ := chanEventSource_error hbang hblank hnot
  refine ⟨e, ?_⟩
  unfold chanDelivery
  rw [if_neg (by omega), bind_ok (getServer_ok hsrv), if_neg hwelcome, if_neg (by omega),
    hfirst]
  simp only
  rw [hsecond]
  simp only
  rw [ofWord_word, hsource]
  rfl

end Line

/-! ## The exact condition -/

theorem EventForm.words {event : ChanEvent} {line first second : Str} {params : List Str}
    (h : EventForm event line) (hwords : tokens isSpace line = first :: second :: params) :
    second = event.word ∧ event.mandatory ≤ paramCount params := by
  obtain ⟨source, params', hwords', -, -, hmandatory⟩ := h
  have hboth := hwords.symm.trans hwords'
  simp only [List.cons.injEq] at hboth
  obtain ⟨-, rfl, rfl⟩ := hboth
  exact ⟨rfl, hmandatory⟩

/-- A line has the form of one event at most. -/
theorem EventForm.unique {event event' : ChanEvent} {line : Str} (h : EventForm event line)
    (h' : EventForm event' line) : event = event' := by
  obtain ⟨source, params, hwords, -⟩ := h'
  exact ChanEvent.word_injective (h.words hwords).1.symm

section Sound

variable {w : World} {srv : Nat} {record : Server} {line : Str}

/-- Nothing is raised, and nothing should be. -/
theorem chanEventSound_of_silent (hsilent : ChanSilent w srv line)
    (hform : ∀ event, ¬ EventForm event line) : ChanEventSound w srv line where
  one event h := absurd h (hform event)
  none _ := hsilent
  notNull _ _ _ hraises := absurd hsilent hraises.not_silent

/-- The one event of the line, with the channel that it names. -/
theorem chanEventSound_of_form (hsrv : w.servers[srv]? = some record)
    (hwelcome : record.motdSent ≠ 0) (hlong : 20 ≤ line.length) (hfits : line.length < 1024)
    {event : ChanEvent} (hform : EventForm event line) (hsourced : Sourced line) :
    ChanEventSound w srv line := by
  obtain ⟨source, params, hwords, -, -, hmandatory⟩ := id hform
  obtain ⟨chan, nick, mask, reason, w', hraises, hchan⟩ :=
    raises_of_words hsrv hwelcome hlong hfits hwords hsourced
  refine ⟨?_, fun hnone => absurd hform (hnone event), ?_⟩
  · intro event' hform'
    obtain rfl := hform.unique hform'
    exact ⟨_, w', hraises⟩
  · intro event' args w'' hraises'
    obtain ⟨rfl, rfl⟩ := hraises.unique hraises'
    refine ⟨_, nick, mask, _, rfl, fun hquit => ?_⟩
    obtain ⟨c, rfl⟩ := Option.ne_none_iff_exists'.mp
      (hchan hquit (ne_nil_of_mandatory hquit hmandatory))
    exact Arg.noConfusion

/-- A sound line has two words, or it would raise an event for nobody. -/
theorem ChanEventSound.two_words (hsound : ChanEventSound w srv line)
    (hsrv : w.servers[srv]? = some record) (hwelcome : record.motdSent ≠ 0)
    (hlong : 20 ≤ line.length) (hfits : line.length < 1024) :
    ∃ first second params, tokens isSpace line = first :: second :: params := by
  by_cases htwo : (tokens isSpace line).length < 2
  · obtain ⟨chan, nick, mask, rest, hargs, -⟩ := hsound.notNull _ _ _
      (raises_nobody hsrv hwelcome hlong hfits htwo)
    cases hargs
  · match htokens : tokens isSpace line with
    | [] => simp [htokens] at htwo
    | [_] => simp [htokens] at htwo
    | first :: second :: params => exact ⟨first, second, params, rfl⟩

theorem ChanEventSound.returns (hsound : ChanEventSound w srv line) {e : Fault} {w' : World} :
    chanDelivery srv line w ≠ .error e w' := by
  by_cases hform : ∃ event, EventForm event line
  · obtain ⟨event, hform⟩ := hform
    obtain ⟨args, w'', hraises⟩ := hsound.one event hform
    exact hraises.returns
  · exact (hsound.none (not_exists.mp hform)).returns

/-- A sound line with a command, as `get_chan_event` goes on with it. -/
theorem ChanEventSound.source_iff (hsound : ChanEventSound w srv line)
    (hsrv : w.servers[srv]? = some record) (hwelcome : record.motdSent ≠ 0)
    (hlong : 20 ≤ line.length) (hfits : line.length < 1024) {first : Str} {event : ChanEvent}
    {params : List Str} (hwords : tokens isSpace line = first :: event.word :: params) :
    (33 ∈ line → Sourced line) ∧ (EventForm event line ↔ Sourced line) := by
  have hbang : 33 ∈ line → Sourced line := by
    intro hbang
    by_contra hnot
    obtain ⟨e, hfault⟩ := fault_of_words hsrv hwelcome hlong hfits hwords hbang hnot
    exact hsound.returns hfault
  refine ⟨hbang, ?_, ?_⟩
  · intro hform
    by_contra hnot
    -- without a `!` nothing is raised
    obtain ⟨args, w', hraises⟩ := hsound.one event hform
    exact hraises.not_silent
      (silent_of_words hsrv hwelcome hlong hfits hwords fun _ _ h33 => hnot (hbang h33))
  · intro hsourced
    obtain ⟨chan, nick, mask, reason, w', hraises, -⟩ :=
      raises_of_words hsrv hwelcome hlong hfits hwords hsourced
    by_contra hnot
    refine hraises.not_silent (hsound.none fun event' hform => hnot ?_)
    obtain rfl := ChanEvent.word_injective (hform.words hwords).1
    exact hform

end Sound

/-- A line is handled as its form demands if and only if it passes the
checks that `EventChecked` lists. -/
theorem chanEventSound_iff {w : World} {srv : Nat} {record : Server}
    (hsrv : w.servers[srv]? = some record) (hwelcome : record.motdSent ≠ 0) {line : Str}
    (hfits : line.length < 1024) : ChanEventSound w srv line ↔ EventChecked line := by
  constructor
  · intro hsound
    constructor
    · intro hshort event hform
      obtain ⟨args, w', hraises⟩ := hsound.one event hform
      exact hraises.not_silent (silent_short hshort)
    · intro hlong
      obtain ⟨first, second, params, hwords⟩ := hsound.two_words hsrv hwelcome hlong hfits
      refine ⟨first, second, params, hwords, ?_⟩
      rintro event rfl
      exact hsound.source_iff hsrv hwelcome hlong hfits hwords
  · rintro ⟨hshort, hlong⟩
    by_cases hlen : line.length < 20
    · exact chanEventSound_of_silent (silent_short hlen) (hshort hlen)
    · have hlen := Nat.not_lt.mp hlen
      obtain ⟨first, second, params, hwords, hchecked⟩ := hlong hlen
      by_cases hform : ∃ event, EventForm event line
      · obtain ⟨event, hform⟩ := hform
        have hsourced := (hchecked event (hform.words hwords).1).2.mp hform
        exact chanEventSound_of_form hsrv hwelcome hlen hfits hform hsourced
      · refine chanEventSound_of_silent (silent_of_words hsrv hwelcome hlen hfits hwords ?_)
          (not_exists.mp hform)
        intro event hword hbang
        obtain ⟨hsource, hiff⟩ := hchecked event hword
        exact hform ⟨event, hiff.mpr (hsource hbang)⟩

/-- `joona` kicks `bob`. -/
theorem chanEventSound_iff_sample :
    ChanEventSound welcomedWorld 0 (ascii ":joona!~j@host KICK #chan bob") := by
  refine (chanEventSound_iff (rfl : welcomedWorld.servers[0]? = some welcomedServer) (by decide)
    (by decide)).mpr ⟨fun hshort => absurd hshort (by decide), fun _ => ?_⟩
  have hwords : tokens isSpace (ascii ":joona!~j@host KICK #chan bob") =
      [ascii ":joona!~j@host", ascii "KICK", ascii "#chan", ascii "bob"] := by decide +kernel
  have hsourced : Sourced (ascii ":joona!~j@host KICK #chan bob") :=
    ⟨ascii ":joona", ascii "~j@host", ascii "KICK #chan bob", by decide, by decide, by decide,
      by decide, by decide⟩
  refine ⟨_, _, _, hwords, fun event hword => ⟨fun _ => hsourced, iff_of_true ?_ hsourced⟩⟩
  obtain rfl : ChanEvent.kick = event := ChanEvent.word_injective hword
  exact ⟨ascii "joona!~j@host", [ascii "#chan", ascii "bob"], hwords, rfl, by decide, by decide⟩

/-- The first word of a message that came in pieces: nobody joins nothing. -/
theorem not_chanEventSound :
    ¬ ChanEventSound welcomedWorld 0 (ascii ":joona!~joona@127.0.0.1") := by
  intro hsound
  have hwords : (tokens isSpace (ascii ":joona!~joona@127.0.0.1")).length < 2 := by
    decide +kernel
  obtain ⟨chan, nick, mask, rest, hargs, -⟩ := hsound.notNull _ _ _
    (raises_nobody (rfl : welcomedWorld.servers[0]? = some welcomedServer) (by decide) (by decide)
      (by decide) hwords)
  cases hargs

end Bcirc
