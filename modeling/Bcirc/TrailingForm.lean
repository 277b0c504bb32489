import Bcirc.ChannelMap
import Bcirc.QuitEvent

/-!
# The last parameter of JOIN and INVITE

A last parameter may be written with a colon before it. `get_chan_event`
takes the colon into the name of the channel: a JOIN finds another record
unless a parameter comes before its last one, an INVITE unless none does
(the name is then empty). `chanDelivery` is the function without the
raising of the event, so that two lines can be compared by what each of
them delivers.
-/

namespace Bcirc

open CProg CStr KeyedList

/-! ## What is delivered -/

/-- The event `get_chan_event` is about to raise, or the code it returns. -/
inductive ChanDelivery where
  | code (code : Int)
  | event (event : ChanEvent) (chan : Option Nat) (nick hostmask reason : Option Str)
  deriving DecidableEq, Repr

def chanDelivery (srv : Nat) (str : Str) : Prog World ChanDelivery := do
  let bufLen := str.length + 1
  if bufLen ≤ 20 then return .code bcircPluginContinue
  let record ← getServer srv
  if record.motdSent = 0 then return .code 0
  if 1024 < bufLen then throw .outOfBounds
  match strtokR isSpace str with
  | (none, _) => pure (.event .join none none none none)
  | (some _, save) =>
    match strtokR isSpace save with
    | (none, _) => pure (.event .join none none none none)
    | (some token, save) =>
      match ChanEvent.ofWord token with
      | none => pure (.code bcircPluginOk)
      | some event => do
        match ← liftExcept (chanEventSource str) with
        | none => pure (.code bcircPluginContinue)
        | some (nick, hostmask) => do
          let (chan, reason) ← chanEventTarget event srv save
          pure (.event event chan (some nick) (some hostmask) reason)

section Deliver

variable {φ : Type} (raise : Str → List Arg → Prog (Bot φ World) Int)

def deliver : ChanDelivery → Prog (Bot φ World) Int
  | .code code => pure code
  | .event event chan nick hostmask reason => raiseChanEvent raise event chan nick hostmask reason

/-- The function is its delivery, raised. -/
theorem getChanEvent_eq (srv : Nat) (line : Str) :
    getChanEvent raise [.server srv, .str line] =
      (onWorld (chanDelivery srv line) >>= deliver raise) := by
  show (if line.length + 1 ≤ 20 then pure bcircPluginContinue else do
    let record ← onWorld (getServer srv)
    _ : Prog (Bot φ World) Int) = _
  unfold chanDelivery
  by_cases hlen : line.length + 1 ≤ 20
  · rw [if_pos hlen, if_pos hlen]
    rfl
  · rw [if_neg hlen, if_neg hlen, onWorld_bind, bind_assoc]
    refine congrArg _ (funext fun record => ?_)
    by_cases hwelcome : record.motdSent = 0
    · rw [if_pos hwelcome, if_pos hwelcome]
      rfl
    · rw [if_neg hwelcome, if_neg hwelcome]
      by_cases hfits : 1024 < line.length + 1
      · rw [if_pos hfits, if_pos hfits]
        rfl
      · rw [if_neg hfits, if_neg hfits]
        rcases strtokR isSpace line with ⟨_ | first, save⟩
        · rfl
        · simp only
          rcases strtokR isSpace save with ⟨_ | token, save⟩
          · rfl
          · simp only
            cases ChanEvent.ofWord token with
            | none => rfl
            | some event =>
                cases chanEventSource line with
                | error e => rfl
                | ok source =>
                    rcases source with _ | ⟨nick, hostmask⟩
                    · rfl
                    · simp only [liftExcept_ok]
                      rw [pure_bind, pure_bind]
                      simp only
                      rw [onWorld_bind, bind_assoc]
                      rfl

end Deliver

/-- The event with its channel and its source, if one is delivered, and the
channel records that are left. -/
def seen : EStateM.Result Fault World ChanDelivery →
    Option (ChanEvent × Option Nat × Option Str × Option Str) × List Channel
  | .ok (.event event chan nick hostmask _) w =>
      (some (event, chan, nick, hostmask), w.channelList)
  | .ok (.code _) w => (none, w.channelList)
  | .error _ w => (none, w.channelList)

def ChanEvent.word : ChanEvent → Str
  | .join => ascii "JOIN"
  | .kick => ascii "KICK"
  | .part => ascii "PART"
  | .quit => ascii "QUIT"
  | .invite => ascii "INVITE"

/-- `[":" source SPACE] command middle SPACE last`, where `middle` is any
parameters before the last one. -/
def eventLine (source : Option Str) (gap command middle last : Str) : Str :=
  source.elim [] (fun s => 58 :: s ++ 32 :: gap) ++ (command ++ (middle ++ 32 :: last))

/-! ## Words of a line -/

/-- The parameters before the last one are blanks, or there is a first word
among them and something after it. -/
theorem middle_cases (middle : Str) :
    (∀ b ∈ middle, isSpace b) ∨
    (∃ b ∈ middle, isSpace b = false) ∧ ∃ word rest, ∀ last,
      strtokR isSpace (middle ++ 32 :: last) = (some word, (rest ++ 32 :: last).tail) := by
  by_cases hall : ∀ b ∈ middle, isSpace b
  · exact Or.inl hall
  · refine Or.inr ⟨by simpa using hall, ?_⟩
    have hsplit : middle = middle.takeWhile isSpace ++ middle.dropWhile isSpace :=
      List.takeWhile_append_dropWhile.symm
    have hblank : ∀ b ∈ middle.takeWhile isSpace, isSpace b := fun b hb =>
      List.mem_takeWhile_imp hb
    have hskip : ∀ s, strtokR isSpace (middle ++ s) =
        strtokR isSpace (middle.dropWhile isSpace ++ s) := by
      intro s
      conv_lhs => rw [hsplit, List.append_assoc]
      exact strtokR_delims hblank _
    have hfree := takeWhile_not_delim isSpace (middle.dropWhile isSpace)
    have hword : (middle.dropWhile isSpace).takeWhile (!isSpace ·) ≠ [] := by
      cases hdrop : middle.dropWhile isSpace with
      | nil => exact absurd (List.dropWhile_eq_nil_iff.mp hdrop) hall
      | cons c t =>
          have hc := List.head_dropWhile_not isSpace (l := middle) (by rw [hdrop]; simp)
          simp only [hdrop, List.head_cons] at hc
          simp [hc]
    rcases takeWhile_append_tail isSpace (middle.dropWhile isSpace) with ⟨hall, -⟩ | ⟨d, hd, hcut⟩
    · refine ⟨(middle.dropWhile isSpace).takeWhile (!isSpace ·), [], fun last => ?_⟩
      rw [hskip]
      conv_lhs => rw [hall]
      exact strtokR_append_cons hword hfree rfl
    · refine ⟨(middle.dropWhile isSpace).takeWhile (!isSpace ·),
        d :: ((middle.dropWhile isSpace).dropWhile (!isSpace ·)).tail, fun last => ?_⟩
      rw [hskip]
      conv_lhs => rw [hcut, List.append_assoc, List.cons_append]
      exact strtokR_append_cons hword hfree hd

/-! ## The source of the event -/

/-- Without a `'!'` in the first word no nick is found. -/
theorem chanEventSource_no_bang {first : Str} (hbang : 33 ∉ first) (hfirst : 32 ∉ first)
    (rest : Str) (source : Str × Str) :
    chanEventSource (first ++ 32 :: rest) ≠ .ok (some source) := by
  have hend : memchr (first ++ 32 :: rest) 32 = some first.length := memchr_append hfirst rest
  have hbefore : first.findIdx? (· == 33) = none := by
    rw [List.findIdx?_eq_none_iff]
    intro b hb
    simpa using fun h : b = 33 => hbang (h ▸ hb)
  have hnickEnd : memchr (first ++ 32 :: rest) 33 =
      ((32 :: rest).findIdx? (· == 33)).map (· + first.length) := by
    unfold memchr
    rw [List.findIdx?_append, hbefore, Option.none_or]
  unfold chanEventSource
  rw [hnickEnd, hend]
  cases (32 :: rest).findIdx? (· == 33) with
  | none =>
      intro h
      cases h
  | some k =>
      simp only [Option.map_some]
      split
      · intro h
        cases h
      · rw [if_pos (by omega)]
        intro h
        cases h

/-! ## The channel that is named -/

/-- The name by which `get_chan_event` looks the channel up: the first
parameter, and for INVITE what follows it. -/
def chanNameOf (event : ChanEvent) (middle last : Str) : Str :=
  if event = .invite then (strtokR isSpace (middle ++ 32 :: last)).2
  else (strtokR isSpace (middle ++ 32 :: last)).1.getD []

/-- A JOIN with an earlier parameter, or an INVITE without. -/
def NamesSame (event : ChanEvent) (middle : Str) : Prop :=
  event = .join ∧ (∃ b ∈ middle, isSpace b = false) ∨ event = .invite ∧ ∀ b ∈ middle, isSpace b

theorem chanNameOf_eq_iff {event : ChanEvent} (hevent : event = .join ∨ event = .invite)
    (middle : Str) {c : Str} (hne : c ≠ []) (hc : 32 ∉ c) :
    chanNameOf event middle c = chanNameOf event middle (58 :: c) ↔ NamesSame event middle := by
  have hfree := isSpace_of_not_mem hc
  have hcolon : ∀ b ∈ 58 :: c, isSpace b = false := isSpace_of_not_mem (by simp [hc])
  unfold chanNameOf NamesSame
  rcases middle_cases middle with hblank | ⟨hword, word, rest, hcut⟩
  · have hlast : ∀ last : Str, last ≠ [] → (∀ b ∈ last, isSpace b = false) →
        strtokR isSpace (middle ++ 32 :: last) = (some last, []) := by
      intro last hlast hnd
      rw [strtokR_delims hblank, strtokR_tail rfl, strtokR_word hlast hnd]
    have hnone : ¬ ∃ b ∈ middle, isSpace b = false := by
      rintro ⟨b, hb, hnot⟩
      rw [hblank b hb] at hnot
      cases hnot
    rw [hlast c hne hfree, hlast (58 :: c) (List.cons_ne_nil _ _) hcolon]
    rcases hevent with rfl | rfl
    · simp [hnone]
    · simpa using hblank
  · have hlen : (rest ++ 32 :: c).tail ≠ (rest ++ 32 :: 58 :: c).tail := by
      intro h
      have := congrArg List.length h
      simp at this
    have hsome : ¬ ∀ b ∈ middle, isSpace b := by
      obtain ⟨b, hb, hnot⟩ := hword
      intro h
      rw [h b hb] at hnot
      cases hnot
    rw [hcut, hcut]
    rcases hevent with rfl | rfl
    · simp [hword]
    · simpa [hsome] using hlen

/-- Different names stand for different records, or for a new one each. -/
theorem getOrCreateChannel_inj {name₁ name₂ : Str} {srv chan₁ chan₂ : Nat} {w w₁ w₂ : World}
    (h₁ : getOrCreateChannel name₁ srv w = .ok chan₁ w₁)
    (h₂ : getOrCreateChannel name₂ srv w = .ok chan₂ w₂) (hchan : chan₁ = chan₂)
    (hlist : w₁.channelList = w₂.channelList) : name₁ = name₂ := by
  subst hchan
  have hfound₁ := getOrCreateChannel_found h₁
  have hfound₂ := getOrCreateChannel_found h₂
  rw [← hlist] at hfound₂
  obtain ⟨record₁, hrecord₁, hkey₁⟩ := lookup_some hfound₁
  obtain ⟨record₂, hrecord₂, hkey₂⟩ := lookup_some hfound₂
  obtain rfl := Option.some.inj (hrecord₁.symm.trans hrecord₂)
  exact (Prod.mk.inj (hkey₁.symm.trans hkey₂)).1

theorem getOrCreateChannel_ok (chanName : Str) (srv : Nat) (w : World) :
    ∃ chan w', getOrCreateChannel chanName srv w = .ok chan w' := by
  unfold getOrCreateChannel
  rw [bind_ok (getChannel_run chanName srv w)]
  cases lookup channelKey (chanName, srv) w.channelList with
  | none => exact ⟨_, _, rfl⟩
  | some chan => exact ⟨chan, w, rfl⟩

/-! ## The two forms -/

theorem chanEventTarget_named {event : ChanEvent} (hevent : event = .join ∨ event = .invite)
    {middle last token rest : Str}
    (hcut : strtokR isSpace (middle ++ 32 :: last) = (some token, rest))
    {srv chan : Nat} {w w' : World}
    (hchan : getOrCreateChannel (chanNameOf event middle last) srv w = .ok chan w') :
    ∃ reason, ∀ save, strtokR isSpace save = (some token, rest) →
      chanEventTarget event srv save w = .ok (some chan, reason) w' := by
  unfold chanNameOf at hchan
  rw [hcut] at hchan
  rcases hevent with rfl | rfl
  · have hrun : getOrCreateChannel token srv w = .ok chan w' := hchan
    rcases hrest : strtokR isSpace rest with ⟨_ | next, save'⟩
    · refine ⟨none, fun save hsave => ?_⟩
      unfold chanEventTarget
      rw [hsave]
      simp only
      rw [bind_ok hrun, hrest]
      rfl
    · refine ⟨some (chanEventReason .join next save'), fun save hsave => ?_⟩
      unfold chanEventTarget
      rw [hsave]
      simp only
      rw [bind_ok hrun, hrest]
      rfl
  · have hrun : getOrCreateChannel rest srv w = .ok chan w' := hchan
    refine ⟨none, fun save hsave => ?_⟩
    unfold chanEventTarget
    rw [hsave]
    simp only
    rw [bind_ok hrun]
    rfl

section Line

variable {srv : Nat} {w : World} {record : Server}

/-- A line that is too short, or comes before the welcome, or whose first
word has no `'!'`, delivers nothing. -/
theorem seen_quiet (hsrv : w.servers[srv]? = some record) {line first save token rest : Str}
    (hfirst : strtokR isSpace line = (some first, save))
    (hsecond : strtokR isSpace save = (some token, rest))
    (hquiet : line.length < 20 ∨ record.motdSent = 0 ∨
      ∀ source, chanEventSource line ≠ .ok (some source)) :
    seen (chanDelivery srv line w) = (none, w.channelList) := by
  unfold chanDelivery
  by_cases hlen : line.length + 1 ≤ 20
  · rw [if_pos hlen]
    rfl
  · rw [if_neg hlen, bind_ok (getServer_ok hsrv)]
    by_cases hwelcome : record.motdSent = 0
    · rw [if_pos hwelcome]
      rfl
    · rw [if_neg hwelcome]
      have hnone : ∀ source, chanEventSource line ≠ .ok (some source) :=
        (hquiet.resolve_left (by omega)).resolve_left hwelcome
      by_cases hfits : 1024 < line.length + 1
      · rw [if_pos hfits]
        rfl
      · rw [if_neg hfits, hfirst]
        simp only
        rw [hsecond]
        simp only
        cases ChanEvent.ofWord token with
        | none => rfl
        | some event =>
            cases hsource : chanEventSource line with
            | error e => rfl
            | ok source =>
                cases source with
                | none => rfl
                | some source => exact absurd hsource (hnone source)

theorem chanDelivery_event (hsrv : w.servers[srv]? = some record) (hwelcome : record.motdSent ≠ 0)
    {line first save token rest nick mask : Str} {event : ChanEvent} {chan : Option Nat}
    {reason : Option Str} {w' : World} (hlong : 20 ≤ line.length) (hfits : line.length < 1024)
    (hfirst : strtokR isSpace line = (some first, save))
    (hsecond : strtokR isSpace save = (some token, rest))
    (hword : ChanEvent.ofWord token = some event)
    (hsource : chanEventSource line = .ok (some (nick, mask)))
    (htarget : chanEventTarget event srv rest w = .ok (chan, reason) w') :
    chanDelivery srv line w = .ok (.event event chan (some nick) (some mask) reason) w' := by
  unfold chanDelivery
  rw [if_neg (by omega), bind_ok (getServer_ok hsrv), if_neg hwelcome, if_neg (by omega), hfirst]
  simp only
  rw [hsecond]
  simp only
  rw [hword, hsource]
  simp only [liftExcept_ok]
  rw [pure_bind_run]
  simp only
  rw [bind_ok htarget]
  rfl

theorem length_eventLine_colon (source : Option Str) (gap command middle c : Str) :
    (eventLine source gap command middle (58 :: c)).length =
      (eventLine source gap command middle c).length + 1 := by
  simp [eventLine]
  omega

/-- The parameters after a command that is followed by a blank. -/
theorem params_words {middle : Str} (hmiddle : ∀ b ∈ middle.head?, b = 32) {last : Str}
    (hne : last ≠ []) (hlast : 32 ∉ last) :
    ∃ save token rest, middle ++ 32 :: last = 32 :: save ∧
      strtokR isSpace (middle ++ 32 :: last) = (some token, rest) ∧
      strtokR isSpace save = (some token, rest) := by
  have hcut : ∃ token rest, strtokR isSpace (middle ++ 32 :: last) = (some token, rest) := by
    rcases middle_cases middle with hblank | ⟨-, word, rest, hcut⟩
    · refine ⟨last, [], ?_⟩
      rw [strtokR_delims hblank, strtokR_tail rfl, strtokR_word hne (isSpace_of_not_mem hlast)]
    · exact ⟨word, _, hcut last⟩
  obtain ⟨token, rest, hcut⟩ := hcut
  have hstart : ∃ save, middle ++ 32 :: last = 32 :: save := by
    cases middle with
    | nil => exact ⟨last, rfl⟩
    | cons b middle =>
        obtain rfl : b = 32 := hmiddle b rfl
        exact ⟨middle ++ 32 :: last, rfl⟩
  obtain ⟨save, hstart⟩ := hstart
  refine ⟨save, token, rest, hstart, hcut, ?_⟩
  have hspace : isSpace 32 := rfl
  rw [← strtokR_tail hspace save, ← hstart, hcut]

theorem ChanEvent.word_words (event : ChanEvent) (save : Str) :
    strtokR isSpace (event.word ++ 32 :: save) = (some event.word, save) := by
  have hword : event.word ≠ [] ∧ ∀ b ∈ event.word, isSpace b = false := by
    cases event <;> decide +kernel
  exact strtokR_append_cons hword.1 hword.2 rfl

theorem ofWord_word (event : ChanEvent) : ChanEvent.ofWord event.word = some event := by
  cases event <;> decide

/-- The words of a line with a source. -/
theorem eventLine_words {s gap : Str} (hs : 32 ∉ s) (hgap : ∀ b ∈ gap, isSpace b)
    (event : ChanEvent) {middle last save : Str} (hstart : middle ++ 32 :: last = 32 :: save) :
    ∃ after, strtokR isSpace (eventLine (some s) gap event.word middle last) =
        (some (58 :: s), after) ∧
      strtokR isSpace after = (some event.word, save) := by
  have hfree : ∀ b ∈ 58 :: s, isSpace b = false := isSpace_of_not_mem (by simp [hs])
  refine ⟨gap ++ (event.word ++ 32 :: save), ?_, ?_⟩
  · have hline : eventLine (some s) gap event.word middle last =
        58 :: s ++ 32 :: (gap ++ (event.word ++ 32 :: save)) := by
      rw [← hstart]
      simp [eventLine]
    rw [hline]
    exact strtokR_append_cons (List.cons_ne_nil _ _) hfree rfl
  · rw [strtokR_delims hgap]
    exact event.word_words save

/-- The channel of a line that is delivered. -/
theorem seen_eventLine (hsrv : w.servers[srv]? = some record) (hwelcome : record.motdSent ≠ 0)
    {nick mask gap : Str} (hbang : 33 ∉ nick) (hs : 32 ∉ nick ++ 33 :: mask)
    (hgap : ∀ b ∈ gap, isSpace b) {event : ChanEvent} (hevent : event = .join ∨ event = .invite)
    {middle : Str} (hmiddle : ∀ b ∈ middle.head?, b = 32) {last : Str} (hne : last ≠ [])
    (hlast : 32 ∉ last)
    (hlong : 20 ≤ (eventLine (some (nick ++ 33 :: mask)) gap event.word middle last).length)
    (hfits : (eventLine (some (nick ++ 33 :: mask)) gap event.word middle last).length < 1024) :
    ∃ chan w', getOrCreateChannel (chanNameOf event middle last) srv w = .ok chan w' ∧
      seen (chanDelivery srv (eventLine (some (nick ++ 33 :: mask)) gap event.word middle last) w) =
        (some (event, some chan, some nick, some mask), w'.channelList) := by
  obtain ⟨save, token, rest, hstart, hcut, hsave⟩ := params_words hmiddle hne hlast
  obtain ⟨after, hfirst, hsecond⟩ := eventLine_words hs hgap event hstart
  obtain ⟨chan, w', hchan⟩ := getOrCreateChannel_ok (chanNameOf event middle last) srv w
  obtain ⟨reason, htarget⟩ := chanEventTarget_named hevent hcut hchan
  obtain ⟨hnick, hmask⟩ : 32 ∉ nick ∧ 32 ∉ mask := by
    simpa using hs
  have hsource :
      chanEventSource (eventLine (some (nick ++ 33 :: mask)) gap event.word middle last) =
      .ok (some (nick, mask)) := by
    have hline : eventLine (some (nick ++ 33 :: mask)) gap event.word middle last =
        (58 :: nick ++ 33 :: mask) ++ 32 :: (gap ++ (event.word ++ (middle ++ 32 :: last))) := by
      simp [eventLine]
    rw [hline]
    exact chanEventSource_mask hbang hnick hmask _
  refine ⟨chan, w', hchan, ?_⟩
  rw [chanDelivery_event hsrv hwelcome hlong hfits hfirst hsecond (ofWord_word event) hsource
    (htarget save hsave)]
  rfl

/-- A line without a source, or with one without `'!'`, delivers nothing. -/
theorem seen_sourceless (hsrv : w.servers[srv]? = some record) {source : Option Str} {gap : Str}
    (hsource : ∀ s, source = some s → 32 ∉ s) (hgap : ∀ b ∈ gap, isSpace b) (event : ChanEvent)
    {middle : Str} (hmiddle : ∀ b ∈ middle.head?, b = 32) {last : Str} (hne : last ≠ [])
    (hlast : 32 ∉ last)
    (hquiet : (eventLine source gap event.word middle last).length < 20 ∨ record.motdSent = 0 ∨
      ∀ s, source = some s → 33 ∉ s) :
    seen (chanDelivery srv (eventLine source gap event.word middle last) w) =
      (none, w.channelList) := by
  obtain ⟨save, token, rest, hstart, hcut, hsave⟩ := params_words hmiddle hne hlast
  cases source with
  | none =>
      have hline : eventLine none gap event.word middle last = event.word ++ 32 :: save := by
        rw [← hstart]
        rfl
      have hword : 33 ∉ event.word ∧ 32 ∉ event.word := by
        cases event <;> decide
      rw [hline]
      exact seen_quiet hsrv (event.word_words save) hsave
        (Or.inr (Or.inr (chanEventSource_no_bang hword.1 hword.2 save)))
  | some s =>
      have hs := hsource s rfl
      obtain ⟨after, hfirst, hsecond⟩ := eventLine_words hs hgap event hstart
      refine seen_quiet hsrv hfirst hsecond (hquiet.imp_right fun h => h.imp_right fun hbang => ?_)
      have hline : eventLine (some s) gap event.word middle last =
          (58 :: s) ++ 32 :: (gap ++ (event.word ++ (middle ++ 32 :: last))) := by
        simp [eventLine]
      rw [hline]
      exact chanEventSource_no_bang (by simpa using hbang s rfl) (by simpa using hs) _

/-- Where the line with a colon is delivered. -/
theorem seen_colon_delivered (hsrv : w.servers[srv]? = some record)
    (hwelcome : record.motdSent ≠ 0) {nick mask gap : Str} (hbang : 33 ∉ nick)
    (hs : 32 ∉ nick ++ 33 :: mask) (hgap : ∀ b ∈ gap, isSpace b) {event : ChanEvent}
    (hevent : event = .join ∨ event = .invite) {middle : Str}
    (hmiddle : ∀ b ∈ middle.head?, b = 32) {c : Str} (hne : c ≠ []) (hc : 32 ∉ c)
    (hlong : 20 ≤ (eventLine (some (nick ++ 33 :: mask)) gap event.word middle (58 :: c)).length)
    (hfits :
      (eventLine (some (nick ++ 33 :: mask)) gap event.word middle (58 :: c)).length < 1024) :
    seen (chanDelivery srv (eventLine (some (nick ++ 33 :: mask)) gap event.word middle c) w) =
        seen (chanDelivery srv
          (eventLine (some (nick ++ 33 :: mask)) gap event.word middle (58 :: c)) w) ↔
      20 ≤ (eventLine (some (nick ++ 33 :: mask)) gap event.word middle c).length ∧
        NamesSame event middle := by
  have hlen := length_eventLine_colon (some (nick ++ 33 :: mask)) gap event.word middle c
  have hcolon : 32 ∉ 58 :: c := by simpa using hc
  obtain ⟨chan₂, w₂, hchan₂, hseen₂⟩ := seen_eventLine hsrv hwelcome hbang hs hgap hevent hmiddle
    (List.cons_ne_nil 58 c) hcolon hlong hfits
  rw [hseen₂]
  by_cases hshort : (eventLine (some (nick ++ 33 :: mask)) gap event.word middle c).length < 20
  · have hsource : ∀ s, some (nick ++ 33 :: mask) = some s → 32 ∉ s := by
      rintro s ⟨⟩
      exact hs
    rw [seen_sourceless hsrv hsource hgap event hmiddle hne hc (Or.inl hshort)]
    constructor
    · intro h
      cases h
    · intro h
      omega
  · obtain ⟨chan₁, w₁, hchan₁, hseen₁⟩ := seen_eventLine hsrv hwelcome hbang hs hgap hevent
      hmiddle hne hc (Nat.not_lt.mp hshort) (by omega)
    rw [hseen₁, ← chanNameOf_eq_iff hevent middle hne hc]
    constructor
    · intro h
      obtain ⟨hevents, hlists⟩ := Prod.mk.inj h
      simp only [Option.some.injEq, Prod.mk.injEq] at hevents
      exact ⟨Nat.not_lt.mp hshort, getOrCreateChannel_inj hchan₁ hchan₂ hevents.2.1 hlists⟩
    · rintro ⟨-, hname⟩
      rw [hname] at hchan₁
      obtain ⟨rfl, rfl⟩ := EStateM.Result.ok.inj (hchan₁.symm.trans hchan₂)
      rfl

/-- Written with a colon or without, the last parameter leads to the same
event, channel and records, if and only if a line that is delivered with
the colon is long enough without it and names the same channel. -/
theorem seen_colon_iff (hsrv : w.servers[srv]? = some record) {source : Option Str} {gap : Str}
    (hsource : ∀ s, source = some s → 32 ∉ s) (hgap : ∀ b ∈ gap, isSpace b) {event : ChanEvent}
    (hevent : event = .join ∨ event = .invite) {middle : Str}
    (hmiddle : ∀ b ∈ middle.head?, b = 32) {c : Str} (hne : c ≠ []) (hc : 32 ∉ c)
    (hfits : (eventLine source gap event.word middle (58 :: c)).length < 1024) :
    seen (chanDelivery srv (eventLine source gap event.word middle c) w) =
        seen (chanDelivery srv (eventLine source gap event.word middle (58 :: c)) w) ↔
      (record.motdSent ≠ 0 → 20 ≤ (eventLine source gap event.word middle (58 :: c)).length →
        ∀ s, source = some s → 33 ∈ s →
          20 ≤ (eventLine source gap event.word middle c).length ∧ NamesSame event middle) := by
  by_cases hdelivered : record.motdSent ≠ 0 ∧
      20 ≤ (eventLine source gap event.word middle (58 :: c)).length ∧ ∃ s, source = some s ∧ 33 ∈ s
  · obtain ⟨hwelcome, hlong, s, rfl, hmem⟩ := hdelivered
    obtain ⟨nick, mask, rfl, hbang⟩ := List.eq_append_cons_of_mem hmem
    rw [seen_colon_delivered hsrv hwelcome hbang (hsource _ rfl) hgap hevent hmiddle hne hc hlong
      hfits]
    constructor
    · rintro h - - s ⟨⟩ -
      exact h
    · intro h
      exact h hwelcome hlong _ rfl hmem
  · have hlen := length_eventLine_colon source gap event.word middle c
    have hboth : ∀ last, last ≠ [] → 32 ∉ last →
        ((eventLine source gap event.word middle last).length ≤
          (eventLine source gap event.word middle (58 :: c)).length) →
        seen (chanDelivery srv (eventLine source gap event.word middle last) w) =
          (none, w.channelList) := by
      intro last hlast hfree hle
      refine seen_sourceless hsrv hsource hgap event hmiddle hlast hfree ?_
      by_cases hwelcome : record.motdSent = 0
      · exact Or.inr (Or.inl hwelcome)
      · by_cases hlong : 20 ≤ (eventLine source gap event.word middle (58 :: c)).length
        · refine Or.inr (Or.inr fun s hs hmem => hdelivered ⟨hwelcome, hlong, s, hs, hmem⟩)
        · exact Or.inl (by omega)
    have hcolon : 32 ∉ 58 :: c := by simpa using hc
    rw [hboth c hne hc (by omega), hboth (58 :: c) (List.cons_ne_nil 58 c) hcolon le_rfl]
    exact ⟨fun _ hwelcome hlong s hs hmem => absurd ⟨hwelcome, hlong, s, hs, hmem⟩ hdelivered,
      fun _ => rfl⟩

end Line

def welcomedWorld : World := { sampleWorld with servers := [welcomedServer] }

/-- `JOIN #chan key` and `JOIN #chan :key`. -/
theorem seen_colon_iff_sample :
    seen (chanDelivery 0 (eventLine (some (ascii "a!u@host.org")) [] ChanEvent.join.word
        (ascii " #chan") (ascii "key")) welcomedWorld) =
      seen (chanDelivery 0 (eventLine (some (ascii "a!u@host.org")) [] ChanEvent.join.word
        (ascii " #chan") (58 :: ascii "key")) welcomedWorld) := by
  refine (seen_colon_iff (rfl : welcomedWorld.servers[0]? = some welcomedServer) ?_
    (by simp) (Or.inl rfl) (by decide +kernel) (by decide) (by decide) (by decide +kernel)).mpr ?_
  · rintro s hs
    obtain rfl := Option.some.inj hs
    decide +kernel
  · intro _ _ _ _ _
    exact ⟨by decide +kernel, Or.inl ⟨rfl, 35, by decide +kernel, rfl⟩⟩

/-- `JOIN #chan` and `JOIN :#chan` open two channels. -/
theorem seen_colon_differs :
    ¬ ∀ (w : World) (record : Server) (source gap middle c : Str) (event : ChanEvent),
      w.servers[0]? = some record → 32 ∉ source → (∀ b ∈ gap, isSpace b) →
      event = .join ∨ event = .invite → (∀ b ∈ middle.head?, b = 32) →
      c ≠ [] → 32 ∉ c → c.head? ≠ some 58 →
      (eventLine (some source) gap event.word middle (58 :: c)).length < 1024 →
        seen (chanDelivery 0 (eventLine (some source) gap event.word middle c) w) =
          seen (chanDelivery 0 (eventLine (some source) gap event.word middle (58 :: c)) w) := by
  intro h
  have hsame := h welcomedWorld welcomedServer (ascii "a!u@host.org") [] []
    (ascii "#chan") .join rfl (by decide +kernel) (by simp) (Or.inl rfl) (by simp) (by decide)
    (by decide) (by decide)
    (by decide +kernel)
  have hnames := congrArg (fun r => r.2.map (·.name)) hsame
  exact absurd hnames (by decide +kernel)

end Bcirc
