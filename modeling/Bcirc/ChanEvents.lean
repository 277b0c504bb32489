import Bcirc.TrailingForm

/-!
# Channel events

What `get_chan_event` raises for the lines that have the form of a channel
event. JOIN, PART and INVITE come out as they were meant. KICK is read like
PART, although its parameters are laid out differently: the event names the
operator, and the victim becomes the start of the reason.
-/

namespace Bcirc

open CProg CStr KeyedList

/-! ## Raising one event -/

/-- `get_chan_event` does nothing with the line but obtain a channel record
and raise the event with these arguments. -/
def ChanRaises (w w' : World) (srv : Nat) (line : Str) (event : ChanEvent) (args : List Arg) :
    Prop :=
  ∀ (φ : Type) (raise : Str → List Arg → Prog (Bot φ World) Int) (reg : Registry φ),
    getChanEvent raise [.server srv, .str line] ⟨reg, w⟩ =
      (do
        let _ ← raise event.callback args
        pure bcircPluginOk : Prog (Bot φ World) Int) ⟨reg, w'⟩

/-- `get_chan_event` returns and raises nothing. -/
def ChanSilent (w : World) (srv : Nat) (line : Str) : Prop :=
  ∃ code w', ∀ (φ : Type) (raise : Str → List Arg → Prog (Bot φ World) Int) (reg : Registry φ),
    getChanEvent raise [.server srv, .str line] ⟨reg, w⟩ = .ok code ⟨reg, w'⟩

section Raises

variable {w w' : World} {srv : Nat} {line : Str}

theorem chanRaises_of_delivery {event : ChanEvent} {chan : Option Nat}
    {nick mask reason : Option Str}
    (h : chanDelivery srv line w = .ok (.event event chan nick mask reason) w') :
    ChanRaises w w' srv line event [chan.elim .null .channel, nick.elim .null .str,
      mask.elim .null .str, reason.elim .null .str] := by
  intro φ raise reg
  have hrun : onWorld (chanDelivery srv line) (⟨reg, w⟩ : Bot φ World) =
      .ok (.event event chan nick mask reason) ⟨reg, w'⟩ := onWorld_ok h
  rw [getChanEvent_eq, bind_ok hrun]
  rfl

theorem chanSilent_of_code {code : Int} (h : chanDelivery srv line w = .ok (.code code) w') :
    ChanSilent w srv line := by
  refine ⟨code, w', fun φ raise reg => ?_⟩
  have hrun : onWorld (chanDelivery srv line) (⟨reg, w⟩ : Bot φ World) =
      .ok (.code code) ⟨reg, w'⟩ := onWorld_ok h
  rw [getChanEvent_eq, bind_ok hrun]
  rfl

/-- A fault is neither. -/
theorem chanFault_of_error {e : Fault} (h : chanDelivery srv line w = .error e w') {φ : Type}
    (raise : Str → List Arg → Prog (Bot φ World) Int) (reg : Registry φ) :
    getChanEvent raise [.server srv, .str line] ⟨reg, w⟩ = .error e ⟨reg, w'⟩ := by
  have hrun : onWorld (chanDelivery srv line) (⟨reg, w⟩ : Bot φ World) =
      .error e ⟨reg, w'⟩ := by
    unfold onWorld
    rw [h]
  rw [getChanEvent_eq, bind_error hrun]

theorem ChanEvent.callback_injective {event event' : ChanEvent}
    (h : event.callback = event'.callback) : event = event' := by
  cases event <;> cases event' <;> first | rfl | exact absurd h (by decide)

/-- A dispatcher that fails unless it is handed this event. -/
def onlyRaise (event : ChanEvent) (args : List Arg) (cbName : Str) (args' : List Arg) :
    Prog (Bot Unit World) Int :=
  if cbName = event.callback ∧ args' = args then pure bcircPluginOk else throw .diverges

theorem ChanRaises.unique {w'' : World} {event event' : ChanEvent} {args args' : List Arg}
    (h : ChanRaises w w' srv line event args) (h' : ChanRaises w w'' srv line event' args') :
    event = event' ∧ args = args' := by
  have hrun := (h Unit (onlyRaise event args) initIndex).symm.trans
    (h' Unit (onlyRaise event args) initIndex)
  by_cases hsame : event'.callback = event.callback ∧ args' = args
  · exact ⟨(ChanEvent.callback_injective hsame.1).symm, hsame.2.symm⟩
  · have hleft : onlyRaise event args event.callback args = pure bcircPluginOk :=
      if_pos ⟨rfl, rfl⟩
    have hright : onlyRaise event args event'.callback args' = throw .diverges := if_neg hsame
    rw [hleft, hright] at hrun
    cases hrun

theorem ChanRaises.not_silent {event : ChanEvent} {args : List Arg}
    (h : ChanRaises w w' srv line event args) : ¬ ChanSilent w srv line := by
  rintro ⟨code, w'', hsilent⟩
  have hraised := h Unit (fun _ _ => throw .diverges) initIndex
  rw [hsilent, bind_error (rfl : (throw .diverges : Prog (Bot Unit World) Int)
    ⟨initIndex, w'⟩ = .error .diverges ⟨initIndex, w'⟩)] at hraised
  cases hraised

theorem ChanSilent.returns (h : ChanSilent w srv line) {e : Fault} :
    chanDelivery srv line w ≠ .error e w' := by
  intro herror
  obtain ⟨code, w'', hsilent⟩ := h
  have hfault := chanFault_of_error herror (fun _ _ => pure 0) (initIndex : Registry Unit)
  rw [hsilent] at hfault
  cases hfault

theorem ChanRaises.returns {w'' : World} {event : ChanEvent} {args : List Arg}
    (h : ChanRaises w w' srv line event args) {e : Fault} :
    chanDelivery srv line w ≠ .error e w'' := by
  intro herror
  have hfault := chanFault_of_error herror (fun _ _ => pure 0) (initIndex : Registry Unit)
  have hraised : getChanEvent (fun _ _ => pure 0) [.server srv, .str line] _ =
      .ok bcircPluginOk ⟨initIndex, w'⟩ := h Unit (fun _ _ => pure 0) initIndex
  rw [hfault] at hraised
  cases hraised

end Raises

/-! ## Lines with a source -/

/-- `:nick!mask`, the command and its parameters. -/
def sourcedLine (nick mask : Str) (event : ChanEvent) (params : Str) : Str :=
  58 :: nick ++ 33 :: mask ++ 32 :: (event.word ++ 32 :: params)

section Sourced

variable {w w' : World} {srv : Nat} {record : Server} {nick mask params : Str}

/-- Such a line raises its event, with whatever channel and reason its
parameters give. -/
theorem sourcedLine_raises (hsrv : w.servers[srv]? = some record)
    (hwelcome : record.motdSent ≠ 0) (hbang : 33 ∉ nick) (hnick : 32 ∉ nick) (hmask : 32 ∉ mask)
    {event : ChanEvent} (hlong : 20 ≤ (sourcedLine nick mask event params).length)
    (hfits : (sourcedLine nick mask event params).length < 1024) {chan : Option Nat}
    {reason : Option Str}
    (htarget : chanEventTarget event srv params w = .ok (chan, reason) w') :
    ChanRaises w w' srv (sourcedLine nick mask event params) event
      [chan.elim .null .channel, .str nick, .str mask, reason.elim .null .str] := by
  have hword : ∀ c ∈ 58 :: nick ++ 33 :: mask, isSpace c = false :=
    isSpace_of_not_mem (by simp [hnick, hmask])
  have hfirst : strtokR isSpace (sourcedLine nick mask event params) =
      (some (58 :: nick ++ 33 :: mask), event.word ++ 32 :: params) :=
    strtokR_append_cons (by simp) hword rfl
  exact chanRaises_of_delivery (chanDelivery_event hsrv hwelcome hlong hfits hfirst
    (event.word_words params) (ofWord_word event)
    (chanEventSource_mask hbang hnick hmask _) htarget)

end Sourced

/-! ## JOIN, PART and INVITE -/

/-- What somebody does with a channel, and what the command needs beside
the channel. -/
inductive Membership where
  | join
  | part (reason : Str)
  | invite (invited : Str)
  deriving DecidableEq, Repr

def Membership.event : Membership → ChanEvent
  | .join => .join
  | .part _ => .part
  | .invite _ => .invite

/-- `c`, `c :reason`, `invited c`. -/
def Membership.params (c : Str) : Membership → Str
  | .join => c
  | .part reason => c ++ 32 :: 58 :: reason
  | .invite invited => invited ++ 32 :: c

/-- A reason of one word and one blank loses the blank. -/
def deliveredReason (reason : Str) : Str :=
  if reason.getLast? = some 32 ∧ 32 ∉ reason.dropLast then reason.dropLast else reason

def Membership.reason : Membership → Option Str
  | .join => none
  | .part reason => some (deliveredReason reason)
  | .invite _ => none

/-- Who is invited is a word. -/
def Membership.Valid : Membership → Prop
  | .invite invited => invited ≠ [] ∧ 32 ∉ invited
  | _ => True

theorem deliveredReason_word {word : Str} (hword : 32 ∉ word) : deliveredReason word = word := by
  refine if_neg fun h => hword ?_
  exact List.mem_of_getLast? h.1

theorem deliveredReason_cons {word : Str} (hword : 32 ∉ word) (rest : Str) :
    deliveredReason (word ++ 32 :: rest) =
      word ++ if rest.length > 0 then 32 :: rest else [] := by
  unfold deliveredReason
  cases rest with
  | nil =>
      rw [if_pos ⟨by simp, by simpa using hword⟩]
      simp
  | cons c rest =>
      rw [if_neg, if_pos (by simp)]
      rintro ⟨-, hnot⟩
      refine hnot ?_
      rw [List.dropLast_append_of_ne_nil (List.cons_ne_nil _ _),
        List.dropLast_cons_of_ne_nil (List.cons_ne_nil _ _)]
      simp

/-- The token loop puts the reason together again, but for its last blank. -/
theorem chanEventReason_part (reason : Str) :
    ∃ token save, strtokR isSpace (58 :: reason) = (some token, save) ∧
      chanEventReason .part token save = deliveredReason reason := by
  have hfree := takeWhile_not_delim isSpace reason
  have hword : 32 ∉ reason.takeWhile (!isSpace ·) := fun hmem => by
    cases hfree 32 hmem
  have htoken : ∀ c ∈ 58 :: reason.takeWhile (!isSpace ·), isSpace c = false :=
    List.forall_mem_cons.mpr ⟨rfl, hfree⟩
  rcases takeWhile_append_tail isSpace reason with ⟨hall, -⟩ | ⟨d, hd, hcut⟩
  · rw [← hall] at htoken hword
    refine ⟨58 :: reason, [], strtokR_word (List.cons_ne_nil _ _) htoken, ?_⟩
    rw [deliveredReason_word hword]
    simp [chanEventReason]
  · obtain rfl : d = 32 := by simpa [isSpace] using hd
    refine ⟨58 :: reason.takeWhile (!isSpace ·), (reason.dropWhile (!isSpace ·)).tail, ?_, ?_⟩
    · refine (congrArg (fun s => strtokR isSpace (58 :: s)) hcut).trans ?_
      exact strtokR_append_cons (List.cons_ne_nil _ _) htoken rfl
    · refine Eq.trans ?_ (congrArg deliveredReason hcut).symm
      rw [deliveredReason_cons hword]
      rfl

theorem membership_target {c : Str} (hc : c ≠ []) (hblank : 32 ∉ c) {m : Membership}
    (hm : m.Valid) {srv chan : Nat} {w w' : World}
    (hchan : getOrCreateChannel c srv w = .ok chan w') :
    chanEventTarget m.event srv (m.params c) w = .ok (some chan, m.reason) w' := by
  have hfree := isSpace_of_not_mem hblank
  unfold chanEventTarget
  cases m with
  | join =>
      have hcut : strtokR isSpace (Membership.join.params c) = (some c, []) :=
        strtokR_word hc hfree
      rw [hcut]
      simp only [Membership.event]
      rw [bind_ok hchan]
      rfl
  | part reason =>
      have hcut : strtokR isSpace ((Membership.part reason).params c) =
          (some c, 58 :: reason) := strtokR_append_cons hc hfree rfl
      obtain ⟨token, save, hnext, hreason⟩ := chanEventReason_part reason
      rw [hcut]
      simp only [Membership.event]
      rw [bind_ok hchan, hnext]
      simp only
      rw [hreason]
      rfl
  | invite invited =>
      have hcut : strtokR isSpace ((Membership.invite invited).params c) = (some invited, c) :=
        strtokR_append_cons hm.1 (isSpace_of_not_mem hm.2) rfl
      rw [hcut]
      simp only [Membership.event]
      rw [bind_ok hchan]
      rfl

/-- Each raises one event, its own, with the nick, the mask, the record of
the channel on that server, and the reason of a PART. -/
theorem membership_raised {w : World} {srv : Nat} {record : Server}
    (hsrv : w.servers[srv]? = some record) (hwelcome : record.motdSent ≠ 0)
    {nick mask c : Str} (hbang : 33 ∉ nick) (hnick : 32 ∉ nick) (hmask : 32 ∉ mask)
    (hc : c ≠ []) (hblank : 32 ∉ c) {m : Membership} (hm : m.Valid)
    (hlong : 20 ≤ (sourcedLine nick mask m.event (m.params c)).length)
    (hfits : (sourcedLine nick mask m.event (m.params c)).length < 1024) :
    ∃ chan w', ChanRaises w w' srv (sourcedLine nick mask m.event (m.params c)) m.event
        [.channel chan, .str nick, .str mask, m.reason.elim .null .str] ∧
      lookup channelKey (c, srv) w'.channelList = some chan := by
  obtain ⟨chan, w', hchan⟩ := getOrCreateChannel_ok c srv w
  exact ⟨chan, w', sourcedLine_raises hsrv hwelcome hbang hnick hmask hlong hfits
    (membership_target hc hblank hm hchan), getOrCreateChannel_found hchan⟩

/-- The blank after the two words of `see you ` is delivered. -/
theorem membership_raised_sample :
    ∃ chan w', ChanRaises welcomedWorld w' 0
        (sourcedLine (ascii "a") (ascii "u@host.org") .part
          ((Membership.part (ascii "see you ")).params (ascii "#chan"))) .part
        [.channel chan, .str (ascii "a"), .str (ascii "u@host.org"), .str (ascii "see you ")] ∧
      lookup channelKey (ascii "#chan", 0) w'.channelList = some chan :=
  membership_raised (m := .part (ascii "see you "))
    (rfl : welcomedWorld.servers[0]? = some welcomedServer) (by decide) (by decide) (by decide)
    (by decide) (by decide) (by decide) trivial (by decide) (by decide)

/-! ## KICK -/

/-- `c victim :reason`. -/
def kickParams (c victim reason : Str) : Str := c ++ 32 :: (victim ++ 32 :: 58 :: reason)

/-- The kicked user is where `remove_user` and `on_kick` look for who has
left, and the reason where `on_kick` looks for it. -/
def KickCarried (w : World) (srv : Nat) (line victim reason : Str) : Prop :=
  ∃ args w', ChanRaises w w' srv line .kick args ∧ args[1]? = some (.str victim) ∧
    args[3]? = some (.str reason)

theorem kick_target {c victim : Str} (hc : c ≠ []) (hblank : 32 ∉ c) (hv : victim ≠ [])
    (hvblank : 32 ∉ victim) (reason : Str) {srv chan : Nat} {w w' : World}
    (hchan : getOrCreateChannel c srv w = .ok chan w') :
    chanEventTarget .kick srv (kickParams c victim reason) w =
      .ok (some chan, some (victim.tail ++ 32 :: 58 :: reason)) w' := by
  have hcut : strtokR isSpace (kickParams c victim reason) =
      (some c, victim ++ 32 :: 58 :: reason) :=
    strtokR_append_cons hc (isSpace_of_not_mem hblank) rfl
  have hnext : strtokR isSpace (victim ++ 32 :: 58 :: reason) = (some victim, 58 :: reason) :=
    strtokR_append_cons hv (isSpace_of_not_mem hvblank) rfl
  unfold chanEventTarget
  rw [hcut]
  simp only
  rw [bind_ok hchan, hnext]
  rfl

section Kick

variable {w : World} {srv : Nat} {record : Server} {op mask c victim reason : Str}

/-- The nick is the operator's. -/
theorem kick_raised (hsrv : w.servers[srv]? = some record) (hwelcome : record.motdSent ≠ 0)
    (hbang : 33 ∉ op) (hop : 32 ∉ op) (hmask : 32 ∉ mask) (hc : c ≠ []) (hblank : 32 ∉ c)
    (hv : victim ≠ []) (hvblank : 32 ∉ victim)
    (hlong : 20 ≤ (sourcedLine op mask .kick (kickParams c victim reason)).length)
    (hfits : (sourcedLine op mask .kick (kickParams c victim reason)).length < 1024) :
    ∃ chan w', ChanRaises w w' srv (sourcedLine op mask .kick (kickParams c victim reason)) .kick
      [.channel chan, .str op, .str mask, .str (victim.tail ++ 32 :: 58 :: reason)] := by
  obtain ⟨chan, w', hchan⟩ := getOrCreateChannel_ok c srv w
  exact ⟨chan, w', sourcedLine_raises hsrv hwelcome hbang hop hmask hlong hfits
    (kick_target hc hblank hv hvblank reason hchan)⟩

/-- No KICK is carried: the reason is never the text after the colon, and
the user is the victim for who kicks himself only. -/
theorem kick_not_carried (hsrv : w.servers[srv]? = some record) (hwelcome : record.motdSent ≠ 0)
    (hbang : 33 ∉ op) (hop : 32 ∉ op) (hmask : 32 ∉ mask) (hc : c ≠ []) (hblank : 32 ∉ c)
    (hv : victim ≠ []) (hvblank : 32 ∉ victim)
    (hlong : 20 ≤ (sourcedLine op mask .kick (kickParams c victim reason)).length)
    (hfits : (sourcedLine op mask .kick (kickParams c victim reason)).length < 1024) :
    ¬ KickCarried w srv (sourcedLine op mask .kick (kickParams c victim reason)) victim reason ∧
      ((∃ args w', ChanRaises w w' srv
          (sourcedLine op mask .kick (kickParams c victim reason)) .kick args ∧
          args[1]? = some (.str victim)) ↔ op = victim) := by
  obtain ⟨chan, w', hraised⟩ :=
    kick_raised hsrv hwelcome hbang hop hmask hc hblank hv hvblank hlong hfits
  constructor
  · rintro ⟨args, w'', hraises, -, hreason⟩
    obtain ⟨-, rfl⟩ := hraises.unique hraised
    have heq : victim.tail ++ 32 :: 58 :: reason = reason := by simpa using hreason
    have hlen := congrArg List.length heq
    simp only [List.length_append, List.length_cons] at hlen
    omega
  · constructor
    · rintro ⟨args, w'', hraises, huser⟩
      obtain ⟨-, rfl⟩ := hraises.unique hraised
      simpa using huser
    · rintro rfl
      exact ⟨_, w', hraised, rfl⟩

end Kick

/-- `op` kicks `bob`: the event says that `op` has left, for the reason
`ob :bye`. -/
theorem kick_not_carried_sample :
    ¬ KickCarried welcomedWorld 0
        (sourcedLine (ascii "op") (ascii "o@host") .kick
          (kickParams (ascii "#chan") (ascii "bob") (ascii "bye"))) (ascii "bob") (ascii "bye") ∧
      ((∃ args w', ChanRaises welcomedWorld w' 0
          (sourcedLine (ascii "op") (ascii "o@host") .kick
            (kickParams (ascii "#chan") (ascii "bob") (ascii "bye"))) .kick args ∧
          args[1]? = some (.str (ascii "bob"))) ↔ ascii "op" = ascii "bob") :=
  kick_not_carried (rfl : welcomedWorld.servers[0]? = some welcomedServer)
    (by decide) (by decide) (by decide) (by decide) (by decide) (by decide) (by decide) (by decide)
    (by decide) (by decide)

theorem kick_misread :
    ¬ KickCarried welcomedWorld 0 (ascii ":op!o@host KICK #chan bob :bye") (ascii "bob")
      (ascii "bye") := by
  rintro ⟨args, w', hraises, huser, -⟩
  obtain ⟨chan, w'', hraised⟩ : ∃ chan w'', ChanRaises welcomedWorld w'' 0
      (sourcedLine (ascii "op") (ascii "o@host") .kick
        (kickParams (ascii "#chan") (ascii "bob") (ascii "bye"))) .kick
      [.channel chan, .str (ascii "op"), .str (ascii "o@host"), .str (ascii "ob :bye")] :=
    kick_raised (rfl : welcomedWorld.servers[0]? = some welcomedServer) (by decide) (by decide)
      (by decide) (by decide) (by decide) (by decide) (by decide) (by decide) (by decide)
      (by decide)
  obtain ⟨-, rfl⟩ := hraises.unique hraised
  cases huser

end Bcirc
