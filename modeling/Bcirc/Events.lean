import Bcirc.Channel

/-!
# The event handler plugin (`plugins/src/events-handler/events.c`)

The three callbacks of `server_recv` that cut a line into its words and
raise the events the other plugins are written for. `raise` is
`execute_callbacks`. The array `buf` of `get_privmsg` is one byte short of
what is copied into it; it is given that byte here.
-/

namespace Bcirc

open CProg CStr

def isFulldigit (str : Str) : Bool := str.all isDigit

/-! ## Private messages -/

/-- What the loop of `get_privmsg` makes of a line: a code to return at
once, or the nick, the hostmask and the target as far as there are any, and
what is left of the line. -/
inductive PrivmsgParse where
  | ret (code : Int)
  | message (nick hostmask target : Option Str) (save : Str)
  deriving DecidableEq, Repr

def isBang (c : UInt8) : Bool := c == 33

/-- The first word, `:nick!mask`; the nick starts after its first byte. -/
def nickAndMask (str : Str) : Except Int (Str × Str) :=
  match strtokR isBang str with
  | (none, _) => .error bcircPluginOk
  | (some nickPart, maskPart) =>
      if maskPart.length = 0 then .error bcircPluginContinue
      else .ok (nickPart.tail, maskPart)

def parsePrivmsg (buf : Str) : PrivmsgParse :=
  match strtokR isSpace buf with
  | (none, save) => .message none none none save
  | (some str, save) =>
    match nickAndMask str with
    | .error code => .ret code
    | .ok (nick, hostmask) =>
      match strtokR isSpace save with
      | (none, save) => .message (some nick) (some hostmask) none save
      | (some str, save) =>
        if str ≠ ascii "PRIVMSG" then .ret bcircPluginOk
        else
          match strtokR isSpace save with
          | (none, save) => .message (some nick) (some hostmask) none save
          | (some target, save) => .message (some nick) (some hostmask) (some target) save

def getPrivmsg {σ : Type} (raise : Str → List Arg → Prog σ Int) (params : List Arg) :
    Prog σ Int := do
  let srv ← param params 0
  let buf ← deref (← (← param params 1).toStr)
  match strstr buf (ascii "PRIVMSG") with
  | none => pure bcircPluginOk
  | some _ =>
    match parsePrivmsg buf with
    | .ret code => pure code
    | .message nick hostmask target save => do
        let msg := save.tail
        let _ ← raise callbackGotPrivmsg
          [srv, nick.elim .null .str, hostmask.elim .null .str, target.elim .null .str,
            .str msg]
        pure bcircPluginOk

/-- On the parameters `server_recv` passes. -/
theorem getPrivmsg_str {σ : Type} (raise : Str → List Arg → Prog σ Int) (srv : Nat)
    (line : Str) :
    getPrivmsg raise [.server srv, .str line] =
      (match strstr line (ascii "PRIVMSG") with
      | none => pure bcircPluginOk
      | some _ =>
        match parsePrivmsg line with
        | .ret code => pure code
        | .message nick hostmask target save => do
            let _ ← raise callbackGotPrivmsg
              [.server srv, nick.elim .null .str, hostmask.elim .null .str,
                target.elim .null .str, .str save.tail]
            pure bcircPluginOk) := rfl

/-! ## Numerics -/

def getNumeric {σ : Type} (raise : Str → List Arg → Prog σ Int) (params : List Arg) :
    Prog σ Int := do
  let srv ← (← param params 0).toServer
  let buffer ← deref (← (← param params 1).toStr)
  match srv with
  | none => pure bcircPluginOk
  | some srv =>
    match strtokR isSpace buffer with
    | (none, _) => pure bcircPluginOk
    | (some _, save) =>
      match strtokR isSpace save with
      | (none, _) => pure bcircPluginOk
      | (some word, _) => do
          if isFulldigit word then
            let _ ← raise callbackGotNumeric [.server srv, .int (atoi word), .str buffer]
          pure bcircPluginOk

/-- The numeric of a line, if its second word is one. -/
def numericOf (line : Str) : Option Int :=
  match strtokR isSpace line with
  | (none, _) => none
  | (some _, save) =>
    match strtokR isSpace save with
    | (none, _) => none
    | (some word, _) => if isFulldigit word then some (atoi word) else none

/-- On the parameters `server_recv` passes. -/
theorem getNumeric_str {σ : Type} (raise : Str → List Arg → Prog σ Int) (srv : Nat)
    (line : Str) :
    getNumeric raise [.server srv, .str line] =
      (match numericOf line with
      | none => pure bcircPluginOk
      | some numeric => do
          let _ ← raise callbackGotNumeric [.server srv, .int numeric, .str line]
          pure bcircPluginOk) := by
  show (match strtokR isSpace line with
    | (none, _) => pure bcircPluginOk
    | (some _, save) =>
      match strtokR isSpace save with
      | (none, _) => pure bcircPluginOk
      | (some word, _) => do
          if isFulldigit word then
            let _ ← raise callbackGotNumeric [.server srv, .int (atoi word), .str line]
          pure bcircPluginOk : Prog σ Int) = _
  unfold numericOf
  split
  · rfl
  · split
    · rfl
    · split
      · rfl
      · rfl

/-! ## Channel events -/

inductive ChanEvent where
  | join
  | kick
  | part
  | quit
  | invite
  deriving DecidableEq, Repr

def ChanEvent.ofWord (token : Str) : Option ChanEvent :=
  if token = ascii "JOIN" then some .join
  else if token = ascii "KICK" then some .kick
  else if token = ascii "PART" then some .part
  else if token = ascii "QUIT" then some .quit
  else if token = ascii "INVITE" then some .invite
  else none

def ChanEvent.callback : ChanEvent → Str
  | .join => callbackChannelJoin
  | .kick => callbackChannelKick
  | .part => callbackChannelPart
  | .quit => callbackChannelQuit
  | .invite => callbackChannelInvite

/-- `nick` and `hostmask`, cut from the line with pointer arithmetic: the
lengths are `size_t`, a negative one is a copy that leaves the line. `none`
is `Can't find end of nick`. -/
def chanEventSource (bufOrig : Str) : Except Fault (Option (Str × Str)) :=
  match memchr bufOrig 33 with
  | none => .ok none
  | some nickEnd =>
    if nickEnd = 0 then .error .outOfBounds
    else
      match memchr bufOrig 32 with
      | none => .ok none
      | some maskEnd =>
        if maskEnd ≤ nickEnd then .error .outOfBounds
        else
          .ok (some ((bufOrig.drop 1).take (nickEnd - 1),
            (bufOrig.drop (nickEnd + 1)).take (maskEnd - nickEnd - 1)))

def chanEventReason (event : ChanEvent) (token save : Str) : Str :=
  (if event ≠ .quit then token.tail else token) ++
    (if save.length > 0 then ascii " " ++ save else [])

/-- Rounds 2 and 3 of the loop, on what is left of the line after the
command: the channel and the reason. A `continue` in round 2 goes on to
round 3 with the same token. -/
def chanEventTarget (event : ChanEvent) (srv : Nat) (save : Str) :
    Prog World (Option Nat × Option Str) :=
  match strtokR isSpace save with
  | (none, _) => pure (none, none)
  | (some token, save) =>
    match event with
    | .invite => do
        let chan ← getOrCreateChannel save srv
        pure (some chan, none)
    | .quit => do
        match ← getChannel token srv with
        | none => pure (none, some (chanEventReason .quit token save))
        | some chan =>
          match strtokR isSpace save with
          | (none, _) => pure (some chan, none)
          | (some token, save) => pure (some chan, some (chanEventReason .quit token save))
    | event => do
        let chan ← getOrCreateChannel token srv
        match strtokR isSpace save with
        | (none, _) => pure (some chan, none)
        | (some token, save) => pure (some chan, some (chanEventReason event token save))

section Raise

variable {φ : Type} (raise : Str → List Arg → Prog (Bot φ World) Int)

def raiseChanEvent (event : ChanEvent) (chan : Option Nat) (nick hostmask reason : Option Str) :
    Prog (Bot φ World) Int := do
  let _ ← raise event.callback
    [chan.elim .null .channel, nick.elim .null .str, hostmask.elim .null .str,
      reason.elim .null .str]
  pure bcircPluginOk

/-- `CHAN_JOIN` is what `event_type` starts as. -/
def getChanEvent (params : List Arg) : Prog (Bot φ World) Int := do
  let srv ← (← param params 0).toServer
  let str ← (← param params 1).toStr
  match srv, str with
  | some srv, some str => do
      let bufLen := str.length + 1
      if bufLen ≤ 20 then return bcircPluginContinue
      let record ← onWorld (getServer srv)
      if record.motdSent = 0 then return 0
      if 1024 < bufLen then throw .outOfBounds
      match strtokR isSpace str with
      | (none, _) => raiseChanEvent raise .join none none none none
      | (some _, save) =>
        match strtokR isSpace save with
        | (none, _) => raiseChanEvent raise .join none none none none
        | (some token, save) =>
          match ChanEvent.ofWord token with
          | none => pure bcircPluginOk
          | some event => do
            match ← liftExcept (chanEventSource str) with
            | none => pure bcircPluginContinue
            | some (nick, hostmask) => do
              let (chan, reason) ← onWorld (chanEventTarget event srv save)
              raiseChanEvent raise event chan (some nick) (some hostmask) reason
  | _, _ => pure bcircPluginBreak

end Raise

end Bcirc
