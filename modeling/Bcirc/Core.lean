import Bcirc.IrcCmds
import Bcirc.Channel
import Bcirc.ServerRecv

/-!
# The core plugin (`plugins/src/core/core.c`)

Registration, the answer to PING, the alternative nick, joining the
configured channels after the welcome, and the start of the rejoin
thread. `raise` is `execute_callbacks`.
-/

namespace Bcirc

open CProg CStr

variable {φ : Type} (raise : Str → List Arg → Prog (Bot φ World) Int)

def rplWelcome : Int := 1
def errNonicknamegiven : Int := 431
def errErroneusnickname : Int := 432
def errNicknameinuse : Int := 433
def errNickcollision : Int := 436
def errUnavailresource : Int := 437

/-! ## The welcome -/

def joinChannels (srv : Nat) : List ChannelConfig → Prog (Bot φ World) Unit
  | [] => pure ()
  | channel :: channels => do
      match channel.chanName with
      | none => joinChannels srv channels
      | some channelToJoin => do
          let _ ← joinChannel raise channelToJoin channel.chanKey srv
          joinChannels srv channels

/-- `&this_server` passes for a `config_t` whose root is the server's own
setting, so `channels` is looked up there. -/
def autojoinServers (srv : Nat) : List ServerConfig → Prog (Bot φ World) Unit
  | [] => pure ()
  | thisServer :: servers => do
      let record ← onWorld (getServer srv)
      let networkName ← deref thisServer.networkName
      if record.networkName = networkName then
        match thisServer.channels with
        | none => autojoinServers srv servers
        | some channels => do
            joinChannels raise srv channels
            autojoinServers srv servers
      else autojoinServers srv servers

def autojoinChannels (srv : Nat) : Prog (Bot φ World) Unit := do
  let bot ← get
  match bot.world.config with
  | .unreadable => pure ()
  | .noServers => pure ()
  | .servers servers => autojoinServers raise srv servers

def gotIn (params : List Arg) : Prog (Bot φ World) Int := do
  let srv ← deref (← (← param params 0).toServer)
  let numeric ← deref (← (← param params 1).toInt)
  if numeric ≠ rplWelcome then pure bcircPluginContinue
  else do
    let _ ← onWorld (getServer srv)
    onWorld (setServer srv fun s => { s with motdSent := 1, rejoinTries := 0 })
    autojoinChannels raise srv
    pure bcircPluginOk

/-! ## PING -/

/-- The line itself, with its second letter made an `O`. -/
def pongLine (buf : Str) : Str := (buf ++ crlf).set 1 79

def handlePing (params : List Arg) : Prog (Bot φ World) Int := do
  let srv ← (← param params 0).toServer
  let buf ← (← param params 1).toStr
  match buf, srv with
  | some buf, some srv => do
      if buf.length < 7 then return bcircPluginContinue
      match strtokR isSpace buf with
      | (none, _) => pure bcircPluginContinue
      | (some maybePing, _) => do
          if maybePing ≠ ascii "PING" then return bcircPluginContinue
          let _ ← serverSend raise (some (pongLine buf)) srv
          pure bcircPluginOk
  | _, _ => pure bcircPluginContinue

/-! ## Registration and nicks -/

/-- `time(&srv->time_connected)`. -/
def markConnected (srv : Nat) : Prog World Unit := do
  let w ← get
  setServer srv fun s => { s with timeConnected := w.clock }

/-- `key_buf` and `username_buf`, of 512 bytes each. -/
def registrationLines (s : Server) : Except Fault (Str × Str) :=
  let keyBuf := ascii "PASS " ++ s.pass.getD (ascii "asd") ++ crlf
  let usernameBuf := ascii "USER " ++ s.realname ++ ascii " 8 * :" ++ s.username ++ crlf
  if 512 ≤ keyBuf.length ∨ 512 ≤ usernameBuf.length then .error .outOfBounds
  else .ok (keyBuf, usernameBuf)

def handleRegisteration (params : List Arg) : Prog (Bot φ World) Int := do
  match ← (← param params 0).toServer with
  | none => pure bcircPluginBreak
  | some srv => do
      let _ ← onWorld (getServer srv)
      onWorld (markConnected srv)
      let record ← onWorld (getServer srv)
      let lines ← liftExcept (registrationLines record)
      let _ ← serverSend raise (some lines.1) srv
      let _ ← serverSend raise (some lines.2) srv
      let record ← onWorld (getServer srv)
      let _ ← nick raise record.nick srv
      pure bcircPluginOk

def nickNumerics : List Int :=
  [errNonicknamegiven, errErroneusnickname, errNicknameinuse, errNickcollision,
    errUnavailresource]

/-- The nick asked for next. The buffer of `new_nick` is four bytes short;
it is given them here. -/
def nextNick (nick altNick : Str) : Str :=
  if nick ≠ altNick then altNick else nick ++ ascii "_"

def handleNick (params : List Arg) : Prog (Bot φ World) Int := do
  let srv ← deref (← (← param params 0).toServer)
  let numeric ← deref (← (← param params 1).toInt)
  let _ ← deref (← (← param params 2).toStr)
  if numeric ∉ nickNumerics then pure bcircPluginOk
  else do
    let record ← onWorld (getServer srv)
    let _ ← nick raise (nextNick record.nick record.altNick) srv
    pure bcircPluginOk

/-! ## A lost connection -/

/-- Whether `pthread_create` succeeds is up to the script. -/
def startRejoin (srv : Nat) : Prog World Bool := do
  let w ← get
  let ok := w.threadResults.headD true
  modify fun w =>
    { w with
      threadResults := w.threadResults.tail
      rejoining := if ok then w.rejoining ++ [srv] else w.rejoining }
  pure ok

def serverRejoin (params : List Arg) : Prog World Int := do
  let srv ← (← param params 0).toServer
  let reason ← (← param params 1).toInt
  match srv, reason with
  | some srv, some reason => do
      if reason = serverIntentionalDc then return bcircPluginOk
      let ok ← startRejoin srv
      pure (if ok then bcircPluginOk else bcircPluginFail)
  | _, _ => pure bcircPluginFail

end Bcirc
