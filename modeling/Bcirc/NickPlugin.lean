import Bcirc.IrcCmds
import Bcirc.Channel

/-!
# The nick plugin (`plugins/src/nick/nick.c`)

A message `!nick name` makes the bot ask for that nick. `raise` is
`execute_callbacks`.
-/

namespace Bcirc.NickPlugin

open CProg CStr

variable {φ : Type} (raise : Str → List Arg → Prog (Bot φ World) Int)

/-- `msg` has room for 512 bytes, the terminator included. -/
def handleNick (params : List Arg) : Prog (Bot φ World) Int := do
  if params.any (· == .null) then return bcircPluginFail
  let srv ← deref (← (← param params 0).toServer)
  let msg ← deref (← (← param params 4).toStr)
  if 512 ≤ msg.length then throw .outOfBounds
  match strtokR isSpace msg with
  | (none, _) => pure bcircPluginOk
  | (some nickToken, save) => do
      if nickToken = ascii "!nick" then
        match strtokR isSpace save with
        | (none, _) => pure bcircPluginOk
        | (some nickToken, _) => do
            let _ ← nick raise nickToken srv
            pure bcircPluginOk
      else pure bcircPluginOk

/-- On the parameters `got_privmsg` passes. -/
theorem handleNick_message (srv : Nat) (nick hostmask target : Arg) (msg : Str) :
    handleNick raise [.server srv, nick, hostmask, target, .str msg] =
      if [Arg.server srv, nick, hostmask, target, .str msg].any (· == .null) then
        pure bcircPluginFail
      else if 512 ≤ msg.length then throw .outOfBounds
      else
        match strtokR isSpace msg with
        | (none, _) => pure bcircPluginOk
        | (some nickToken, save) =>
          if nickToken = ascii "!nick" then
            match strtokR isSpace save with
            | (none, _) => pure bcircPluginOk
            | (some nickToken, _) => do
                let _ ← Bcirc.nick raise nickToken srv
                pure bcircPluginOk
          else pure bcircPluginOk := rfl

end Bcirc.NickPlugin
