import Bcirc.World

/-!
# Channel records (`src/channel.c`)

`channel_list` only grows, and a record is found by its name and server.
The users of a channel are one string, names separated by blanks.
Freshly allocated memory is read as an empty string.
-/

namespace Bcirc

open CProg CStr

def isSpace (c : UInt8) : Bool := c == 32

theorem isSpace_eq_false {c : UInt8} : isSpace c = false ↔ c ≠ 32 := by
  simp [isSpace]

theorem isSpace_of_not_mem {s : Str} (hs : 32 ∉ s) : ∀ c ∈ s, isSpace c = false := by
  intro c hc
  have hne : c ≠ 32 := fun heq => hs (heq ▸ hc)
  exact isSpace_eq_false.mpr hne

/-- The channel of that name on that server, as its position. -/
def getChannel (chanName : Str) (srv : Nat) : Prog World (Option Nat) := do
  let w ← get
  pure (w.channelList.findIdx? fun chan => chan.name == chanName && chan.srv == srv)

def createChannel (chanName : Str) (srv : Nat) : Prog World Nat := do
  let w ← get
  let newChannel : Channel :=
    { name := chanName, key := none, modes := none, topic := none, topicCreatedTime := 0,
      topicCreator := none, users := none, srv }
  modify fun w => { w with channelList := w.channelList ++ [newChannel] }
  pure w.channelList.length

/-- `get_channel`, and `create_channel` when there is none. -/
def getOrCreateChannel (chanName : Str) (srv : Nat) : Prog World Nat := do
  match ← getChannel chanName srv with
  | some chan => pure chan
  | none => createChannel chanName srv

/-- The token loop of `remove_user`. `strtok_r` has cut `chan->users` after
its first token when the loop looks at it: a token that is `nick` is looked
at again for ever; any other one leaves the blanks before it, none of them
in the usual case, and else bytes in front of the array are read. -/
def removeUserLoop (users nick : Str) : Except Fault (Option Str) :=
  match strtokR isSpace users with
  | (none, _) => .ok none
  | (some token, _) =>
      if token = nick then .error .diverges
      else if (users.takeWhile isSpace).length = 0 then .ok none
      else .error .outOfBounds

def removeUser (params : List Arg) : Prog World Int := do
  let chan ← (← param params 0).toChannel
  let nick ← (← param params 1).toStr
  match chan, nick with
  | some chan, some nick => do
      let record ← getChannelRecord chan
      match record.users with
      | none => throw .uninitialized
      | some users => do
          let newUsers ← liftExcept (removeUserLoop users nick)
          setChannel chan fun c => { c with users := newUsers }
          pure bcircPluginOk
  | _, _ => pure bcircPluginBreak

def getChannelUsers (chan : Nat) (buffer : Str) : Prog World Int := do
  let colon ← deref (memchr buffer.tail 58)
  let users := buffer.tail.drop (colon + 1)
  setChannel chan fun c => { c with users := some (c.users.getD [] ++ users) }
  pure bcircPluginOk

end Bcirc
