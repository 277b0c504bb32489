import Bcirc.Channel

/-!
# The channel handler plugin
(`plugins/src/channel-handler/channelhandler.c`)

Keeps topic and users of a channel as the numerics report them. The array
`buffer` of `get_channel_info` is one byte short of what is copied into
it; it is given that byte here.
-/

namespace Bcirc

open CProg CStr

def rplTopic : Int := 332
def rplTopicwhotime : Int := 333
def rplNamreply : Int := 353
def rplEndofnames : Int := 366

/-- `title_len` bytes are copied from behind the colon, as many as there
are before it. -/
def getChannelTitle (chan : Nat) (buffer : Str) : Prog World Int := do
  let colon ← deref (memchr buffer.tail 58)
  let titleLen := colon + 1
  if buffer.length + 1 < titleLen + 1 + titleLen then throw .outOfBounds
  setChannel chan fun c =>
    { c with topic := some (((buffer ++ [0]).drop (titleLen + 1)).take titleLen) }
  pure bcircPluginOk

def getChannelTitleInfo (chan : Nat) (buffer : Str) : Prog World Int := do
  let infoStart ← deref (memchr buffer 35)
  match (tokens isSpace (buffer.drop infoStart)).drop 1 with
  | [] => pure bcircPluginOk
  | [topicCreator] => do
      setChannel chan fun c => { c with topicCreator := some topicCreator }
      pure bcircPluginOk
  | topicCreator :: createdTime :: _ => do
      setChannel chan fun c =>
        { c with topicCreator := some topicCreator, topicCreatedTime := atoi createdTime }
      pure bcircPluginOk

/-- The name from the first `#` to the blank that must follow it. -/
def channelName (buffer : Str) : Except Fault Str :=
  match memchr buffer 35 with
  | none => .error .nullPointer
  | some nameStart =>
    match memchr (buffer.drop nameStart) 32 with
    | none => .error .outOfBounds
    | some len => .ok ((buffer.drop nameStart).take len)

def getChannelInfo (params : List Arg) : Prog World Int := do
  let srv ← (← param params 0).toServer
  let numeric ← deref (← (← param params 1).toInt)
  let buffer ← deref (← (← param params 2).toStr)
  if numeric ≠ rplTopic ∧ numeric ≠ rplEndofnames ∧ numeric ≠ rplTopicwhotime ∧
      numeric ≠ rplNamreply then
    pure bcircPluginOk
  else do
    let chanName ← liftExcept (channelName buffer)
    match srv with
    | none => pure bcircPluginOk -- `create_channel` returns `NULL`
    | some srv => do
      let thisChannel ← getOrCreateChannel chanName srv
      if numeric = rplTopic then getChannelTitle thisChannel buffer
      else if numeric = rplTopicwhotime then getChannelTitleInfo thisChannel buffer
      else if numeric = rplNamreply then getChannelUsers thisChannel buffer
      else pure bcircPluginFail

end Bcirc
