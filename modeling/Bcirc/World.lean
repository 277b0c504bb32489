import Bcirc.PluginHandler

/-!
# The state of the bot beside the plugin registry

The records behind `server *` and `channel *` (`headers/server.h`,
`headers/channel.h`) and the outside world. A pointer to a record is its
position in the list of all records; records are never freed while the
bot handles lines.

Whatever the outside answers is read from scripts: the results of
`send`, the configuration file, `urls.txt`, the transfers of curl, the
results of `pthread_create`, the clock. `sends` are the calls of `send`.
-/

namespace Bcirc

open CProg CStr

/-- What a callback finds behind one of its `void *` parameters. -/
inductive Arg where
  | null
  | server (srv : Nat)
  | channel (chan : Nat)
  | int (n : Int)
  | str (s : Str)
  deriving DecidableEq, Repr

structure Server where
  networkName : Str
  host : Str
  pass : Option Str
  realname : Str
  username : Str
  nick : Str
  altNick : Str
  motdSent : Int
  timeConnected : Int
  rejoinTries : Int
  sentLen : Int
  recvdLen : Int
  deriving DecidableEq, Repr

structure Channel where
  name : Str
  key : Option Str
  modes : Option Str
  topic : Option (List UInt8)
  topicCreatedTime : Int
  topicCreator : Option Str
  users : Option Str
  srv : Nat
  deriving DecidableEq, Repr

/-- The settings `autojoin_channels` looks up in `bcirc.conf`. -/
structure ChannelConfig where
  chanName : Option Str
  chanKey : Option Str
  deriving DecidableEq, Repr

structure ServerConfig where
  networkName : Option Str
  channels : Option (List ChannelConfig)
  deriving DecidableEq, Repr

/-- One `curl_easy_perform`: the chunks handed to `write_callback`, each
with the response code at that moment, and whether it returns `CURLE_OK`. -/
structure Transfer where
  chunks : List (Int × List UInt8)
  ok : Bool
  deriving DecidableEq, Repr

/-- `bcirc.conf`: unreadable, or without `servers`, or a list of these. -/
inductive Config where
  | unreadable
  | noServers
  | servers (list : List ServerConfig)
  deriving DecidableEq, Repr

/-- A call of `send` on the socket of a server, and what it returned. -/
structure SendCall where
  srv : Nat
  buf : Str
  res : Int
  deriving DecidableEq, Repr

structure World where
  servers : List Server
  channelList : List Channel
  sends : List SendCall
  privmsgQueue : List (Str × Str × Nat)
  rejoining : List Nat
  urls : Option Str
  hasFilter : Bool
  urlsFile : Option Str
  urlsWritable : Bool
  config : Config
  sendResults : List Int
  transfers : List Transfer
  curlInits : List Bool
  threadResults : List Bool
  clock : Int
  deriving DecidableEq, Repr

variable {φ : Type}

/-- A function that leaves the plugin registry alone. -/
def onWorld {α : Type} (m : Prog World α) : Prog (Bot φ World) α := fun bot =>
  match m bot.world with
  | .ok a w => .ok a { bot with world := w }
  | .error e w => .error e { bot with world := w }

/-! ## Reading and writing records -/

def getServer (srv : Nat) : Prog World Server := do
  let w ← get
  orFault .nullPointer w.servers[srv]?

def setServer (srv : Nat) (f : Server → Server) : Prog World Unit :=
  modify fun w => { w with servers := w.servers.modify srv f }

def getChannelRecord (chan : Nat) : Prog World Channel := do
  let w ← get
  orFault .nullPointer w.channelList[chan]?

def setChannel (chan : Nat) (f : Channel → Channel) : Prog World Unit :=
  modify fun w => { w with channelList := w.channelList.modify chan f }

/-! ## Reading parameters -/

def param {σ : Type} (params : List Arg) (i : Nat) : Prog σ Arg :=
  orFault .outOfBounds params[i]?

/-- A parameter taken for a `server *`, which may be `NULL`. -/
def Arg.toServer {σ : Type} : Arg → Prog σ (Option Nat)
  | .null => pure none
  | .server srv => pure (some srv)
  | _ => throw .outOfBounds

def Arg.toChannel {σ : Type} : Arg → Prog σ (Option Nat)
  | .null => pure none
  | .channel chan => pure (some chan)
  | _ => throw .outOfBounds

def Arg.toStr {σ : Type} : Arg → Prog σ (Option Str)
  | .null => pure none
  | .str s => pure (some s)
  | _ => throw .outOfBounds

def Arg.toInt {σ : Type} : Arg → Prog σ (Option Int)
  | .null => pure none
  | .int n => pure (some n)
  | _ => throw .outOfBounds

/-- A pointer that is dereferenced. -/
def deref {σ α : Type} : Option α → Prog σ α := orFault .nullPointer

/-! ## The world and the registry -/

section OnWorld

variable {α : Type}

theorem onWorld_ok {m : Prog World α} {bot : Bot φ World} {a : α} {w : World}
    (h : m bot.world = .ok a w) : onWorld m bot = .ok a { bot with world := w } := by
  unfold onWorld
  rw [h]

theorem onWorld_bind {β : Type} (m : Prog World α) (f : α → Prog World β) :
    (onWorld (m >>= f) : Prog (Bot φ World) β) = onWorld m >>= fun a => onWorld (f a) := by
  funext bot
  cases hm : m bot.world with
  | error e w =>
      have hfirst : (onWorld m : Prog (Bot φ World) α) bot = .error e { bot with world := w } := by
        unfold onWorld
        rw [hm]
      rw [bind_error hfirst]
      unfold onWorld
      rw [bind_error hm]
  | ok a w =>
      rw [bind_ok (onWorld_ok hm)]
      unfold onWorld
      rw [bind_ok hm]

theorem of_onWorld_ok {m : Prog World α} {bot bot' : Bot φ World} {a : α}
    (h : onWorld m bot = .ok a bot') :
    ∃ w, m bot.world = .ok a w ∧ bot' = { bot with world := w } := by
  unfold onWorld at h
  split at h
  · rename_i a' w hrun
    cases h
    exact ⟨w, hrun, rfl⟩
  · cases h

theorem getServer_ok {w : World} {srv : Nat} {record : Server}
    (h : w.servers[srv]? = some record) : getServer srv w = .ok record w := by
  unfold getServer
  rw [get_bind_run, h]
  rfl

theorem of_getServer_ok {w w' : World} {srv : Nat} {record : Server}
    (h : getServer srv w = .ok record w') : w.servers[srv]? = some record ∧ w' = w := by
  unfold getServer at h
  rw [get_bind_run] at h
  cases hrecord : w.servers[srv]? with
  | none =>
      rw [hrecord] at h
      cases h
  | some r =>
      rw [hrecord] at h
      cases h
      exact ⟨rfl, rfl⟩

/-- A function of the world keeps what is known of the registry, and its
results are the ones it has as a function of the world. -/
theorem Ensures.onWorld {I : Bot φ World → Prop} {m : Prog World α} {Q : α → Prop}
    (hI : ∀ bot w, I bot → I { bot with world := w })
    (hm : Ensures (fun _ => True) m Q) : Ensures I (onWorld m) Q := by
  intro bot hbot
  have hw := (hm bot.world trivial).2
  unfold Bcirc.onWorld
  cases hrun : m bot.world with
  | ok a w =>
      refine ⟨hI bot w hbot, fun b s hb => ?_⟩
      cases hb
      exact hw a w hrun
  | error e w =>
      refine ⟨hI bot w hbot, fun b s hb => ?_⟩
      cases hb

end OnWorld

/-! ## A bot on one network -/

def sampleServer : Server where
  networkName := ascii "net"
  host := ascii "irc.net"
  pass := none
  realname := ascii "bot"
  username := ascii "bot"
  nick := ascii "bot"
  altNick := ascii "alt"
  motdSent := 0
  timeConnected := 0
  rejoinTries := 0
  sentLen := 0
  recvdLen := 0

def sampleWorld : World where
  servers := [sampleServer]
  channelList := []
  sends := []
  privmsgQueue := []
  rejoining := []
  urls := none
  hasFilter := false
  urlsFile := none
  urlsWritable := true
  config := .noServers
  sendResults := []
  transfers := []
  curlInits := []
  threadResults := []
  clock := 0

end Bcirc
