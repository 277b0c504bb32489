import Bcirc.ChannelHandler
import Bcirc.Core
import Bcirc.Events
import Bcirc.Title

/-!
# The plugins of the repository

What the `plugin_init` of core, event handler, channel handler and title
plugin register, and `execute_callbacks` with their functions behind the
callbacks. The functions raise events of their own, so it is called again
from within; `depth` bounds how deep these calls are nested.
-/

namespace Bcirc

open CProg CStr

inductive Handler where
  | gotIn
  | handlePing
  | handleRegisteration
  | handleNick
  | serverRejoin
  | getPrivmsg
  | getNumeric
  | getChanEvent
  | getChannelInfo
  | removeUser
  | checkForUrl
  | addUrl
  deriving DecidableEq, Repr

def Handler.run (lib : TitleLib) (raise : Str → List Arg → Prog (Bot Handler World) Int)
    (params : List Arg) : Handler → Prog (Bot Handler World) Int
  | .gotIn => Bcirc.gotIn raise params
  | .handlePing => Bcirc.handlePing raise params
  | .handleRegisteration => Bcirc.handleRegisteration raise params
  | .handleNick => Bcirc.handleNick raise params
  | .serverRejoin => onWorld (Bcirc.serverRejoin params)
  | .getPrivmsg => Bcirc.getPrivmsg raise params
  | .getNumeric => Bcirc.getNumeric raise params
  | .getChanEvent => Bcirc.getChanEvent raise params
  | .getChannelInfo => onWorld (Bcirc.getChannelInfo params)
  | .removeUser => onWorld (Bcirc.removeUser params)
  | .checkForUrl => onWorld (Bcirc.checkForUrl lib params)
  | .addUrl => onWorld (Bcirc.addUrl params)

/-! ## What is registered -/

inductive RepoPlugin where
  | core
  | eventsHandler
  | channelHandler
  | title
  deriving DecidableEq, Repr

def registers (cbName : Str) (cbFunc : Handler) (priority : Int) : RegisterCall Handler where
  cbName := some cbName
  cbFunc := some cbFunc
  priority

/-- The calls that `plugin_init` makes. -/
def RepoPlugin.calls : RepoPlugin → List (RegisterCall Handler)
  | .core =>
      [registers callbackGotNumeric .gotIn 5,
        registers callbackServerRecv .handlePing 5,
        registers callbackServerConnected .handleRegisteration 5,
        registers callbackGotNumeric .handleNick 5,
        registers callbackServerDisconnected .serverRejoin 5]
  | .eventsHandler =>
      [registers callbackServerRecv .getPrivmsg 3,
        registers callbackServerRecv .getNumeric 3,
        registers callbackServerRecv .getChanEvent 2]
  | .channelHandler =>
      [registers callbackGotNumeric .getChannelInfo 10,
        registers callbackChannelKick .removeUser 10,
        registers callbackChannelPart .removeUser 10,
        registers callbackChannelQuit .removeUser 10]
  | .title =>
      [registers callbackGotPrivmsg .checkForUrl 20,
        registers callbackGotPrivmsg .addUrl 20]

def RepoPlugin.pluginName : RepoPlugin → Str
  | .core => ascii "BCIRC-Core plugin"
  | .eventsHandler => ascii "BCIRC-Core - Event handler"
  | .channelHandler => ascii "Channelhanbdler"
  | .title => ascii "Title announcer"

def RepoPlugin.pluginVersion : RepoPlugin → Str
  | .core => ascii "0.1"
  | .eventsHandler => ascii "1.0"
  | .channelHandler => ascii "1.0"
  | .title => ascii "0.1"

def RepoPlugin.sharedObject (plugin : RepoPlugin) (handle : Nat) : SharedObject Handler where
  handle
  pluginAuthor := some (ascii "Joona")
  pluginName := some plugin.pluginName
  pluginVersion := some plugin.pluginVersion
  pluginInit := some { calls := plugin.calls, result := bcircPluginOk }

/-- A call of `load_plugin`, and the handle `dlopen` gives out. -/
structure Load where
  plugin : RepoPlugin
  path : Str
  handle : Nat
  deriving DecidableEq, Repr

def loadPlugins : List Load → Registry Handler → Registry Handler
  | [], reg => reg
  | l :: loads, reg =>
      loadPlugins loads (loadPlugin l.path (some (l.plugin.sharedObject l.handle)) reg).2

/-! ## Handling lines -/

section Lines

variable (lib : TitleLib)

/-- `cb_func(args, argc)`. -/
def invoke : Nat → Callback Handler → List Arg → Prog (Bot Handler World) Int
  | 0 => fun _ _ => throw .tooDeep
  | depth + 1 => fun cb args => cb.cbFunc.run lib (executeCallbacks (invoke depth) .str) args

/-- What `server_recv` does with a line of `srv`. -/
def executeRecv (depth srv : Nat) (line : Str) : Prog (Bot Handler World) Int :=
  executeCallbacks (invoke lib depth) .str callbackServerRecv [.server srv, .str line]

/-- Lines as they come in from any of the servers. -/
def receive (depth : Nat) : List (Nat × Str) → Prog (Bot Handler World) Unit
  | [] => pure ()
  | (srv, line) :: lines => do
      let _ ← executeRecv lib depth srv line
      receive depth lines

/-- With one server this is the loop over the lines of `server_recv`. -/
theorem receive_eq_handleLines (depth srv : Nat) (lines : List Str) :
    receive lib depth (lines.map fun line => (srv, line)) =
      handleLines (executeRecv lib depth srv) lines := by
  induction lines with
  | nil => rfl
  | cons line lines ih =>
      rw [List.map_cons, receive, handleLines, ih]

end Lines

/-! ## A bot with the four plugins -/

def sampleLoads : List Load :=
  [⟨.core, ascii "core.so", 0⟩, ⟨.eventsHandler, ascii "events.so", 1⟩,
    ⟨.channelHandler, ascii "channelhandler.so", 2⟩, ⟨.title, ascii "title.so", 3⟩]

def sampleLib : TitleLib where
  titleMatch _ := none
  decodeHtmlEntitiesUtf8 := id

def sampleBot : Bot Handler World := ⟨loadPlugins sampleLoads initIndex, sampleWorld⟩

end Bcirc
