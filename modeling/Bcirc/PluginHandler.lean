import Bcirc.CProg
import Bcirc.CStr
import Bcirc.Msort

/-!
# The plugin handler (`src/plugin_handler.c`)

`plugin_list`, `index_list` and the functions that change them, then the
dispatcher `execute_callbacks`.

Pointers to malloc'ed records are the serial numbers of the allocations,
in the order they were made; the counters of the source are the lengths
of the lists. Allocation is taken to succeed, and what the functions
print is left out. The model is generic in the code a callback points to
(`φ`), in the arguments handed to it (`α`) and in the rest of the process
state (`W`).
-/

namespace Bcirc

open CProg CStr

/-! ## Return codes and event names -/

def bcircPluginContinue : Int := 3
def bcircPluginBreak : Int := 2
def bcircPluginOk : Int := 1
def bcircPluginStop : Int := 0
def bcircPluginFail : Int := -1

def callbackGotNumeric : Str := ascii "got_numeric"
def callbackGotPrivmsg : Str := ascii "got_privmsg"
def callbackServerConnected : Str := ascii "server_connected"
def callbackServerDisconnected : Str := ascii "server_disconnected"
def callbackServerRecv : Str := ascii "server_recv"
def callbackServerSend : Str := ascii "server_send"
def callbackChannelJoin : Str := ascii "channel_join"
def callbackChannelPart : Str := ascii "channel_part"
def callbackChannelKick : Str := ascii "channel_kick"
def callbackChannelQuit : Str := ascii "channel_quit"
def callbackChannelInvite : Str := ascii "channel_invite"
def callbackCallbacksExecuted : Str := ascii "callback_callbacks_executed"

/-! ## Data -/

inductive PluginStatus where
  | running
  | paused
  deriving DecidableEq, Repr

/-- An event name as a plugin passes it: a string inside the plugin's own
image. `strcmp` sees `str` only. -/
structure CbName where
  image : Nat
  str : Str
  deriving DecidableEq, Repr

structure Callback (φ : Type) where
  serial : Nat
  cbName : CbName
  cbFunc : φ
  priority : Int
  deriving DecidableEq, Repr

structure Plugin (φ : Type) where
  serial : Nat
  handle : Nat
  pluginName : Str
  pluginVersion : Str
  pluginAuthor : Str
  path : Str
  status : PluginStatus
  callbackList : List (Callback φ)
  deriving DecidableEq, Repr

structure CallbackIndex (φ : Type) where
  cbName : CbName
  callbacks : List (Callback φ)
  deriving DecidableEq, Repr

/-- The globals of the plugin handler. `nextSerial` numbers allocations. -/
structure Registry (φ : Type) where
  pluginList : List (Plugin φ)
  indexList : List (CallbackIndex φ)
  nextSerial : Nat
  deriving DecidableEq, Repr

structure RegisterCall (φ : Type) where
  cbName : Option Str
  cbFunc : Option φ
  priority : Int

structure PluginInit (φ : Type) where
  calls : List (RegisterCall φ)
  result : Int

/-- What `dlopen` maps and the symbols `load_plugin` looks up in it. -/
structure SharedObject (φ : Type) where
  handle : Nat
  pluginAuthor : Option Str
  pluginName : Option Str
  pluginVersion : Option Str
  pluginInit : Option (PluginInit φ)

variable {φ : Type}

def Registry.pluginCount (reg : Registry φ) : Nat := reg.pluginList.length

/-- The state `main` sets up: no plugin, and `init_index`. -/
def initIndex : Registry φ where
  pluginList := []
  indexList := []
  nextSerial := 0

/-! ## The event index -/

/-- `none` is the `-1` of the source. The names are compared as values,
whether or not their images are still there: `readCbIndex` reads them. -/
def getCbIndex (indexList : List (CallbackIndex φ)) (cbName : Str) : Option Nat :=
  indexList.findIdx? fun entry => entry.cbName.str == cbName

def compareIndex (cb1 cb2 : Callback φ) : Int :=
  if cb1.priority > cb2.priority then 1 else 0

def indexCallback (cb : Callback φ) (indexList : List (CallbackIndex φ)) :
    List (CallbackIndex φ) :=
  match getCbIndex indexList cb.cbName.str with
  | some indexPoint =>
      indexList.modify indexPoint fun entry =>
        { entry with callbacks := Msort.msort compareIndex (entry.callbacks ++ [cb]) }
  | none => indexList ++ [{ cbName := cb.cbName, callbacks := [cb] }]

def removeIndex (indexList : List (CallbackIndex φ)) (cb : Callback φ) :
    List (CallbackIndex φ) :=
  indexList.map fun entry =>
    { entry with callbacks := entry.callbacks.filter fun c => c.serial != cb.serial }

/-! ## Loading, pausing and removing plugins -/

def registerCallback (cbName : Option CbName) (cbFunc : Option φ) (priority : Int)
    (pluginptr : Plugin φ) (reg : Registry φ) : Int × Plugin φ × Registry φ :=
  match cbName, cbFunc with
  | none, _ => (-1, pluginptr, reg)
  | some _, none => (-1, pluginptr, reg)
  | some cbName, some cbFunc =>
      let cb : Callback φ := { serial := reg.nextSerial, cbName, cbFunc, priority }
      (1, { pluginptr with callbackList := pluginptr.callbackList ++ [cb] },
        { reg with
          indexList := indexCallback cb reg.indexList
          nextSerial := reg.nextSerial + 1 })

/-- `init_func(new_plugin)`: the calls one after the other. -/
def runCalls (handle : Nat) :
    List (RegisterCall φ) → Plugin φ → Registry φ → Plugin φ × Registry φ
  | [], p, reg => (p, reg)
  | c :: calls, p, reg =>
      let r := registerCallback (c.cbName.map fun s => ⟨handle, s⟩) c.cbFunc c.priority p reg
      runCalls handle calls r.2.1 r.2.2

/-- `so` is what `dlopen(path)` returns. -/
def loadPlugin (path : Str) (so : Option (SharedObject φ)) (reg : Registry φ) :
    Int × Registry φ :=
  let serial := reg.nextSerial
  let reg := { reg with nextSerial := reg.nextSerial + 1 }
  match so with
  | none => (-1, reg)
  | some so =>
    match so.pluginAuthor, so.pluginName, so.pluginVersion with
    | some pluginAuthor, some pluginName, some pluginVersion =>
      match so.pluginInit with
      | none => (-3, reg)
      | some init =>
          let newPlugin : Plugin φ :=
            { serial, handle := so.handle, pluginName, pluginVersion, pluginAuthor, path,
              status := .running, callbackList := [] }
          let r := runCalls so.handle init.calls newPlugin reg
          if init.result ≠ bcircPluginOk then (-4, r.2)
          else (1, { r.2 with pluginList := r.2.pluginList ++ [r.1] })
    | _, _, _ => (-2, reg)

def pausePlugin (pluginptr : Nat) (reg : Registry φ) : Registry φ :=
  { reg with
    pluginList := reg.pluginList.map fun p =>
      if p.serial = pluginptr then { p with status := .paused } else p }

/-- `dlclose` is that the handle leaves the list (`Registry.images`). The
buckets stay, with their names. -/
def removePlugin (pluginptr : Nat) (reg : Registry φ) : Registry φ :=
  { reg with
    pluginList := reg.pluginList.filter fun p => p.serial != pluginptr
    indexList :=
      (reg.pluginList.filter fun p => p.serial == pluginptr).foldl
        (fun indexList p => p.callbackList.foldl removeIndex indexList) reg.indexList }

/-! ## Dispatch -/

structure Bot (φ W : Type) where
  reg : Registry φ
  world : W

variable {α W : Type}

/-- `index_list[indexPoint]->callbacks[i]`, read afresh in every round. -/
def Registry.callbackAt? (reg : Registry φ) (indexPoint i : Nat) : Option (Callback φ) :=
  reg.indexList[indexPoint]?.bind fun entry => entry.callbacks[i]?

/-- What the loop does with the code `res` of the callback at position `i`:
`some r` leaves `execute_callbacks` with `r`. Both actions take the plugin
at position `i` of `plugin_list`. -/
def afterCallback (i : Nat) (res : Int) : Prog (Bot φ W) (Option Int) :=
  if res ≠ bcircPluginOk then
    if res = bcircPluginStop then do
      let bot ← get
      let p ← orFault .outOfBounds bot.reg.pluginList[i]?
      modify fun bot => { bot with reg := pausePlugin p.serial bot.reg }
      pure none
    else if res = bcircPluginFail then do
      let bot ← get
      let p ← orFault .outOfBounds bot.reg.pluginList[i]?
      modify fun bot => { bot with reg := removePlugin p.serial bot.reg }
      pure none
    else if res = bcircPluginBreak then pure (some bcircPluginFail)
    else pure none
  else pure none

section Dispatch

variable (call : Callback φ → List α → Prog (Bot φ W) Int) (strArg : Str → α)

/-- The `for` loop, with the number of rounds left and the position. -/
def callbackLoop (indexPoint : Nat) (args : List α) :
    Nat → Nat → Prog (Bot φ W) (Option Int)
  | 0, _ => pure none
  | n + 1, i => do
      let bot ← get
      let cb ← orFault .outOfBounds (bot.reg.callbackAt? indexPoint i)
      let res ← call cb args
      match ← afterCallback i res with
      | some r => pure (some r)
      | none => callbackLoop indexPoint args n (i + 1)

/-- The body of `execute_callbacks`, the recursive call made by `nested`. -/
def executeBody (nested : List α → Prog (Bot φ W) Int) (cbName : Str) (args : List α) :
    Prog (Bot φ W) Int := do
  let bot ← get
  match getCbIndex bot.reg.indexList cbName with
  | none => pure bcircPluginOk
  | some indexPoint =>
      let cbCount := (bot.reg.indexList[indexPoint]?.map (·.callbacks.length)).getD 0
      match ← callbackLoop call indexPoint args cbCount 0 with
      | some r => pure r
      | none =>
          if cbName ≠ callbackCallbacksExecuted then
            let _ ← nested (args ++ [strArg cbName])
            pure bcircPluginOk
          else pure bcircPluginOk

/-- The recursion stops at `callback_callbacks_executed` itself
(`executeCallbacks_rec`). -/
def executeCallbacks (cbName : Str) (args : List α) : Prog (Bot φ W) Int :=
  executeBody call strArg
    (executeBody call strArg (fun _ => pure bcircPluginOk) callbackCallbacksExecuted)
    cbName args

theorem executeBody_callbacksExecuted (nested nested' : List α → Prog (Bot φ W) Int)
    (args : List α) :
    executeBody call strArg nested callbackCallbacksExecuted args =
      executeBody call strArg nested' callbackCallbacksExecuted args := by
  simp only [executeBody, ne_eq, not_true_eq_false, if_false]

/-- The source's recursion. -/
theorem executeCallbacks_rec (cbName : Str) (args : List α) :
    executeCallbacks call strArg cbName args =
      executeBody call strArg
        (executeCallbacks call strArg callbackCallbacksExecuted) cbName args := by
  have hnested : executeCallbacks call strArg callbackCallbacksExecuted =
      executeBody call strArg (fun _ => pure bcircPluginOk) callbackCallbacksExecuted :=
    funext fun args => executeBody_callbacksExecuted call strArg _ _ args
  rw [hnested, executeCallbacks]

end Dispatch

end Bcirc
