import Bcirc.DispatchInv
import Bcirc.Events
import Bcirc.NickPlugin
import Bcirc.PythonDispatch
import Bcirc.Title
import Bcirc.Transition

/-!
# The strings of a message, shared by its callbacks

`get_privmsg` hands the callbacks of `got_privmsg` four strings of its own,
by address, and `execute_callbacks` hands the same addresses on to the
functions of Python scripts. A callback that writes to one of them changes
what the later ones see. The weather plugin does: it cuts the message
itself into words, where the nick plugin cuts a copy.

A function that does not write gets the strings by value here. What it
does to the rest of the process is of no interest, so the functions that
are registered for other events are any (`other`), and so are the
dispatches that `nick` causes.
-/

namespace Bcirc

open CProg CStr Transition

/-! ## The strings -/

structure PrivmsgStrings where
  nick : Option Str
  hostmask : Option Str
  target : Option Str
  msg : Str
  deriving DecidableEq, Repr

/-- A `void *` of `got_privmsg`: one of the strings, or something else. -/
inductive PrivmsgArg where
  | nick
  | hostmask
  | target
  | msg
  | value (arg : Arg)
  deriving DecidableEq, Repr

/-- What is behind the pointer. -/
def PrivmsgArg.toArg (strings : PrivmsgStrings) : PrivmsgArg → Arg
  | .nick => strings.nick.elim .null .str
  | .hostmask => strings.hostmask.elim .null .str
  | .target => strings.target.elim .null .str
  | .msg => .str strings.msg
  | .value arg => arg

def PrivmsgStrings.write (strings : PrivmsgStrings) (s : Str) : PrivmsgArg → PrivmsgStrings
  | .nick => { strings with nick := some s }
  | .hostmask => { strings with hostmask := some s }
  | .target => { strings with target := some s }
  | .msg => { strings with msg := s }
  | .value _ => strings

/-- A function of a plugin, by what it is registered for. -/
inductive PrivmsgFunc (ν : Type) where
  | loggerOnPrivmsg
  | checkForUrl
  | addUrl
  | handleNick
  | seekForBenis
  | weatherOnPrivmsg
  | pyExecuteCallbacks
  | other (f : ν)
  deriving DecidableEq, Repr

/-- Who is called: a callback, or a function of a script. -/
inductive Called (ν : Type) where
  | callback (cbFunc : PrivmsgFunc ν)
  | script (cbFunc : PyObject)
  deriving DecidableEq, Repr

/-- A call, with the strings and the time it starts with. -/
structure Sight (ν : Type) where
  who : Called ν
  strings : PrivmsgStrings
  clock : Int
  deriving DecidableEq, Repr

structure Privmsg (ν : Type) where
  strings : PrivmsgStrings
  seen : List (Sight ν)
  world : World

variable {ν : Type}

def Privmsg.see (p : Privmsg ν) (who : Called ν) : Privmsg ν :=
  { p with seen := p.seen ++ [⟨who, p.strings, p.world.clock⟩] }

/-- A function that does not write to the strings. -/
def onRest {φ α : Type} (m : Prog (Bot φ World) α) : Prog (Bot φ (Privmsg ν)) α := fun bot =>
  match m ⟨bot.reg, bot.world.world⟩ with
  | .ok a rest => .ok a ⟨rest.reg, { bot.world with world := rest.world }⟩
  | .error e rest => .error e ⟨rest.reg, { bot.world with world := rest.world }⟩

/-! ## The functions -/

/-- What is not in the plugins: the events `nick` raises, the messages that
the weather service's answer to a URL makes, `rand` after a `srand`, the
value of a function that returns none, the functions of scripts and of
other events. -/
structure PrivmsgEnv (ν : Type) where
  lib : TitleLib
  raise : Str → List Arg → Prog (Bot (PrivmsgFunc ν) World) Int
  weather : Str → Str → List Str
  rand : Int → Nat → Nat
  leftover : List Arg → World → Int
  python : PyObject → List Arg → World → World
  scripts : List PyScript
  other : ν → List Arg → Prog (Bot (PrivmsgFunc ν) World) Int

/-- `on_privmsg` of the logger. -/
def loggerOnPrivmsg (params : List Arg) : Prog World Int := do
  let srv ← deref (← (← param params 0).toServer)
  let _ ← getServer srv
  pure bcircPluginOk

section Benis

/-- How many more letters, from the `i`-th on; the first argument is how
many there may be. -/
def benisLetters (rand : Nat → Nat) : Nat → Nat → Nat
  | 0, _ => 0
  | n + 1, i => if rand i % 110 > 5 then benisLetters rand n (i + 1) + 1 else 0

/-- There is no `return` at its end. -/
def seekForBenis (env : PrivmsgEnv ν) (params : List Arg) : Prog World Int := do
  if params.any (· == .null) then return bcircPluginFail
  let srv ← deref (← (← param params 0).toServer)
  let target ← deref (← (← param params 3).toStr)
  let msg ← deref (← (← param params 4).toStr)
  let w ← get
  if (strstr msg (ascii "benis")).isSome then
    if env.rand w.clock 0 % 6 = 1 then
      let letters := benisLetters (env.rand w.clock) 240 1
      addToPrivmsgQueue (ascii "benis :D" ++ List.replicate letters 68) target srv
  let w ← get
  pure (env.leftover params w)

end Benis

/-! ### The weather plugin -/

def umlautA : Str := [0xc3, 0xa4]

def langFi : Str := ascii "FI"

def langEn : Str := ascii "EN"

def weatherCommands : List (Str × Str) :=
  [(ascii "!s" ++ umlautA ++ umlautA, langFi),
    (ascii ".s" ++ umlautA ++ umlautA, langFi),
    (ascii "!saa", langFi),
    (ascii ".saa", langFi),
    (ascii "!weather", langEn),
    (ascii ".weather", langEn)]

/-- The language of the first command that `str` starts with. -/
def commandLang (str : Str) : Option Str :=
  (weatherCommands.find? fun command => command.1.isPrefixOf str).map (·.2)

/-- `last_call` is never written to. -/
def lastCall : Int := 0

def waitFetchTime : Int := 7

def timeAnnounceTime : Int := 4

/-- `time(NULL)` as an `unsigned long`. -/
def callNow (clock : Int) : Int := clock % 0x10000000000000000

def apiKey : Str := ascii "0c1e91a011ff56ae37fbd55928e8b4e2"

def weatherUrl (city : Str) : Str :=
  ascii "http://api.openweathermap.org/data/2.5/weather?q=" ++ city ++ ascii "&APPID=" ++
    apiKey ++ ascii "&units=metric"

def weatherHttpRequest (env : PrivmsgEnv ν) (url : Str) (params : List Arg) (lang : Str) :
    Prog World Unit := do
  if !(← curlInit) then return ()
  let target ← deref (← (← param params 3).toStr)
  let srv ← deref (← (← param params 0).toServer)
  for msg in env.weather url lang do
    addToPrivmsgQueue msg target srv

/-- The rest of `on_privmsg`, behind `strtok_r`. -/
def askWeather (env : PrivmsgEnv ν) (city : Str) (params : List Arg) (lang : Str) :
    Prog World Int := do
  let city := if (strstr city (ascii "perse")).isSome then ascii "turku" else city
  weatherHttpRequest env (weatherUrl city) params lang
  pure bcircPluginOk

/-- `on_privmsg` of the weather plugin. The `strcpy` that was to compare the
language writes to a literal. -/
def weatherOnPrivmsg (env : PrivmsgEnv ν) (args : List PrivmsgArg) :
    Prog (Bot (PrivmsgFunc ν) (Privmsg ν)) Int := do
  let bot ← get
  let params := args.map (PrivmsgArg.toArg bot.world.strings)
  let str ← deref (← (← param params 4).toStr)
  let ptr ← orFault .outOfBounds args[4]?
  match commandLang str with
  | none => pure bcircPluginContinue
  | some lang =>
    if callNow bot.world.world.clock ≤ lastCall + waitFetchTime then
      if callNow bot.world.world.clock ≤ lastCall + timeAnnounceTime then throw .outOfBounds
      else pure bcircPluginOk
    else do
      modify fun bot => { bot with world := { bot.world with
        strings := bot.world.strings.write (strtokRCut isSpace str) ptr } }
      onRest (onWorld (askWeather env (strtokR isSpace str).2
        (args.map (PrivmsgArg.toArg (bot.world.strings.write (strtokRCut isSpace str) ptr))) lang))

/-! ## The dispatch -/

section Dispatch

variable (env : PrivmsgEnv ν)

/-- `cb_func(args, argc)`. The functions of scripts are called one after the
other. -/
def privmsgCall (cb : Callback (PrivmsgFunc ν)) (args : List PrivmsgArg) :
    Prog (Bot (PrivmsgFunc ν) (Privmsg ν)) Int := do
  modify fun bot => { bot with world := bot.world.see (.callback cb.cbFunc) }
  let bot ← get
  let params := args.map (PrivmsgArg.toArg bot.world.strings)
  match cb.cbFunc with
  | .loggerOnPrivmsg => onRest (onWorld (loggerOnPrivmsg params))
  | .checkForUrl => onRest (onWorld (checkForUrl env.lib params))
  | .addUrl => onRest (onWorld (addUrl params))
  | .handleNick => onRest (NickPlugin.handleNick env.raise params)
  | .seekForBenis => onRest (onWorld (seekForBenis env params))
  | .weatherOnPrivmsg => weatherOnPrivmsg env args
  | .pyExecuteCallbacks => do
      modify fun bot => { bot with world := (pyExecuteCallbacks
        (fun cbFunc params p =>
          { p.see (.script cbFunc) with world := env.python cbFunc params p.world })
        params env.scripts (bot.world, [])).1 }
      pure bcircPluginOk
  | .other f => onRest (env.other f params)

/-- `execute_callbacks` with the strings that `get_privmsg` has allocated. -/
def raisePrivmsg (cbName : Str) : List Arg → Prog (Bot (PrivmsgFunc ν) (Privmsg ν)) Int
  | [srv, nick, hostmask, target, msg] => do
      let nick ← nick.toStr
      let hostmask ← hostmask.toStr
      let target ← target.toStr
      let msg ← deref (← msg.toStr)
      modify fun bot => { bot with world := { bot.world with
        strings := ⟨nick, hostmask, target, msg⟩ } }
      executeCallbacks (privmsgCall env) (fun name => .value (.str name)) cbName
        [.value srv, .nick, .hostmask, .target, .msg]
  | _ => throw .outOfBounds

/-- A line of `srv`, when no message has been parsed yet. -/
def privmsgLineRun (reg : Registry (PrivmsgFunc ν)) (w : World) (srv : Nat) (line : Str) :
    Privmsg ν :=
  (endState (getPrivmsg (raisePrivmsg env) [.server srv, .str line]
    ⟨reg, ⟨⟨none, none, none, []⟩, [], w⟩⟩)).world

/-- The calls that the line leads to. -/
def privmsgSights (reg : Registry (PrivmsgFunc ν)) (w : World) (srv : Nat) (line : Str) :
    List (Sight ν) :=
  (privmsgLineRun env reg w srv line).seen

end Dispatch

/-- What `get_privmsg` makes of a line. -/
def privmsgStrings (line : Str) : Option PrivmsgStrings :=
  match parsePrivmsg line with
  | .ret _ => none
  | .message nick hostmask target save => some ⟨nick, hostmask, target, save.tail⟩

/-! ## Who writes -/

/-- The weather plugin takes the message for a command and cuts it. -/
def CutsMessage (clock : Int) (msg : Str) : Prop :=
  commandLang msg ≠ none ∧ waitFetchTime < callNow clock ∧ 32 ∈ msg

instance (clock : Int) (msg : Str) : Decidable (CutsMessage clock msg) :=
  inferInstanceAs (Decidable (_ ∧ _ ∧ _))

/-- What the weather plugin leaves of the strings. -/
def PrivmsgStrings.afterWeather (strings : PrivmsgStrings) (clock : Int) : PrivmsgStrings :=
  if CutsMessage clock strings.msg then
    { strings with msg := strtokRCut isSpace strings.msg }
  else strings

/-- What a call leaves of them. -/
def Sight.after (sight : Sight ν) : PrivmsgStrings :=
  match sight.who with
  | .callback .weatherOnPrivmsg => sight.strings.afterWeather sight.clock
  | _ => sight.strings

theorem commandLang_head {c : UInt8} {str : Str} (h : commandLang (c :: str) ≠ none) :
    isSpace c = false := by
  have hwords : weatherCommands.all (fun command => command.1.head?.any (!isSpace ·)) := by
    decide +kernel
  unfold commandLang at h
  rw [ne_eq, Option.map_eq_none_iff, ← ne_eq, Option.ne_none_iff_exists'] at h
  obtain ⟨command, hfind⟩ := h
  have hword := List.all_eq_true.mp hwords command (List.mem_of_find?_eq_some hfind)
  have hstarts := List.find?_some hfind
  cases hbytes : command.1 with
  | nil =>
      rw [hbytes] at hword
      cases hword
  | cons b bytes =>
      rw [hbytes] at hword hstarts
      obtain ⟨rfl, -⟩ := List.cons_prefix_cons.mp (List.isPrefixOf_iff_prefix.mp hstarts)
      simpa using hword

theorem commandLang_nil : commandLang [] = none := by
  decide +kernel

/-- A command without a space is left as it is. -/
theorem strtokRCut_command {msg : Str} (h : commandLang msg ≠ none) :
    strtokRCut isSpace msg = msg ↔ 32 ∉ msg := by
  cases msg with
  | nil => exact absurd commandLang_nil h
  | cons c msg =>
      rw [strtokRCut_eq_self_iff (commandLang_head h)]
      constructor
      · intro hfree hmem
        have hspace := hfree 32 hmem
        cases hspace
      · exact isSpace_of_not_mem

theorem PrivmsgStrings.afterWeather_eq_iff (strings : PrivmsgStrings) (clock : Int) :
    strings.afterWeather clock = strings ↔ ¬ CutsMessage clock strings.msg := by
  unfold PrivmsgStrings.afterWeather
  split
  · rename_i hcuts
    refine iff_of_false (fun heq => ?_) (not_not_intro hcuts)
    have hmsg := congrArg PrivmsgStrings.msg heq
    exact (strtokRCut_command hcuts.1).mp hmsg hcuts.2.2
  · rename_i hnot
    exact iff_of_true rfl hnot

/-- Past the wait the weather plugin cuts every command: one without a space
is left as it is. -/
theorem PrivmsgStrings.afterWeather_late {strings : PrivmsgStrings} {clock : Int}
    (hcommand : commandLang strings.msg ≠ none) (hlate : waitFetchTime < callNow clock) :
    strings.afterWeather clock = { strings with msg := strtokRCut isSpace strings.msg } := by
  unfold PrivmsgStrings.afterWeather
  split
  · rfl
  · rename_i hnot
    have hfree : 32 ∉ strings.msg := fun hmem => hnot ⟨hcommand, hlate, hmem⟩
    rw [(strtokRCut_command hcommand).mpr hfree]

theorem Sight.after_eq_iff (sight : Sight ν) : sight.after = sight.strings ↔
    (sight.who = .callback .weatherOnPrivmsg →
      ¬ CutsMessage sight.clock sight.strings.msg) := by
  unfold Sight.after
  split
  · rename_i hwho
    rw [PrivmsgStrings.afterWeather_eq_iff]
    exact ⟨fun h _ => h, fun h => h hwho⟩
  · rename_i hother
    exact iff_of_true rfl fun hwho => absurd hwho (hother ·)

/-! ## What every call sees -/

/-- Each call sees what the one before has left, the first what
`get_privmsg` has parsed. -/
def SeenFrom (strings : PrivmsgStrings) (p : Privmsg ν) : Prop :=
  Relay Sight.strings Sight.after p.strings strings p.seen

section SeenFrom

variable {strings : PrivmsgStrings} {φ α : Type}

theorem SeenFrom.see {p : Privmsg ν} (h : SeenFrom strings p) {who : Called ν}
    (hwho : who ≠ .callback .weatherOnPrivmsg) : SeenFrom strings (p.see who) := by
  have hafter : Sight.after ⟨who, p.strings, p.world.clock⟩ = p.strings :=
    (Sight.after_eq_iff _).mpr fun heq => absurd heq hwho
  have hrelay := Relay.concat h (e := ⟨who, p.strings, p.world.clock⟩) rfl
  rw [hafter] at hrelay
  exact hrelay

theorem onRest_keeps {J : Privmsg ν → Prop} (hJ : ∀ p w, J p → J { p with world := w })
    (m : Prog (Bot φ World) α) :
    Ensures (fun bot : Bot φ (Privmsg ν) => J bot.world) (onRest m) fun _ => True := by
  intro bot hbot
  refine ⟨?_, fun _ _ _ => trivial⟩
  unfold onRest
  split
  · exact hJ _ _ hbot
  · exact hJ _ _ hbot

theorem onRest_seenFrom (m : Prog (Bot φ World) α) :
    Ensures (fun bot : Bot φ (Privmsg ν) => SeenFrom strings bot.world) (onRest m)
      fun _ => True :=
  onRest_keeps (fun _ _ h => h) m

/-- The cut is all that the weather plugin writes. -/
theorem weatherOnPrivmsg_leaves (env : PrivmsgEnv ν) {args : List PrivmsgArg}
    (hmsg : args[4]? = some .msg) (bot : Bot (PrivmsgFunc ν) (Privmsg ν)) :
    (endState (weatherOnPrivmsg env args bot)).world.seen = bot.world.seen ∧
      (endState (weatherOnPrivmsg env args bot)).world.strings =
        bot.world.strings.afterWeather bot.world.world.clock := by
  have hparam : (args.map (PrivmsgArg.toArg bot.world.strings))[4]? =
      some (.str bot.world.strings.msg) := by
    rw [List.getElem?_map, hmsg]
    rfl
  have hwait : lastCall + waitFetchTime = waitFetchTime := rfl
  unfold weatherOnPrivmsg
  simp only [get_bind_run, param, hparam, hmsg, orFault_some, pure_bind, Arg.toStr, deref, hwait]
  have hstays : ¬ CutsMessage bot.world.world.clock bot.world.strings.msg →
      bot.world.strings.afterWeather bot.world.world.clock = bot.world.strings :=
    (PrivmsgStrings.afterWeather_eq_iff _ _).mpr
  rcases hlang : commandLang bot.world.strings.msg with _ | lang
  · rw [hstays fun hcuts => hcuts.1 hlang]
    exact ⟨rfl, rfl⟩
  · by_cases hsoon : callNow bot.world.world.clock ≤ waitFetchTime
    · rw [hstays fun hcuts => absurd hcuts.2.1 (Int.not_lt.mpr hsoon)]
      simp only [hsoon, if_true]
      split
      · exact ⟨rfl, rfl⟩
      · exact ⟨rfl, rfl⟩
    · have hne : commandLang bot.world.strings.msg ≠ none := by
        rw [hlang]
        exact Option.some_ne_none lang
      have hcut : bot.world.strings.afterWeather bot.world.world.clock =
          bot.world.strings.write (strtokRCut isSpace bot.world.strings.msg) .msg :=
        PrivmsgStrings.afterWeather_late hne (Int.not_le.mp hsoon)
      rw [hcut]
      simp only [hsoon, if_false]
      have hrest := fun m : Prog (Bot (PrivmsgFunc ν) World) Int => onRest_keeps
        (J := fun p : Privmsg ν => p.seen = bot.world.seen ∧
          p.strings = bot.world.strings.write (strtokRCut isSpace bot.world.strings.msg) .msg)
        (fun _ _ h => h) m
      rw [modify_bind_run]
      refine (hrest _ _ ?_).1
      exact ⟨rfl, rfl⟩

theorem see_weather {p : Privmsg ν} (h : SeenFrom strings p) :
    Relay Sight.strings Sight.after (p.strings.afterWeather p.world.clock) strings
      (p.see (.callback .weatherOnPrivmsg)).seen :=
  Relay.concat h (e := ⟨.callback .weatherOnPrivmsg, p.strings, p.world.clock⟩) rfl

/-- Every call goes on from what the calls before it have left. -/
theorem privmsgCall_seenFrom (env : PrivmsgEnv ν) (cb : Callback (PrivmsgFunc ν))
    {args : List PrivmsgArg} (hmsg : args[4]? = some .msg) :
    Ensures (fun bot => SeenFrom strings bot.world) (privmsgCall env cb args)
      fun _ => True := by
  obtain ⟨serial, cbName, cbFunc, priority⟩ := cb
  intro bot hbot
  refine ⟨?_, fun _ _ _ => trivial⟩
  have hrest : ∀ m : Prog (Bot (PrivmsgFunc ν) World) Int,
      cbFunc ≠ .weatherOnPrivmsg → SeenFrom strings
        (endState (onRest m { bot with world := bot.world.see (.callback cbFunc) })).world := by
    intro m hother
    refine (onRest_seenFrom m _ (hbot.see fun heq => hother ?_)).1
    cases heq
    rfl
  unfold privmsgCall
  rw [modify_bind_run, get_bind_run]
  cases cbFunc with
  | loggerOnPrivmsg => exact hrest _ (by simp)
  | checkForUrl => exact hrest _ (by simp)
  | addUrl => exact hrest _ (by simp)
  | handleNick => exact hrest _ (by simp)
  | seekForBenis => exact hrest _ (by simp)
  | weatherOnPrivmsg =>
      obtain ⟨hseen, hstrings⟩ := weatherOnPrivmsg_leaves env hmsg
        { bot with world := bot.world.see (.callback .weatherOnPrivmsg) }
      unfold SeenFrom
      simp only
      rw [hseen, hstrings]
      exact see_weather hbot
  | pyExecuteCallbacks =>
      have hscript : ∀ (cbFunc : PyObject) (params : List Arg) (p : Privmsg ν),
          SeenFrom strings p → SeenFrom strings
            { p.see (.script cbFunc) with world := env.python cbFunc params p.world } :=
        fun cbFunc params p hp => hp.see (by simp)
      exact pyExecuteCallbacks_keeps _ hscript _ env.scripts (hbot.see (by simp))
  | other f => exact hrest _ (by simp)

end SeenFrom

theorem raisePrivmsg_seenFrom (env : PrivmsgEnv ν) (reg : Registry (PrivmsgFunc ν)) (w : World)
    (srv : Nat) (cbName : Str) (strings old : PrivmsgStrings) :
    SeenFrom strings (endState (raisePrivmsg env cbName
      [.server srv, strings.nick.elim .null .str, strings.hostmask.elim .null .str,
        strings.target.elim .null .str, .str strings.msg] ⟨reg, ⟨old, [], w⟩⟩)).world := by
  obtain ⟨nick, hostmask, target, msg⟩ := strings
  have hraise : raisePrivmsg env cbName [.server srv, nick.elim .null .str,
      hostmask.elim .null .str, target.elim .null .str, .str msg] ⟨reg, ⟨old, [], w⟩⟩ =
      executeCallbacks (privmsgCall env) (fun name => .value (.str name)) cbName
        [.value (.server srv), .nick, .hostmask, .target, .msg]
        ⟨reg, ⟨⟨nick, hostmask, target, msg⟩, [], w⟩⟩ := by
    cases nick <;> cases hostmask <;> cases target <;> rfl
  have hstart : SeenFrom ⟨nick, hostmask, target, msg⟩
      (⟨⟨nick, hostmask, target, msg⟩, [], w⟩ : Privmsg ν) := rfl
  rw [hraise]
  exact (executeCallbacks_keeps (fun cb => privmsgCall_seenFrom env cb rfl)
    (fun cb => privmsgCall_seenFrom env cb rfl) _ hstart).1

/-- A line that `get_privmsg` takes for no message calls nobody. -/
theorem privmsgLineRun_seenFrom (env : PrivmsgEnv ν) (reg : Registry (PrivmsgFunc ν)) (w : World)
    (srv : Nat) (line : Str) :
    (privmsgLineRun env reg w srv line).seen = [] ∨
      ∃ strings, privmsgStrings line = some strings ∧
        SeenFrom strings (privmsgLineRun env reg w srv line) := by
  unfold privmsgLineRun privmsgStrings
  rw [getPrivmsg_str]
  cases strstr line (ascii "PRIVMSG") with
  | none => exact Or.inl rfl
  | some i =>
      cases parsePrivmsg line with
      | ret code => exact Or.inl rfl
      | message nick hostmask target save =>
          refine Or.inr ⟨⟨nick, hostmask, target, save.tail⟩, rfl, ?_⟩
          simp only [endState_bind_pure]
          exact raisePrivmsg_seenFrom env reg w srv _ ⟨nick, hostmask, target, save.tail⟩ _

/-- The strings are what `get_privmsg` has parsed for every call if and only
if no callback of the weather plugin cuts the message before another call. -/
theorem sights_parsed_iff (env : PrivmsgEnv ν) (reg : Registry (PrivmsgFunc ν)) (w : World)
    (srv : Nat) (line : Str) :
    (∀ sight ∈ privmsgSights env reg w srv line,
        privmsgStrings line = some sight.strings) ↔
      ∀ pre sight next post,
        privmsgSights env reg w srv line = pre ++ sight :: next :: post →
        sight.who = .callback .weatherOnPrivmsg →
        ∀ strings, privmsgStrings line = some strings →
          ¬ CutsMessage sight.clock strings.msg := by
  unfold privmsgSights
  rcases privmsgLineRun_seenFrom env reg w srv line with hnone | ⟨strings, hparsed, hrelay⟩
  · rw [hnone]
    refine iff_of_true (fun sight hsight => nomatch hsight) fun pre sight next post hlog => ?_
    cases pre <;> cases hlog
  · rw [hparsed]
    have hkeeps : ∀ sight : Sight ν, sight.strings = strings → (sight.after = strings ↔
        (sight.who = .callback .weatherOnPrivmsg → ∀ s, some strings = some s →
          ¬ CutsMessage sight.clock s.msg)) := by
      rintro sight rfl
      rw [Sight.after_eq_iff]
      constructor
      · rintro h hwho s hs
        obtain rfl := Option.some.inj hs
        exact h hwho
      · exact fun h hwho => h hwho _ rfl
    rw [← Relay.forall_sees_iff hrelay hkeeps]
    simp only [Option.some.injEq, eq_comm]

/-! ## Two plugins -/

def weatherPlugin (handle : Nat) : SharedObject (PrivmsgFunc ν) where
  handle := handle
  pluginAuthor := some (ascii "Joona")
  pluginName := some (ascii "Weather service")
  pluginVersion := some (ascii "1.0")
  pluginInit := some
    { calls := [⟨some callbackGotPrivmsg, some .weatherOnPrivmsg, 20⟩]
      result := bcircPluginOk }

def nickPlugin (handle : Nat) : SharedObject (PrivmsgFunc ν) where
  handle := handle
  pluginAuthor := some (ascii "Joona")
  pluginName := some (ascii "Nick changed")
  pluginVersion := some (ascii "0.1")
  pluginInit := some
    { calls := [⟨some callbackGotPrivmsg, some .handleNick, 20⟩]
      result := bcircPluginOk }

def sampleEnv : PrivmsgEnv Unit where
  lib := ⟨fun _ => none, id⟩
  raise _ _ := pure bcircPluginOk
  weather _ _ := []
  rand _ _ := 0
  leftover _ _ := bcircPluginOk
  python _ _ w := w
  scripts := []
  other _ _ := pure bcircPluginOk

/-- Of equal priority, so in the order they were loaded: the weather plugin
leaves the nick plugin `!weather`. -/
theorem sights_not_parsed :
    ¬ ∀ (reg : Registry (PrivmsgFunc Unit)) (w : World) (srv : Nat) (line : Str), Managed reg →
      ∀ sight ∈ privmsgSights sampleEnv reg w srv line,
        privmsgStrings line = some sight.strings := by
  intro h
  let first : Registry (PrivmsgFunc Unit) :=
    (loadPlugin (ascii "weather.so") (some (weatherPlugin 1)) initIndex).2
  have hfirst : Managed first := .load _ _ .init (by decide +kernel)
  have hreg : Managed (loadPlugin (ascii "nick.so") (some (nickPlugin 2)) first).2 :=
    .load _ _ hfirst (by decide +kernel)
  have hsame := h _ { sampleWorld with clock := 1000 } 0
    (ascii ":a!b@c PRIVMSG #c :!weather Turku") hreg
  revert hsame
  decide +kernel

end Bcirc
