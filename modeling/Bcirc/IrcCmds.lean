import Bcirc.World

/-!
# Sending (`server_send` in `src/server.c`, `src/irc_cmds.c`)

Every command is a line handed to `server_send`, which notifies the
callbacks of `server_send` before it writes to the socket. `raise` is
`execute_callbacks`.
-/

namespace Bcirc

open CProg CStr

variable {φ : Type} (raise : Str → List Arg → Prog (Bot φ World) Int)

/-- `send`: how much the socket takes is up to the script, all of `buf`
when that is used up. -/
def send (srv : Nat) (buf : Str) : Prog World Int := do
  let _ ← getServer srv
  let w ← get
  let res := w.sendResults.headD buf.length
  modify fun w =>
    { w with sendResults := w.sendResults.tail, sends := w.sends ++ [⟨srv, buf, res⟩] }
  pure res

def serverSend (buf : Option Str) (srv : Nat) : Prog (Bot φ World) Int := do
  let _ ← raise callbackServerSend [.server srv, buf.elim .null .str]
  match buf with
  | none => pure 0
  | some buf =>
      let res ← onWorld (send srv buf)
      if res ≤ 0 then pure res
      else do
        onWorld (setServer srv fun s => { s with sentLen := s.sentLen + res })
        pure res

def privmsg (msg target : Str) (srv : Nat) : Prog (Bot φ World) Int :=
  serverSend raise (some (ascii "PRIVMSG " ++ target ++ ascii " :" ++ msg ++ ascii "\r\n")) srv

/-- `sprintf` with `char *` arguments, for the directives `%%` and `%s`. -/
def sprintf : Str → List Str → Except Fault Str
  | [], _ => .ok []
  | [c], _ => if c = 37 then .error .badFormat else .ok [c]
  | c :: d :: fmt, args =>
      if c ≠ 37 then (c :: ·) <$> sprintf (d :: fmt) args
      else if d = 37 then (37 :: ·) <$> sprintf fmt args
      else
        match args with
        | a :: args => if d = 115 then (a ++ ·) <$> sprintf fmt args else .error .badFormat
        | [] => .error .badFormat

/-- The line is formatted twice, the second time with itself as the format;
`size` is the size of `buf`. -/
def joinChannel (chanName : Str) (chanPass : Option Str) (srv : Nat) :
    Prog (Bot φ World) Int := do
  let (buf, size) := match chanPass with
    | none => (ascii "JOIN " ++ chanName ++ ascii "\r\n", 4 + 1 + chanName.length + 2 + 1)
    | some pass =>
        (ascii "JOIN " ++ chanName ++ ascii " " ++ pass ++ ascii "\r\n",
          4 + 1 + chanName.length + 2 + pass.length + 2 + 1)
  let buf ← liftExcept (sprintf buf [chanName])
  if size ≤ buf.length then throw .outOfBounds
  serverSend raise (some buf) srv

/-- `NICK nick` and its line end. -/
def nickLine (nick : Str) : Str := ascii "NICK " ++ nick ++ ascii "\r\n"

def nick (nick : Str) (srv : Nat) : Prog (Bot φ World) Int := do
  let _ ← onWorld (getServer srv)
  onWorld (setServer srv fun s => { s with nick })
  serverSend raise (some (nickLine nick)) srv

def quit (reason : Str) (srv : Nat) : Prog (Bot φ World) Int :=
  serverSend raise (some (ascii "QUIT :" ++ reason ++ ascii "\r\n")) srv

/-! ## What a command leaves behind -/

/-- The callbacks of an event, when they return and change no record. -/
def KeepsWorld : Prop :=
  ∀ cbName args bot, ∃ code reg, raise cbName args bot = .ok code ⟨reg, bot.world⟩

/-- No plugin registers a callback for `server_send`. -/
def idleRaise : Str → List Arg → Prog (Bot φ World) Int := fun _ _ => pure bcircPluginOk

theorem keepsWorld_idleRaise : KeepsWorld (φ := φ) idleRaise :=
  fun _ _ bot => ⟨bcircPluginOk, bot.reg, rfl⟩

def loggedSend (srv : Nat) (buf : Str) (w : World) : World :=
  { w with
    sendResults := w.sendResults.tail
    sends := w.sends ++ [⟨srv, buf, w.sendResults.headD buf.length⟩] }

def afterSend (srv : Nat) (buf : Str) (w : World) : World :=
  if w.sendResults.headD buf.length ≤ 0 then loggedSend srv buf w
  else
    { loggedSend srv buf w with
      servers := w.servers.modify srv fun s =>
        { s with sentLen := s.sentLen + w.sendResults.headD buf.length } }

def afterNick (srv : Nat) (nick : Str) (w : World) : World :=
  afterSend srv (nickLine nick)
    { w with servers := w.servers.modify srv fun s => { s with nick } }

theorem send_ok {srv : Nat} {w : World} {record : Server}
    (hsrv : w.servers[srv]? = some record) (buf : Str) :
    send srv buf w = .ok (w.sendResults.headD buf.length) (loggedSend srv buf w) :=
  bind_ok (getServer_ok hsrv)

theorem serverSend_ok (hraise : KeepsWorld raise) (buf : Str) {srv : Nat}
    {bot : Bot φ World} {record : Server} (hsrv : bot.world.servers[srv]? = some record) :
    ∃ code reg, serverSend raise (some buf) srv bot =
      .ok code ⟨reg, afterSend srv buf bot.world⟩ := by
  obtain ⟨code, reg, hcode⟩ := hraise callbackServerSend [.server srv, .str buf] bot
  have hsend : onWorld (send srv buf) ⟨reg, bot.world⟩ =
      .ok (bot.world.sendResults.headD buf.length)
        (⟨reg, loggedSend srv buf bot.world⟩ : Bot φ World) :=
    onWorld_ok (send_ok hsrv buf)
  refine ⟨bot.world.sendResults.headD buf.length, reg, ?_⟩
  refine (bind_ok hcode).trans ((bind_ok hsend).trans ?_)
  unfold afterSend
  split
  · rfl
  · rfl

theorem nick_ok (hraise : KeepsWorld raise) (newNick : Str) {srv : Nat} {bot : Bot φ World}
    {record : Server} (hsrv : bot.world.servers[srv]? = some record) :
    ∃ code reg, nick raise newNick srv bot =
      .ok code ⟨reg, afterNick srv newNick bot.world⟩ := by
  let renamed : Bot φ World := { bot with world := { bot.world with
    servers := bot.world.servers.modify srv fun s => { s with nick := newNick } } }
  have hget : onWorld (getServer srv) bot = .ok record bot := onWorld_ok (getServer_ok hsrv)
  have hset : onWorld (setServer srv fun s => { s with nick := newNick }) bot =
      .ok () renamed := rfl
  have hsrv' : renamed.world.servers[srv]? = some { record with nick := newNick } := by
    simp [renamed, hsrv]
  obtain ⟨code, reg, hsend⟩ := serverSend_ok raise hraise (nickLine newNick) hsrv'
  exact ⟨code, reg, (bind_ok hget).trans ((bind_ok hset).trans hsend)⟩

/-! ## Nicks asked for -/

/-- The nick a line of the bot asks the server for. -/
def nickRequest? (line : Str) : Option Str :=
  if (ascii "NICK ").isPrefixOf line then some ((line.drop 5).take (line.length - 7)) else none

theorem nickRequest?_nickLine (newNick : Str) :
    nickRequest? (nickLine newNick) = some newNick := by
  have hprefix : (ascii "NICK ").isPrefixOf (nickLine newNick) = true := by
    rw [List.isPrefixOf_iff_prefix]
    exact ⟨newNick ++ ascii "\r\n", by simp [nickLine]⟩
  have hdrop : (nickLine newNick).drop 5 = newNick ++ ascii "\r\n" := rfl
  have hlen : (nickLine newNick).length - 7 = newNick.length := by
    simp [nickLine, ascii]
  rw [nickRequest?, if_pos hprefix, hdrop, hlen, List.take_left]

end Bcirc
