import Bcirc.IrcCmds
import Bcirc.Logger

/-!
# Joining and parting (`join_channel`, `part_channel` in `src/irc_cmds.c`)

Both functions use their buffer as a format once more. `join_channel` does
so when the name is in the line already, so a `%` of the name or the key is
read as a directive. `part_channel` has lost its template by then: the
buffer is what `malloc` returned. `buf_copy` is one byte short in both; it
is given that byte here.
-/

namespace Bcirc

open CProg CStr CFormat

variable {φ : Type} (raise : Str → List Arg → Prog (Bot φ World) Int)

/-! ## The functions -/

/-- The size of the block that `part_channel` allocates. -/
def partSize (name : Str) : Nat := (ascii "PART %s\r\n").length + name.length + 1

/-- `fresh` are the bytes of the block as `malloc` returned it. `reason` is
not used. -/
def partChannel (fresh : List UInt8) (chan : Nat) : Prog (Bot φ World) Int := do
  let record ← onWorld (getChannelRecord chan)
  if 0 ∉ fresh then throw .outOfBounds
  let buf ← liftExcept (sprintf (untilNul fresh) [record.name])
  if partSize record.name ≤ buf.length then throw .outOfBounds
  serverSend raise (some buf) record.srv

/-- `autojoin_on_invite` (`plugins/src/autojoin/autojoin.c`). -/
def autojoinOnInvite (params : List Arg) : Prog (Bot φ World) Int := do
  match ← (← param params 0).toChannel with
  | none => pure bcircPluginFail
  | some chan => do
      let record ← onWorld (getChannelRecord chan)
      let _ ← joinChannel raise record.name none record.srv
      pure bcircPluginOk

/-! ## The lines that are meant -/

def joinLine (name : Str) (pass : Option Str) : Str :=
  ascii "JOIN " ++ name ++ (pass.elim [] fun key => ascii " " ++ key) ++ ascii "\r\n"

def partLine (name : Str) : Str := ascii "PART " ++ name ++ ascii "\r\n"

/-- `server_send` gets the line, whatever the callbacks do. -/
def JoinsExactly (φ : Type) (name : Str) (pass : Option Str) : Prop :=
  ∀ (raise : Str → List Arg → Prog (Bot φ World) Int) (srv : Nat),
    joinChannel raise name pass srv = serverSend raise (some (joinLine name pass)) srv

/-- The same for every block that `malloc` may return. -/
def PartsExactly (φ : Type) (name : Str) : Prop :=
  ∀ (raise : Str → List Arg → Prog (Bot φ World) Int) (fresh : List UInt8) (chan : Nat)
    (bot : Bot φ World) (record : Channel), fresh.length = partSize name →
    bot.world.channelList[chan]? = some record → record.name = name →
      partChannel raise fresh chan bot = serverSend raise (some (partLine name)) record.srv bot

/-- A parameter of a command: one word. -/
def IsParam (s : Str) : Prop := s ≠ [] ∧ 32 ∉ s ∧ 0 ∉ s ∧ 13 ∉ s ∧ 10 ∉ s

/-! ## Joining -/

/-- The two models of `printf` agree on strings. -/
theorem sprintf_eq (fmt : Str) (args : List Str) :
    sprintf fmt args = vsnprintf fmt (args.map .str) := by
  induction fmt, args using sprintf.induct with
  | case1 args => rfl
  | case2 args => rfl
  | case3 c args hc => simp [sprintf, vsnprintf, hc]
  | case4 c d fmt args hc ih =>
      rw [vsnprintf_cons_ne hc, ← ih, sprintf.eq_def]
      exact if_pos hc
  | case5 c fmt args hc ih =>
      obtain rfl : c = 37 := not_not.mp hc
      rw [vsnprintf_directive (if_pos rfl), sprintf.eq_def]
      simp only [ne_eq, not_true, if_false, if_true, ih]
      rfl
  | case6 c fmt hc a args hs ih =>
      obtain rfl : c = 37 := not_not.mp hc
      have hconvert : convert 115 (.str a :: args.map .str) = some (a, args.map .str) := rfl
      rw [List.map_cons, vsnprintf_directive hconvert, sprintf.eq_def]
      simp only [ne_eq, not_true, if_false, if_true, if_neg hs, ih]
  | case7 c d fmt hc hd a args hs =>
      obtain rfl : c = 37 := not_not.mp hc
      have hconvert : convert d (.str a :: args.map .str) = none := by
        simp [convert, hd, hs]
      rw [List.map_cons, vsnprintf.eq_def, sprintf.eq_def]
      simp only [ne_eq, not_true, if_false, if_neg hd, if_neg hs, hconvert]
  | case8 c d fmt hc hd =>
      obtain rfl : c = 37 := not_not.mp hc
      have hconvert : convert d [] = none := if_neg hd
      rw [List.map_nil, vsnprintf.eq_def, sprintf.eq_def]
      simp only [ne_eq, not_true, if_false, if_neg hd, hconvert]

/-- The room that `join_channel` allocates. -/
def joinSize (name : Str) (pass : Option Str) : Nat :=
  match pass with
  | none => 4 + 1 + name.length + 2 + 1
  | some key => 4 + 1 + name.length + 2 + key.length + 2 + 1

theorem length_joinLine_lt (name : Str) (pass : Option Str) :
    (joinLine name pass).length < joinSize name pass := by
  have hcommand : (ascii "JOIN ").length = 5 := rfl
  have hblank : (ascii " ").length = 1 := rfl
  have hend : (ascii "\r\n").length = 2 := rfl
  cases pass with
  | none =>
      simp only [joinLine, joinSize, Option.elim_none, List.length_append, List.length_nil,
        hcommand, hend]
      omega
  | some key =>
      simp only [joinLine, joinSize, Option.elim_some, List.length_append, hcommand, hblank, hend]
      omega

/-- The line is the format of what is sent. -/
theorem joinChannel_eq (name : Str) (pass : Option Str) (srv : Nat) :
    joinChannel raise name pass srv = (do
      let buf ← liftExcept (vsnprintf (joinLine name pass) [.str name])
      if joinSize name pass ≤ buf.length then throw .outOfBounds
      serverSend raise (some buf) srv : Prog (Bot φ World) Int) := by
  have hformat := sprintf_eq (joinLine name pass) [name]
  rw [List.map_singleton] at hformat
  rw [← hformat]
  cases pass with
  | none =>
      have hline : ascii "JOIN " ++ name ++ ascii "\r\n" = joinLine name none := by
        simp [joinLine]
      unfold joinChannel
      simp only [hline]
      rfl
  | some key =>
      have hline : ascii "JOIN " ++ name ++ ascii " " ++ key ++ ascii "\r\n" =
          joinLine name (some key) := by
        simp [joinLine]
      unfold joinChannel
      simp only [hline]
      rfl

/-- What the format comes to is sent. -/
theorem joinChannel_sends {name buf : Str} {pass : Option Str}
    (hbuf : vsnprintf (joinLine name pass) [.str name] = .ok buf)
    (hfits : buf.length < joinSize name pass) (srv : Nat) :
    joinChannel raise name pass srv = serverSend raise (some buf) srv := by
  rw [joinChannel_eq, hbuf, liftExcept_ok, pure_bind, if_neg (Nat.not_le.mpr hfits)]

theorem joinsExactly_of_not_mem {name : Str} {pass : Option Str} (hname : 37 ∉ name)
    (hpass : ∀ key ∈ pass, 37 ∉ key) : JoinsExactly φ name pass := by
  intro raise srv
  refine joinChannel_sends raise (vsnprintf_of_not_mem ?_ _) (length_joinLine_lt name pass) srv
  have hcommand : (37 : UInt8) ∉ ascii "JOIN " := by decide
  have hblank : (37 : UInt8) ∉ ascii " " := by decide
  have hend : (37 : UInt8) ∉ ascii "\r\n" := by decide
  cases pass with
  | none => simp [joinLine, hcommand, hname, hend]
  | some key => simp [joinLine, hcommand, hname, hblank, hend, hpass key rfl]

/-- A name that was received is escaped: its runs of `%` are sent halved. -/
theorem joinChannel_received (name : Str) (srv : Nat) :
    joinChannel raise (evenRuns name) none srv =
      serverSend raise (some (joinLine (halfRuns name) none)) srv := by
  have hline : joinLine (evenRuns name) none = ascii "JOIN " ++ evenRuns (name ++ [13, 10]) := by
    rw [evenRuns_append_cons name (by decide)]
    simp [joinLine]
    rfl
  have hhalf : halfRuns (name ++ [13, 10]) = halfRuns name ++ [13, 10] := by
    have hsplit : name ++ [13, 10] = name ++ [13] ++ [10] := by simp
    rw [hsplit, halfRuns_concat _ (by decide), halfRuns_concat _ (by decide)]
    simp
  have hformat : vsnprintf (joinLine (evenRuns name) none) [.str (evenRuns name)] =
      .ok (joinLine (halfRuns name) none) := by
    rw [hline, vsnprintf_append (by decide), vsnprintf_escaped, hhalf]
    show Except.ok _ = Except.ok _
    simp [joinLine]
    rfl
  refine joinChannel_sends raise hformat ?_ srv
  have hshort := (length_vsnprintf_nil (vsnprintf_evenRuns name)).1
  have hlt := length_joinLine_lt (halfRuns name) none
  unfold joinSize at hlt ⊢
  simp only at hlt ⊢
  omega

/-- What the bot sends on an invitation to a channel of that name. -/
theorem autojoinOnInvite_received {chan : Nat} {name : Str} {bot : Bot φ World} {record : Channel}
    (hrecord : bot.world.channelList[chan]? = some record) (hname : record.name = evenRuns name)
    (rest : List Arg) :
    autojoinOnInvite raise (.channel chan :: rest) bot = (do
      let _ ← serverSend raise (some (joinLine (halfRuns name) none)) record.srv
      pure bcircPluginOk : Prog (Bot φ World) Int) bot := by
  have hget : onWorld (getChannelRecord chan) bot = .ok record bot := onWorld_ok (by
    unfold getChannelRecord
    rw [get_bind_run, hrecord]
    rfl)
  unfold autojoinOnInvite
  show (onWorld (getChannelRecord chan) >>= _) bot = _
  rw [bind_ok hget, hname, joinChannel_received]

/-! ## Parting -/

/-- The socket takes what `server_send` is given. -/
theorem serverSend_injective {a b : Str} {srv : Nat} {bot : Bot φ World} {record : Server}
    (hsrv : bot.world.servers[srv]? = some record)
    (h : serverSend idleRaise (some a) srv bot = serverSend idleRaise (some b) srv bot) :
    a = b := by
  obtain ⟨code, reg, ha⟩ := serverSend_ok idleRaise keepsWorld_idleRaise a hsrv
  obtain ⟨code', reg', hb⟩ := serverSend_ok idleRaise keepsWorld_idleRaise b hsrv
  have hsends : ∀ buf, (afterSend srv buf bot.world).sends =
      bot.world.sends ++ [⟨srv, buf, bot.world.sendResults.headD buf.length⟩] := by
    intro buf
    unfold afterSend
    split
    · rfl
    · rfl
  rw [ha, hb] at h
  have hworld := congrArg (fun r => (endState r).world.sends) h
  simp only [endState_ok, hsends] at hworld
  have hcall := List.cons.inj (List.append_cancel_left hworld)
  injection hcall.1

/-- A channel with that name. -/
def partWorld (name : Str) : World :=
  { sampleWorld with channelList := [⟨name, none, none, none, 0, none, none, 0⟩] }

/-- A block of zeros is the empty format. -/
theorem partChannel_zeros (name : Str) :
    partChannel idleRaise (List.replicate (partSize name) 0) 0
        (⟨initIndex, partWorld name⟩ : Bot φ World) =
      serverSend idleRaise (some []) 0 ⟨initIndex, partWorld name⟩ := by
  have hsize : partSize name = (ascii "PART %s\r\n").length + name.length + 1 := rfl
  have hmem : ¬ 0 ∉ List.replicate (partSize name) (0 : UInt8) := by simp [hsize]
  have hformat : untilNul (List.replicate (partSize name) 0) = [] := by
    rw [hsize, List.replicate_succ]
    rfl
  have hfits : ¬ partSize name ≤ ([] : Str).length := by simp [hsize]
  unfold partChannel
  show (do
    if 0 ∉ List.replicate (partSize name) (0 : UInt8) then throw .outOfBounds
    let buf ← liftExcept (sprintf (untilNul (List.replicate (partSize name) 0)) [name])
    if partSize name ≤ buf.length then throw .outOfBounds
    serverSend idleRaise (some buf) 0 : Prog (Bot φ World) Int) ⟨initIndex, partWorld name⟩ = _
  rw [if_neg hmem, hformat]
  show (do
    if partSize name ≤ ([] : Str).length then throw .outOfBounds
    serverSend idleRaise (some []) 0 : Prog (Bot φ World) Int) ⟨initIndex, partWorld name⟩ = _
  rw [if_neg hfits]

theorem not_partsExactly (φ : Type) (name : Str) : ¬ PartsExactly φ name := by
  intro h
  have hsent := h idleRaise (List.replicate (partSize name) 0) 0 ⟨initIndex, partWorld name⟩
    ⟨name, none, none, none, 0, none, none, 0⟩ List.length_replicate rfl rfl
  rw [partChannel_zeros] at hsent
  have hsrv : (partWorld name).servers[0]? = some sampleServer := rfl
  have hlen := congrArg List.length (serverSend_injective hsrv hsent)
  rw [partLine, List.length_append, List.length_append, List.length_nil] at hlen
  have hcommand : (ascii "PART ").length = 5 := rfl
  omega

/-! ## Exactly these lines -/

/-- `join_channel` is exact without a `%`, `part_channel` for no name: what
it sends is up to `malloc`. -/
theorem not_joins_and_parts (φ : Type) (name : Str) (pass : Option Str) :
    ¬ (JoinsExactly φ name pass ∧ PartsExactly φ name) ∧
      (37 ∉ name → (∀ key ∈ pass, 37 ∉ key) → JoinsExactly φ name pass) :=
  ⟨fun h => not_partsExactly φ name h.2, joinsExactly_of_not_mem⟩

/-- `#chan`, without a key. -/
theorem not_joins_and_parts_exactly :
    ¬ ∀ (name : Str) (pass : Option Str), IsParam name → (∀ key ∈ pass, IsParam key) →
      JoinsExactly Unit name pass ∧ PartsExactly Unit name := by
  intro h
  have hname : IsParam (ascii "#chan") := by
    unfold IsParam
    decide
  exact not_partsExactly Unit _ (h (ascii "#chan") none hname fun _ hkey => nomatch hkey).2

end Bcirc
