import Bcirc.CTemplate
import Bcirc.Channel
import Bcirc.Logger

/-!
# Events in the log (`plugins/src/logger/logger.c`)

The callbacks of the logger read the records and print one line for an
event. What they are handed was escaped on reception, piece by piece, and
the names in the records with it: the format of `bcirc_printf` puts the
pieces together, and the log, for which the line is a format again, gets
it with the runs of `%` halved. Over a run of events the log is their
transcript (`logEvents_transcript`). A PART without a reason is not in it:
its branch tests the reason a second time. Neither is a JOIN without a
channel; a KICK without one is the end of the process.
-/

namespace Bcirc

open CProg CStr CFormat

/-! ## The callbacks -/

/-- What `%s` makes of a `char *`. -/
def nullable (s : Option Str) : Str := s.getD (ascii "(null)")

section Callbacks

-- the records are only read
variable (records : World) (depth : Nat)

def serverRecord (srv : Option Nat) : Prog LogWorld Server := do
  let srv ← deref srv
  orFault .nullPointer records.servers[srv]?

def channelRecord (chan : Option Nat) : Prog LogWorld Channel := do
  let chan ← deref chan
  orFault .nullPointer records.channelList[chan]?

def logPrivmsg (params : List Arg) : Prog LogWorld Int := do
  let srv ← (← param params 0).toServer
  let nick ← (← param params 1).toStr
  let target ← (← param params 3).toStr
  let msg ← (← param params 4).toStr
  let srv ← serverRecord records srv
  let _ ← bcircPrintf depth (ascii "%s.%s <%s>: %s\n")
    [.str srv.networkName, .str (nullable target), .str (nullable nick), .str (nullable msg)]
  pure bcircPluginOk

def logJoin (params : List Arg) : Prog LogWorld Int := do
  let chan ← (← param params 0).toChannel
  let nick ← (← param params 1).toStr
  match chan, nick with
  | some chan, some nick => do
      let chan ← channelRecord records (some chan)
      let srv ← serverRecord records (some chan.srv)
      let _ ← bcircPrintf depth (ascii "User %s joined channel %s.%s\n")
        [.str nick, .str srv.networkName, .str chan.name]
      pure bcircPluginOk
  | _, _ => do
      printf (ascii "wut\n")
      pure bcircPluginBreak

def logPart (params : List Arg) : Prog LogWorld Int := do
  let chan ← (← param params 0).toChannel
  let nick ← (← param params 1).toStr
  let _ ← (← param params 2).toStr
  let reason ← (← param params 3).toStr
  match reason with
  | some reason => do
      let chan ← channelRecord records chan
      let srv ← serverRecord records (some chan.srv)
      let _ ← bcircPrintf depth (ascii "User %s left channel %s.%s(%s)\n")
        [.str (nullable nick), .str srv.networkName, .str chan.name, .str reason]
      pure bcircPluginOk
  | none => pure bcircPluginOk -- `else if (reason)`

/-- The server is the fifth of the parameters `get_chan_event` sets, which
counts four. -/
def logQuit (params : List Arg) : Prog LogWorld Int := do
  let _ ← (← param params 0).toChannel
  let nick ← (← param params 1).toStr
  let _ ← (← param params 2).toStr
  let reason ← (← param params 3).toStr
  let srv ← (← param params 4).toServer
  let srv ← serverRecord records srv
  match reason with
  | some reason => do
      let _ ← bcircPrintf depth (ascii "User %s left server %s(%s)\n")
        [.str (nullable nick), .str srv.networkName, .str reason]
      pure bcircPluginOk
  | none => do
      let _ ← bcircPrintf depth (ascii "User %s left server %s\n")
        [.str (nullable nick), .str srv.networkName]
      pure bcircPluginOk

def logKick (params : List Arg) : Prog LogWorld Int := do
  let chan ← (← param params 0).toChannel
  let nick ← (← param params 1).toStr
  let _ ← (← param params 2).toStr
  let reason ← (← param params 3).toStr
  let chan ← channelRecord records chan
  let srv ← serverRecord records (some chan.srv)
  match reason with
  | some reason => do
      let _ ← bcircPrintf depth (ascii "User %s was kicked from channel %s.%s(%s)\n")
        [.str (nullable nick), .str srv.networkName, .str chan.name, .str reason]
      pure bcircPluginOk
  | none => do
      let _ ← bcircPrintf depth (ascii "User %s was kicked from channel %s.%s\n")
        [.str (nullable nick), .str srv.networkName, .str chan.name]
      pure bcircPluginOk

end Callbacks

/-! ## Escaped text as a format -/

/-- Text that was escaped on reception. -/
def Escaped (t : Str) : Prop := ∃ raw, t = evenRuns raw

theorem formats_escaped (raw : Str) : Formats (evenRuns raw) (halfRuns raw) := by
  intro fmt args
  have hfrom : ∀ k, vsnprintf (evenRunsFrom k raw ++ fmt) args =
      (halfRunsFrom k raw ++ ·) <$> vsnprintf fmt args := by
    induction raw with
    | nil =>
        intro k
        rw [evenRunsFrom, percent, vsnprintf_pairs]
        rfl
    | cons c raw ih =>
        intro k
        by_cases hc : c = percent
        · simp only [evenRunsFrom, halfRunsFrom, if_pos hc, ih (k + 1)]
        · simp only [evenRunsFrom, halfRunsFrom, if_neg hc]
          rw [List.append_assoc, List.cons_append, percent, vsnprintf_pairs,
            vsnprintf_cons_ne hc, ih 0, Functor.map_map, Functor.map_map]
          simp only [List.append_assoc, List.cons_append]
  exact hfrom 0

/-- What a text comes to as a format without arguments. -/
def unescape (t : Str) : Str :=
  match vsnprintf t [] with
  | .ok out => out
  | .error _ => []

theorem Escaped.formats {t : Str} (h : Escaped t) : Formats t (unescape t) := by
  obtain ⟨raw, rfl⟩ := h
  have hread : unescape (evenRuns raw) = halfRuns raw := by
    unfold unescape
    rw [vsnprintf_evenRuns]
  rw [hread]
  exact formats_escaped raw

/-! ## Events and their lines -/

/-- An event the logger listens to, with what it is handed: the event
handler raises a JOIN, a PART or a KICK whose line ends early without a
channel, and a PRIVMSG without a target. -/
inductive LogEvent where
  | recv (srv : Nat) (buffer : Str)
  | privmsg (srv : Nat) (nick hostmask target : Option Str) (msg : Str)
  | join (chan : Option Nat) (nick hostmask reason : Option Str)
  | part (chan : Option Nat) (nick hostmask reason : Option Str)
  | quit (chan : Option Nat) (nick hostmask reason : Option Str) (srv : Nat)
  | kick (chan : Option Nat) (nick hostmask reason : Option Str)
  deriving DecidableEq, Repr

namespace LogEvent

/-- The parameters of a channel event. -/
def chanArgs (chan : Option Nat) (nick hostmask reason : Option Str) : List Arg :=
  [chan.elim .null .channel, nick.elim .null .str, hostmask.elim .null .str,
    reason.elim .null .str]

def run (records : World) (depth : Nat) : LogEvent → Prog LogWorld Int
  | recv srv buffer => loggerOnRecv depth [.server srv, .str buffer]
  | privmsg srv nick hostmask target msg =>
      logPrivmsg records depth [.server srv, nick.elim .null .str, hostmask.elim .null .str,
        target.elim .null .str, .str msg]
  | join chan nick hostmask reason => logJoin records depth (chanArgs chan nick hostmask reason)
  | part chan nick hostmask reason => logPart records depth (chanArgs chan nick hostmask reason)
  | quit chan nick hostmask reason srv =>
      logQuit records depth (chanArgs chan nick hostmask reason ++ [.server srv])
  | kick chan nick hostmask reason => logKick records depth (chanArgs chan nick hostmask reason)

/-- The channel is there, and so is its server. -/
def Placed (records : World) (chan : Nat) : Prop :=
  ∃ c s, records.channelList[chan]? = some c ∧ records.servers[c.srv]? = some s

/-- The records it names are there, and it names a channel if the callback
follows the pointer. -/
def Found (records : World) : LogEvent → Prop
  | recv _ _ => True
  | privmsg srv _ _ _ _ | quit _ _ _ _ srv => ∃ s, records.servers[srv]? = some s
  | join chan _ _ _ => ∀ k ∈ chan, Placed records k
  | part chan _ _ reason => reason ≠ none → ∃ k ∈ chan, Placed records k
  | kick chan _ _ _ => ∃ k ∈ chan, Placed records k

/-- The line of an event: how it begins, and the texts in it, each with what
stands behind it. -/
structure Line where
  head : Str
  fields : List (Str × Str)

def network (records : World) (srv : Nat) : Str :=
  (records.servers[srv]?.map (·.networkName)).getD []

/-- The name of a channel behind that of its network. -/
def place (records : World) (chan : Nat) (after : Str) : List (Str × Str) :=
  let c := records.channelList[chan]?
  [(network records ((c.map (·.srv)).getD 0), ascii "."), ((c.map (·.name)).getD [], after)]

/-- The line of what somebody does with a channel. -/
def chanLine (records : World) (nick : Option Str) (does : Str) (chan : Nat) (reason : Option Str) :
    Line :=
  ⟨ascii "User ", (nullable nick, does) :: reason.elim (place records chan (ascii "\n"))
    fun reason => place records chan (ascii "(") ++ [(reason, ascii ")\n")]⟩

def line (records : World) : LogEvent → Option Line
  | recv _ buffer => some ⟨[], [(buffer, ascii "\n")]⟩
  | privmsg srv nick _ target msg =>
      some ⟨[], [(network records srv, ascii "."), (nullable target, ascii " <"),
        (nullable nick, ascii ">: "), (msg, ascii "\n")]⟩
  | join chan nick _ _ =>
      chan.bind fun chan => nick.map fun nick =>
        chanLine records (some nick) (ascii " joined channel ") chan none
  | part chan nick _ reason =>
      chan.bind fun chan => reason.map fun reason =>
        chanLine records nick (ascii " left channel ") chan (some reason)
  | quit _ nick _ none srv =>
      some ⟨ascii "User ", [(nullable nick, ascii " left server "),
        (network records srv, ascii "\n")]⟩
  | quit _ nick _ (some reason) srv =>
      some ⟨ascii "User ", [(nullable nick, ascii " left server "),
        (network records srv, ascii "("), (reason, ascii ")\n")]⟩
  | kick chan nick _ reason =>
      chan.map fun chan => chanLine records nick (ascii " was kicked from channel ") chan reason

/-- What is printed for an event without a line. -/
def remark : LogEvent → Str
  | join _ _ _ _ => ascii "wut\n"
  | _ => []

end LogEvent

namespace LogEvent.Line

/-- What is printed. -/
def printed (line : Line) : Str := fillIn line.head line.fields

/-- What is logged. -/
def logged (line : Line) : Str :=
  fillIn line.head (line.fields.map fun f => (unescape f.1, f.2))

/-- The texts between the fields are those of the formats, the fields were
escaped. -/
structure Ok (line : Line) : Prop where
  head : percent ∉ line.head
  texts : ∀ f ∈ line.fields, percent ∉ f.2
  escaped : ∀ f ∈ line.fields, Escaped f.1

end LogEvent.Line

/-- What a line leaves behind. -/
def LogWorld.record (w : LogWorld) (line : LogEvent.Line) : LogWorld :=
  (w.tick.append (ascii "mainlog") (w.stamp ++ line.logged)).print (w.stamp ++ line.printed)

theorem bcircPrintf_line {w : LogWorld} (h : w.Ready) {line : LogEvent.Line} (hok : line.Ok)
    (depth : Nat) :
    bcircPrintf (depth + 1) (template line.head (line.fields.map Prod.snd))
      (line.fields.map fun f => .str f.1) w = .ok 1 (w.record line) :=
  bcircPrintf_ok h (vsnprintf_template hok.head hok.texts)
    ((Formats.fillIn hok.head hok.texts fun f hf => (hok.escaped f hf).formats).eq_ok []) depth

namespace LogEvent

variable {records : World} {w : LogWorld}

theorem network_eq {srv : Nat} {s : Server} (h : records.servers[srv]? = some s) :
    network records srv = s.networkName := by
  unfold network
  rw [h]
  rfl

theorem place_eq {chan : Nat} {c : Channel} {s : Server}
    (hc : records.channelList[chan]? = some c) (hs : records.servers[c.srv]? = some s)
    (after : Str) :
    place records chan after = [(s.networkName, ascii "."), (c.name, after)] := by
  unfold place
  simp only [hc, Option.map_some, Option.getD_some, network_eq hs]

theorem serverRecord_ok {srv : Nat} {s : Server} (h : records.servers[srv]? = some s) :
    serverRecord records (some srv) w = .ok s w := by
  show orFault .nullPointer records.servers[srv]? w = _
  rw [h]
  rfl

theorem channelRecord_ok {chan : Nat} {c : Channel} (h : records.channelList[chan]? = some c) :
    channelRecord records (some chan) w = .ok c w := by
  show orFault .nullPointer records.channelList[chan]? w = _
  rw [h]
  rfl

theorem logPrivmsg_run (srv : Nat) (nick hostmask target : Option Str) (msg : Str) (depth : Nat) :
    run records depth (.privmsg srv nick hostmask target msg) = (do
      let srv ← serverRecord records (some srv)
      let _ ← bcircPrintf depth (ascii "%s.%s <%s>: %s\n")
        [.str srv.networkName, .str (nullable target), .str (nullable nick), .str msg]
      pure bcircPluginOk) := by
  cases nick <;> cases target <;> rfl

theorem logQuit_run (chan : Option Nat) (nick hostmask reason : Option Str) (srv depth : Nat) :
    run records depth (.quit chan nick hostmask reason srv) = (do
      let srv ← serverRecord records (some srv)
      match reason with
      | some reason => do
          let _ ← bcircPrintf depth (ascii "User %s left server %s(%s)\n")
            [.str (nullable nick), .str srv.networkName, .str reason]
          pure bcircPluginOk
      | none => do
          let _ ← bcircPrintf depth (ascii "User %s left server %s\n")
            [.str (nullable nick), .str srv.networkName]
          pure bcircPluginOk) := by
  cases chan <;> cases nick <;> cases hostmask <;> cases reason <;> rfl

/-- A call of a callback: the line of the event is printed and logged. -/
theorem run_line (hready : w.Ready) (depth : Nat) {event : LogEvent}
    (hfound : event.Found records) {l : Line} (hl : event.line records = some l) (hok : l.Ok) :
    event.run records (depth + 1) w = .ok bcircPluginOk (w.record l) := by
  have hprint := bcircPrintf_line hready hok depth
  cases event with
  | recv srv buffer =>
      obtain rfl := Option.some.inj hl
      exact bind_ok (f := fun _ => pure bcircPluginOk) hprint
  | privmsg srv nick hostmask target msg =>
      obtain ⟨s, hs⟩ := hfound
      rw [line, network_eq hs] at hl
      obtain rfl := Option.some.inj hl
      rw [logPrivmsg_run]
      exact (bind_ok (serverRecord_ok hs)).trans (bind_ok hprint)
  | join chan nick hostmask reason =>
      obtain ⟨chan, rfl, hl⟩ := Option.bind_eq_some_iff.mp hl
      obtain ⟨nick, rfl, rfl⟩ := Option.map_eq_some_iff.mp hl
      obtain ⟨c, s, hc, hs⟩ := hfound chan rfl
      rw [chanLine, Option.elim_none, place_eq hc hs] at hprint ⊢
      exact (bind_ok (channelRecord_ok hc)).trans
        ((bind_ok (serverRecord_ok hs)).trans (bind_ok hprint))
  | part chan nick hostmask reason =>
      obtain ⟨chan, rfl, hl⟩ := Option.bind_eq_some_iff.mp hl
      obtain ⟨reason, rfl, rfl⟩ := Option.map_eq_some_iff.mp hl
      obtain ⟨k, hk, c, s, hc, hs⟩ := hfound (Option.some_ne_none _)
      obtain rfl := Option.some.inj hk
      rw [chanLine, Option.elim_some, place_eq hc hs] at hprint ⊢
      cases nick <;> cases hostmask <;> exact (bind_ok (channelRecord_ok hc)).trans
        ((bind_ok (serverRecord_ok hs)).trans (bind_ok hprint))
  | quit chan nick hostmask reason srv =>
      obtain ⟨s, hs⟩ := hfound
      rw [logQuit_run, bind_ok (serverRecord_ok hs)]
      cases reason with
      | none =>
          rw [line, network_eq hs] at hl
          obtain rfl := Option.some.inj hl
          exact bind_ok hprint
      | some reason =>
          rw [line, network_eq hs] at hl
          obtain rfl := Option.some.inj hl
          exact bind_ok hprint
  | kick chan nick hostmask reason =>
      obtain ⟨chan, rfl, rfl⟩ := Option.map_eq_some_iff.mp hl
      obtain ⟨k, hk, c, s, hc, hs⟩ := hfound
      obtain rfl := Option.some.inj hk
      cases reason with
      | none =>
          rw [chanLine, Option.elim_none, place_eq hc hs] at hprint ⊢
          cases nick <;> cases hostmask <;> exact (bind_ok (channelRecord_ok hc)).trans
            ((bind_ok (serverRecord_ok hs)).trans (bind_ok hprint))
      | some reason =>
          rw [chanLine, Option.elim_some, place_eq hc hs] at hprint ⊢
          cases nick <;> cases hostmask <;> exact (bind_ok (channelRecord_ok hc)).trans
            ((bind_ok (serverRecord_ok hs)).trans (bind_ok hprint))

/-- A JOIN without a channel or a nick is remarked on, a PART without a
reason is not. Every other event has a line. -/
theorem run_silent (depth : Nat) {event : LogEvent} (hfound : event.Found records)
    (hl : event.line records = none) :
    ∃ r, event.run records depth w = .ok r (w.print event.remark) := by
  have hprint : w.print [] = w := by
    unfold LogWorld.print
    rw [List.append_nil]
  cases event with
  | recv _ _ | privmsg _ _ _ _ _ => cases hl
  | join chan nick hostmask reason =>
      refine ⟨bcircPluginBreak, ?_⟩
      cases chan with
      | none => cases nick <;> rfl
      | some chan =>
          cases nick with
          | none => rfl
          | some nick => cases hl
  | part chan nick hostmask reason =>
      refine ⟨bcircPluginOk, ?_⟩
      refine Eq.trans ?_ (congrArg (EStateM.Result.ok bcircPluginOk) hprint.symm)
      cases reason with
      | none => cases chan <;> cases nick <;> cases hostmask <;> rfl
      | some reason =>
          obtain ⟨k, hk, -⟩ := hfound (Option.some_ne_none _)
          obtain rfl := Option.mem_def.mp hk
          cases hl
  | quit _ _ _ reason _ =>
      cases reason with
      | none => cases hl
      | some reason => cases hl
  | kick chan nick hostmask reason =>
      obtain ⟨k, hk, -⟩ := hfound
      obtain rfl := Option.mem_def.mp hk
      cases hl

end LogEvent

/-! ## Runs -/

/-- What an event comes with on a line that was received: the records are
there, and the texts are escaped and have no line end. -/
structure LogEvent.Received (records : World) (event : LogEvent) : Prop where
  found : event.Found records
  texts : ∀ l, event.line records = some l → ∀ f ∈ l.fields, Escaped f.1 ∧ 10 ∉ f.1

namespace LogEvent

/-- A line of the formats: `%` stands for fields only, and a line end at the
end only. -/
structure Line.Framed (l : Line) : Prop where
  head : percent ∉ l.head ∧ 10 ∉ l.head
  cut : ∃ before last text, l.fields = before ++ [(last, text ++ [10])] ∧
    (percent ∉ text ∧ 10 ∉ text) ∧ ∀ f ∈ before, percent ∉ f.2 ∧ 10 ∉ f.2

theorem chanLine_framed (records : World) (nick : Option Str) {does : Str}
    (hdoes : percent ∉ does ∧ 10 ∉ does) (chan : Nat) (reason : Option Str) :
    (chanLine records nick does chan reason).Framed := by
  have hempty : percent ∉ ([] : Str) ∧ 10 ∉ ([] : Str) := ⟨List.not_mem_nil, List.not_mem_nil⟩
  have huser : percent ∉ ascii "User " ∧ 10 ∉ ascii "User " := by decide
  have hdot : percent ∉ ascii "." ∧ 10 ∉ ascii "." := by decide
  cases reason with
  | none =>
      refine ⟨huser, [_, _], _, [], rfl, hempty, ?_⟩
      simp only [List.forall_mem_cons]
      exact ⟨hdoes, hdot, by simp⟩
  | some reason =>
      refine ⟨huser, [_, _, _], reason, ascii ")", rfl, by decide, ?_⟩
      simp only [List.forall_mem_cons]
      exact ⟨hdoes, hdot, by decide, by simp⟩

theorem line_framed {records : World} {event : LogEvent} {l : Line}
    (hl : event.line records = some l) : l.Framed := by
  have hempty : percent ∉ ([] : Str) ∧ 10 ∉ ([] : Str) := ⟨List.not_mem_nil, List.not_mem_nil⟩
  have huser : percent ∉ ascii "User " ∧ 10 ∉ ascii "User " := by decide
  cases event with
  | recv srv buffer =>
      obtain rfl := Option.some.inj hl
      exact ⟨hempty, [], buffer, [], rfl, hempty, by simp⟩
  | privmsg srv nick hostmask target msg =>
      obtain rfl := Option.some.inj hl
      refine ⟨hempty, [_, _, _], msg, [], rfl, hempty, ?_⟩
      simp only [List.forall_mem_cons]
      exact ⟨by decide, by decide, by decide, by simp⟩
  | join chan nick hostmask reason =>
      obtain ⟨chan, -, hl⟩ := Option.bind_eq_some_iff.mp hl
      obtain ⟨nick, -, rfl⟩ := Option.map_eq_some_iff.mp hl
      exact chanLine_framed records _ (by decide) chan _
  | part chan nick hostmask reason =>
      obtain ⟨chan, -, hl⟩ := Option.bind_eq_some_iff.mp hl
      obtain ⟨reason, -, rfl⟩ := Option.map_eq_some_iff.mp hl
      exact chanLine_framed records _ (by decide) chan _
  | quit chan nick hostmask reason srv =>
      cases reason with
      | none =>
          obtain rfl := Option.some.inj hl
          refine ⟨huser, [_], _, [], rfl, hempty, ?_⟩
          simp only [List.forall_mem_cons]
          exact ⟨by decide, by simp⟩
      | some reason =>
          obtain rfl := Option.some.inj hl
          refine ⟨huser, [_, _], reason, ascii ")", rfl, by decide, ?_⟩
          simp only [List.forall_mem_cons]
          exact ⟨by decide, by decide, by simp⟩
  | kick chan nick hostmask reason =>
      obtain ⟨chan, -, rfl⟩ := Option.map_eq_some_iff.mp hl
      exact chanLine_framed records _ (by decide) chan _

theorem Received.line_ok {records : World} {event : LogEvent} (h : event.Received records)
    {l : Line} (hl : event.line records = some l) : l.Ok := by
  obtain ⟨hhead, before, last, text, hfields, htext, hbefore⟩ := line_framed hl
  refine ⟨hhead.1, ?_, fun f hf => (h.texts l hl f hf).1⟩
  rw [hfields, List.forall_mem_append]
  refine ⟨fun f hf => (hbefore f hf).1, ?_⟩
  rw [List.forall_mem_singleton, List.mem_append, List.mem_singleton]
  exact not_or.mpr ⟨htext.1, by decide⟩

theorem newline_not_mem_unescape {t : Str} (h : 10 ∉ t) : 10 ∉ unescape t := by
  unfold unescape
  cases ht : vsnprintf t [] with
  | ok out => exact fun hmem => h (mem_of_vsnprintf_nil ht hmem)
  | error e => exact List.not_mem_nil

/-- An event is one line of the log. -/
theorem Received.oneLine {records : World} {event : LogEvent} (h : event.Received records)
    {l : Line} (hl : event.line records = some l) :
    ∃ body, l.logged = body ++ [10] ∧ 10 ∉ body := by
  obtain ⟨hhead, before, last, text, hfields, htext, hbefore⟩ := line_framed hl
  have htexts := h.texts l hl
  rw [hfields, List.forall_mem_append, List.forall_mem_singleton] at htexts
  refine ⟨fillIn l.head (before.map fun f => (unescape f.1, f.2)) ++ (unescape last ++ text),
    ?_, ?_⟩
  · unfold Line.logged fillIn
    rw [hfields]
    simp
  · unfold fillIn
    simp only [List.mem_append, List.mem_flatMap, List.mem_map, not_or, not_exists]
    refine ⟨⟨hhead.2, ?_⟩, newline_not_mem_unescape htexts.2.2, htext.2⟩
    rintro f ⟨⟨f, hf, rfl⟩, hmem⟩
    rcases hmem with hfield | hafter
    · exact newline_not_mem_unescape (htexts.1 f hf).2 hfield
    · exact (hbefore f hf).2 hafter

end LogEvent

/-- The events one after the other, each with the records at its time. -/
def logEvents (depth : Nat) : List (World × LogEvent) → Prog LogWorld Unit
  | [] => pure ()
  | (records, event) :: events => do
      let _ ← event.run records depth
      logEvents depth events

/-- What is appended to the log for some lines from the time `n` on. -/
def transcript (logDir : Str) (clock : Nat → Tm) : Nat → List LogEvent.Line → List (Str × Str)
  | _, [] => []
  | n, l :: lines =>
      (logPath logDir (ascii "mainlog") (clock (n + 1)),
        (clock n).timePrefix ++ ascii " | " ++ l.logged) ::
          transcript logDir clock (n + 2) lines

/-- What is printed for some events. -/
def printout (clock : Nat → Tm) : Nat → List (World × LogEvent) → Str
  | _, [] => []
  | n, (records, event) :: events =>
      match event.line records with
      | some l => (clock n).timePrefix ++ ascii " | " ++ l.printed ++ printout clock (n + 2) events
      | none => event.remark ++ printout clock n events

theorem LogWorld.Ready.record {w : LogWorld} (h : w.Ready) (l : LogEvent.Line) :
    (w.record l).Ready :=
  ⟨h.dir, Or.inl rfl, h.opens⟩

theorem LogWorld.Ready.print {w : LogWorld} (h : w.Ready) (text : Str) : (w.print text).Ready :=
  ⟨h.dir, h.made, h.opens⟩

def linesOfEvents (events : List (World × LogEvent)) : List LogEvent.Line :=
  events.filterMap fun e => e.2.line e.1

theorem logEvents_run (depth : Nat) {w : LogWorld} (hready : w.Ready)
    {events : List (World × LogEvent)} (h : ∀ e ∈ events, e.2.Received e.1) :
    ∃ w', logEvents (depth + 1) events w = .ok () w' ∧
      w'.files = w.files ++
        transcript (w.logDir.getD []) w.clock w.ticks (linesOfEvents events) ∧
      w'.stdout = w.stdout ++ printout w.clock w.ticks events := by
  induction events generalizing w with
  | nil => exact ⟨w, rfl, (List.append_nil _).symm, (List.append_nil _).symm⟩
  | cons e events ih =>
      obtain ⟨records, event⟩ := e
      obtain ⟨hevent, hevents⟩ := List.forall_mem_cons.mp h
      rw [printout]
      cases hl : event.line records with
      | none =>
          obtain ⟨r, hrun⟩ := LogEvent.run_silent (w := w) (depth + 1) hevent.found hl
          obtain ⟨w', hrest, hfiles, hstdout⟩ := ih (hready.print event.remark) hevents
          have hlines : linesOfEvents ((records, event) :: events) = linesOfEvents events :=
            List.filterMap_cons_none hl
          rw [hlines]
          refine ⟨w', (bind_ok hrun).trans hrest, hfiles, ?_⟩
          rw [hstdout, ← List.append_assoc]
          rfl
      | some l =>
          have hrun := LogEvent.run_line hready depth hevent.found hl (hevent.line_ok hl)
          obtain ⟨w', hrest, hfiles, hstdout⟩ := ih (hready.record l) hevents
          have hlines : linesOfEvents ((records, event) :: events) =
              l :: linesOfEvents events := List.filterMap_cons_some hl
          rw [hlines]
          refine ⟨w', (bind_ok hrun).trans hrest, ?_, ?_⟩
          · rw [hfiles, transcript]
            exact List.append_assoc _ _ _
          · rw [hstdout]
            show w.stdout ++ (w.stamp ++ l.printed) ++ _ = _
            rw [List.append_assoc]
            rfl

theorem newline_not_mem_time (tm : Tm) : 10 ∉ tm.timePrefix ++ ascii " | " := by
  have htwo : ∀ n : Fin 61, 10 ∉ twoDigits n := by decide
  have hhour := htwo (tm.hour.castLE (by omega))
  have hmin := htwo (tm.min.castLE (by omega))
  have hcolon : 10 ∉ ascii ":" := by decide
  have hbar : 10 ∉ ascii " | " := by decide
  unfold Tm.timePrefix
  simp only [List.mem_append, not_or]
  exact ⟨⟨⟨⟨⟨hhour, hcolon⟩, hmin⟩, hcolon⟩, htwo tm.sec⟩, hbar⟩

theorem transcript_oneLine {events : List (World × LogEvent)}
    (h : ∀ e ∈ events, e.2.Received e.1) (logDir : Str) (clock : Nat → Tm) (n : Nat) :
    ∀ r ∈ transcript logDir clock n (linesOfEvents events), ∃ body, r.2 = body ++ [10] ∧
      10 ∉ body := by
  have hlines : ∀ l ∈ linesOfEvents events, ∃ body, l.logged = body ++ [10] ∧ 10 ∉ body := by
    intro l hl
    obtain ⟨e, he, hline⟩ := List.mem_filterMap.mp hl
    exact (h e he).oneLine hline
  generalize linesOfEvents events = lines at hlines ⊢
  induction lines generalizing n with
  | nil => exact fun r hr => absurd hr List.not_mem_nil
  | cons l lines ih =>
      obtain ⟨hl, hrest⟩ := List.forall_mem_cons.mp hlines
      rw [transcript, List.forall_mem_cons]
      refine ⟨?_, ih (n + 2) hrest⟩
      obtain ⟨body, hlogged, hbody⟩ := hl
      refine ⟨(clock n).timePrefix ++ ascii " | " ++ body, ?_, ?_⟩
      · rw [hlogged, ← List.append_assoc]
      · rw [List.mem_append, not_or]
        exact ⟨newline_not_mem_time _, hbody⟩

/-- A PRIVMSG without a target and a KICK are logged; a PART without a reason
and a JOIN without a channel are not. -/
def eventsSample : List (World × LogEvent) :=
  let records := { sampleWorld with
    channelList := [⟨ascii "#chan", none, none, none, 0, none, none, 0⟩] }
  [(records, .privmsg 0 (some (ascii "ann")) (some (ascii "a@b.org")) none (ascii "50%%")),
    (records, .part (some 0) (some (ascii "ann")) (some (ascii "a@b.org")) none),
    (records, .join none (some (ascii "ann")) (some (ascii "a@b.org")) none),
    (records, .kick (some 0) (some (ascii "op")) (some (ascii "o@b.org")) (some (ascii "ob :bye")))]

theorem eventsSample_received : ∀ e ∈ eventsSample, e.2.Received e.1 := by
  have hfree : ∀ {t : Str}, percent ∉ t → Escaped t := fun h => ⟨_, (evenRuns_of_not_mem h).symm⟩
  have hmsg : Escaped (ascii "50%%") := ⟨ascii "50%", by decide⟩
  unfold eventsSample
  simp only [List.forall_mem_cons]
  refine ⟨⟨⟨_, rfl⟩, ?_⟩, ⟨fun h => absurd rfl h, ?_⟩, ⟨fun _ h => (by cases h), ?_⟩,
    ⟨⟨0, rfl, _, _, rfl, rfl⟩, ?_⟩, by simp⟩
  · rintro l ⟨⟩
    simp only [List.forall_mem_cons]
    exact ⟨⟨hfree (by decide), by decide⟩, ⟨hfree (by decide), by decide⟩,
      ⟨hfree (by decide), by decide⟩, ⟨hmsg, by decide⟩, by simp⟩
  · rintro l ⟨⟩
  · rintro l ⟨⟩
  · rintro l ⟨⟩
    have hfields : ∀ t ∈ [ascii "op", ascii "net", ascii "#chan", ascii "ob :bye"],
        percent ∉ t ∧ 10 ∉ t := by decide
    intro f hf
    obtain ⟨hpercent, hend⟩ := hfields f.1 (by
      have hmem := List.mem_map_of_mem (f := Prod.fst) hf
      exact hmem)
    exact ⟨hfree hpercent, hend⟩

end Bcirc
