import Bcirc.DispatchKept
import Bcirc.Plugins

/-!
# What the plugins' functions answer

`Handler.Spares` says of each function with which arguments it does not
answer FAIL, and `Admissible` with which arguments an event may be raised
for the functions that listen to it. The events that a function raises are
admissible again, if only it is called with such arguments itself
(`Keeps.run`).
-/

namespace Bcirc

open CProg CStr

/-! ## Who listens -/

def RepoPlugin.all : List RepoPlugin := [.core, .eventsHandler, .channelHandler, .title]

/-- The functions that the plugins register for an event. -/
def listeners (cbName : Str) : List Handler :=
  RepoPlugin.all.flatMap fun plugin =>
    plugin.calls.filterMap fun c => if c.cbName = some cbName then c.cbFunc else none

theorem mem_listeners {plugin : RepoPlugin} {c : RegisterCall Handler} (hc : c ∈ plugin.calls)
    {cbName : Str} {h : Handler} (hname : c.cbName = some cbName) (hfunc : c.cbFunc = some h) :
    h ∈ listeners cbName := by
  have hall : plugin ∈ RepoPlugin.all := by cases plugin <;> decide
  refine List.mem_flatMap.mpr ⟨plugin, hall, List.mem_filterMap.mpr ⟨c, hc, ?_⟩⟩
  rw [if_pos hname, hfunc]

theorem listeners_serverRecv :
    listeners callbackServerRecv = [.handlePing, .getPrivmsg, .getNumeric, .getChanEvent] := by
  decide +kernel

theorem listeners_gotNumeric :
    listeners callbackGotNumeric = [.gotIn, .handleNick, .getChannelInfo] := by
  decide +kernel

theorem listeners_gotPrivmsg : listeners callbackGotPrivmsg = [.checkForUrl, .addUrl] := by
  decide +kernel

theorem listeners_serverSend : listeners callbackServerSend = [] := by
  decide +kernel

theorem listeners_callbacksExecuted : listeners callbackCallbacksExecuted = [] := by
  decide +kernel

theorem listeners_chanEvent (event : ChanEvent) {h : Handler}
    (hh : h ∈ listeners event.callback) : h = .removeUser := by
  have hall : ∀ h ∈ listeners event.callback, h = .removeUser := by
    cases event <;> decide +kernel
  exact hall h hh

theorem loadPlugins_registersOnly (loads : List Load) {reg : Registry Handler}
    (h : reg.RegistersOnly fun cbName f => f ∈ listeners cbName) :
    (loadPlugins loads reg).RegistersOnly fun cbName f => f ∈ listeners cbName := by
  induction loads generalizing reg with
  | nil => exact h
  | cons l loads ih =>
      refine ih (loadPlugin_registersOnly (fun init hinit c hc name f hname hf => ?_) l.path h)
      cases hinit
      exact mem_listeners hc hname hf

/-! ## Which arguments a function may be called with -/

def PrivmsgParse.lacksTarget : PrivmsgParse → Bool
  | .message _ _ none _ => true
  | _ => false

/-- The end of a list of names, and a PRIVMSG without a target. -/
def Unloads (line : Str) : Prop :=
  numericOf line = some rplEndofnames ∨
    (strstr line (ascii "PRIVMSG")).isSome ∧ (parsePrivmsg line).lacksTarget

instance : DecidablePred Unloads := fun _ => inferInstanceAs (Decidable (_ ∨ _))

/-- Arguments on which a function does not answer FAIL, now or in an event
it raises. -/
def Handler.Spares (args : List Arg) : Handler → Prop
  | .getPrivmsg => ∃ srv line, args = [.server srv, .str line] ∧ ¬ Unloads line
  | .getNumeric => ∃ srv line, args = [.server srv, .str line] ∧ ¬ Unloads line
  | .getChannelInfo => ∃ srv numeric buffer, args = [.server srv, .int numeric, .str buffer] ∧
      numeric ≠ rplEndofnames
  | .checkForUrl => .null ∉ args
  | .serverRejoin => False
  | _ => True

def Admissible (cbName : Str) (args : List Arg) : Prop :=
  ∀ h ∈ listeners cbName, h.Spares args

theorem admissible_serverRecv (srv : Nat) {line : Str} (hline : ¬ Unloads line) :
    Admissible callbackServerRecv [.server srv, .str line] := by
  intro h hh
  rw [listeners_serverRecv] at hh
  simp only [List.mem_cons, List.not_mem_nil, or_false] at hh
  rcases hh with rfl | rfl | rfl | rfl
  · trivial
  · exact ⟨srv, line, rfl, hline⟩
  · exact ⟨srv, line, rfl, hline⟩
  · trivial

theorem admissible_gotNumeric (srv : Nat) {numeric : Int} {line : Str}
    (hnumeric : numericOf line = some numeric) (hline : ¬ Unloads line) :
    Admissible callbackGotNumeric [.server srv, .int numeric, .str line] := by
  intro h hh
  rw [listeners_gotNumeric] at hh
  simp only [List.mem_cons, List.not_mem_nil, or_false] at hh
  rcases hh with rfl | rfl | rfl
  · trivial
  · trivial
  · refine ⟨srv, numeric, line, rfl, ?_⟩
    rintro rfl
    exact hline (Or.inl hnumeric)

theorem admissible_gotPrivmsg {args : List Arg} (hargs : .null ∉ args) :
    Admissible callbackGotPrivmsg args := by
  intro h hh
  rw [listeners_gotPrivmsg] at hh
  simp only [List.mem_cons, List.not_mem_nil, or_false] at hh
  rcases hh with rfl | rfl
  · exact hargs
  · trivial

theorem admissible_serverSend (args : List Arg) : Admissible callbackServerSend args := by
  intro h hh
  rw [listeners_serverSend] at hh
  cases hh

theorem admissible_chanEvent (event : ChanEvent) (args : List Arg) :
    Admissible event.callback args := by
  intro h hh
  rw [listeners_chanEvent event hh]
  trivial

/-! ## Reading parameters -/

section Reading

variable {σ : Type} {I : σ → Prop}

theorem Ensures.withDeref {α β : Type} {S : β → Prop} {o : Option α} {f : α → Prog σ β}
    (hf : ∀ a, Ensures I (f a) S) : Ensures I (deref o >>= f) S :=
  Ensures.bind (Ensures.orFault _ fun _ _ => trivial) fun a (_ : True) => hf a

theorem Ensures.withServer {β : Type} {S : β → Prop} {params : List Arg} {i : Nat}
    {f : Option Nat → Prog σ β} (hf : ∀ srv, Ensures I (f srv) S) :
    Ensures I (param params i >>= fun a => a.toServer >>= f) S := by
  refine Ensures.bind (Ensures.orFault _ fun _ _ => trivial) fun a (_ : True) => ?_
  cases a with
  | null => exact hf none
  | server srv => exact hf (some srv)
  | channel _ | int _ | str _ => exact Ensures.throw_bind _

theorem Ensures.withChannel {β : Type} {S : β → Prop} {params : List Arg} {i : Nat}
    {f : Option Nat → Prog σ β} (hf : ∀ chan, Ensures I (f chan) S) :
    Ensures I (param params i >>= fun a => a.toChannel >>= f) S := by
  refine Ensures.bind (Ensures.orFault _ fun _ _ => trivial) fun a (_ : True) => ?_
  cases a with
  | null => exact hf none
  | channel chan => exact hf (some chan)
  | server _ | int _ | str _ => exact Ensures.throw_bind _

theorem Ensures.withStr {β : Type} {S : β → Prop} {params : List Arg} {i : Nat}
    {f : Option Str → Prog σ β} (hf : ∀ str, Ensures I (f str) S) :
    Ensures I (param params i >>= fun a => a.toStr >>= f) S := by
  refine Ensures.bind (Ensures.orFault _ fun _ _ => trivial) fun a (_ : True) => ?_
  cases a with
  | null => exact hf none
  | str s => exact hf (some s)
  | server _ | channel _ | int _ => exact Ensures.throw_bind _

theorem Ensures.withInt {β : Type} {S : β → Prop} {params : List Arg} {i : Nat}
    {f : Option Int → Prog σ β} (hf : ∀ n, Ensures I (f n) S) :
    Ensures I (param params i >>= fun a => a.toInt >>= f) S := by
  refine Ensures.bind (Ensures.orFault _ fun _ _ => trivial) fun a (_ : True) => ?_
  cases a with
  | null => exact hf none
  | int n => exact hf (some n)
  | server _ | channel _ | str _ => exact Ensures.throw_bind _

end Reading

/-! ## The functions that raise no event -/

section NoEvent

theorem ok_ne_fail : bcircPluginOk ≠ bcircPluginFail := by decide
theorem continue_ne_fail : bcircPluginContinue ≠ bcircPluginFail := by decide
theorem break_ne_fail : bcircPluginBreak ≠ bcircPluginFail := by decide

theorem getChannelTitle_ne_fail (chan : Nat) (buffer : Str) :
    Ensures (fun _ => True) (getChannelTitle chan buffer) (· ≠ bcircPluginFail) := by
  refine Ensures.after ?_
  intro colon
  refine Ensures.ite ?_ ?_
  · intro _
    exact Ensures.throw_bind _
  · intro _
    exact Ensures.after fun _ => Ensures.pure ok_ne_fail

theorem getChannelTitleInfo_ne_fail (chan : Nat) (buffer : Str) :
    Ensures (fun _ => True) (getChannelTitleInfo chan buffer) (· ≠ bcircPluginFail) := by
  refine Ensures.after ?_
  intro infoStart
  split
  · exact Ensures.pure ok_ne_fail
  · exact Ensures.after fun _ => Ensures.pure ok_ne_fail
  · exact Ensures.after fun _ => Ensures.pure ok_ne_fail

theorem getChannelUsers_ne_fail (chan : Nat) (buffer : Str) :
    Ensures (fun _ => True) (getChannelUsers chan buffer) (· ≠ bcircPluginFail) :=
  Ensures.after fun _ => Ensures.after fun _ => Ensures.pure ok_ne_fail

/-- The numerics that pass the filter have a case in the `switch`, but for one. -/
theorem getChannelInfo_ne_fail {srv : Nat} {numeric : Int} {buffer : Str}
    (h : numeric ≠ rplEndofnames) :
    Ensures (fun _ => True) (getChannelInfo [.server srv, .int numeric, .str buffer])
      (· ≠ bcircPluginFail) := by
  show Ensures _ (if numeric ≠ rplTopic ∧ numeric ≠ rplEndofnames ∧ numeric ≠ rplTopicwhotime ∧
      numeric ≠ rplNamreply then pure bcircPluginOk else _) _
  refine Ensures.ite ?_ ?_
  · intro _
    exact Ensures.pure ok_ne_fail
  intro hfilter
  refine Ensures.after ?_
  intro chanName
  refine Ensures.after ?_
  intro thisChannel
  refine Ensures.ite ?_ ?_
  · intro _
    exact getChannelTitle_ne_fail _ _
  intro htopic
  refine Ensures.ite ?_ ?_
  · intro _
    exact getChannelTitleInfo_ne_fail _ _
  intro hwho
  refine Ensures.ite ?_ ?_
  · intro _
    exact getChannelUsers_ne_fail _ _
  intro hnames
  have hend : numeric = rplEndofnames := by
    by_contra hne
    exact hfilter ⟨htopic, hne, hwho, hnames⟩
  exact absurd hend h

theorem removeUser_ne_fail (params : List Arg) :
    Ensures (fun _ => True) (removeUser params) (· ≠ bcircPluginFail) := by
  refine Ensures.withChannel ?_
  intro chan
  refine Ensures.withStr ?_
  intro nick
  split
  · refine Ensures.after ?_
    intro record
    split
    · exact Ensures.throw _
    · exact Ensures.after fun _ => Ensures.after fun _ => Ensures.pure ok_ne_fail
  · exact Ensures.pure break_ne_fail

theorem checkForUrl_ne_fail (lib : TitleLib) {params : List Arg} (h : .null ∉ params) :
    Ensures (fun _ => True) (checkForUrl lib params) (· ≠ bcircPluginFail) := by
  have hany : ¬ params.any (· == .null) = true := by simpa using h
  unfold checkForUrl
  rw [if_neg hany]
  refine Ensures.withServer fun _ => Ensures.withDeref fun srv => ?_
  refine Ensures.withStr fun _ => Ensures.withDeref fun nick => ?_
  refine Ensures.withStr fun _ => Ensures.withDeref fun target => ?_
  refine Ensures.withStr fun _ => Ensures.withDeref fun msg => ?_
  refine Ensures.after ?_
  intro chan
  split
  · exact Ensures.pure continue_ne_fail
  split
  · exact Ensures.pure continue_ne_fail
  have hfetch : ∀ ark, Ensures (fun _ => True)
      (httpRequest lib 3 ark >>= fun _ => pure bcircPluginOk) (· ≠ bcircPluginFail) := by
    intro ark
    exact Ensures.after fun _ => Ensures.pure ok_ne_fail
  refine Ensures.after ?_
  intro w
  refine Ensures.ite ?_ ?_
  · intro _
    refine Ensures.after ?_
    intro listed
    refine Ensures.ite ?_ ?_
    · intro _
      exact Ensures.pure ok_ne_fail
    · intro _
      exact hfetch _
  · intro _
    exact hfetch _

theorem addUrl_ne_fail (params : List Arg) :
    Ensures (fun _ => True) (addUrl params) (· ≠ bcircPluginFail) := by
  refine Ensures.withStr ?_
  intro nick
  refine Ensures.withStr ?_
  intro msg
  split
  · refine Ensures.ite ?_ ?_
    · intro _
      exact Ensures.pure continue_ne_fail
    intro _
    refine Ensures.ite ?_ ?_
    · intro _
      exact Ensures.pure continue_ne_fail
    intro _
    refine Ensures.after ?_
    intro listed
    refine Ensures.ite ?_ ?_
    · intro _
      exact Ensures.pure continue_ne_fail
    intro _
    refine Ensures.after ?_
    intro w
    refine Ensures.ite ?_ ?_
    · -- `fclose(NULL)` comes before the `return` of FAIL
      intro _
      exact Ensures.throw_bind _
    · intro _
      exact Ensures.after fun _ => Ensures.after fun _ => Ensures.pure ok_ne_fail
  · exact Ensures.pure continue_ne_fail

end NoEvent

/-! ## The functions that raise events -/

/-- `I` outlives what the plugins do to the world and the events they raise. -/
structure Keeps (I : Bot Handler World → Prop)
    (raise : Str → List Arg → Prog (Bot Handler World) Int) : Prop where
  world : ∀ bot w, I bot → I { bot with world := w }
  raise : ∀ {cbName args}, Admissible cbName args → Ensures I (raise cbName args) fun _ => True

section Events

variable {I : Bot Handler World → Prop} {raise : Str → List Arg → Prog (Bot Handler World) Int}

theorem Keeps.afterWorld (h : Keeps I raise) {α β : Type} {m : Prog World α}
    {f : α → Prog (Bot Handler World) β} {S : β → Prop} (hf : ∀ a, Ensures I (f a) S) :
    Ensures I (onWorld m >>= f) S := by
  refine Ensures.bind (Q := fun _ => True) (Ensures.onWorld h.world ?_) ?_
  · intro _ _
    exact ⟨trivial, fun _ _ _ => trivial⟩
  · intro a _
    exact hf a

theorem Keeps.serverSend (h : Keeps I raise) (buf : Option Str) (srv : Nat) :
    Ensures I (serverSend raise buf srv) fun _ => True := by
  refine Ensures.bind (h.raise (admissible_serverSend _)) ?_
  intro _ _
  cases buf with
  | none => exact Ensures.pure trivial
  | some buf =>
      refine h.afterWorld ?_
      intro res
      refine Ensures.ite ?_ ?_
      · intro _
        exact Ensures.pure trivial
      · intro _
        exact h.afterWorld fun _ => Ensures.pure trivial

theorem Keeps.nick (h : Keeps I raise) (newNick : Str) (srv : Nat) :
    Ensures I (nick raise newNick srv) fun _ => True :=
  h.afterWorld fun _ => h.afterWorld fun _ => h.serverSend _ _

theorem Keeps.joinChannel (h : Keeps I raise) (chanName : Str) (chanPass : Option Str)
    (srv : Nat) : Ensures I (joinChannel raise chanName chanPass srv) fun _ => True := by
  unfold Bcirc.joinChannel
  split
  refine Ensures.bind (Ensures.liftExcept fun _ _ => trivial) ?_
  intro buf _
  refine Ensures.ite ?_ ?_
  · intro _
    exact Ensures.throw_bind _
  · intro _
    exact h.serverSend _ _

theorem Keeps.joinChannels (h : Keeps I raise) (srv : Nat) (channels : List ChannelConfig) :
    Ensures I (joinChannels raise srv channels) fun _ => True := by
  induction channels with
  | nil => exact Ensures.pure trivial
  | cons channel channels ih =>
      unfold Bcirc.joinChannels
      split
      · exact ih
      · exact Ensures.bind (h.joinChannel _ _ _) fun _ _ => ih

theorem Keeps.autojoinServers (h : Keeps I raise) (srv : Nat) (servers : List ServerConfig) :
    Ensures I (autojoinServers raise srv servers) fun _ => True := by
  induction servers with
  | nil => exact Ensures.pure trivial
  | cons thisServer servers ih =>
      refine h.afterWorld ?_
      intro record
      refine Ensures.withDeref ?_
      intro networkName
      refine Ensures.ite ?_ ?_
      · intro _
        split
        · exact ih
        · exact Ensures.bind (h.joinChannels _ _) fun _ _ => ih
      · intro _
        exact ih

theorem Keeps.autojoinChannels (h : Keeps I raise) (srv : Nat) :
    Ensures I (autojoinChannels raise srv) fun _ => True := by
  refine Ensures.get_bind ?_
  intro bot _
  split
  · exact Ensures.pure trivial
  · exact Ensures.pure trivial
  · exact h.autojoinServers _ _

theorem Keeps.gotIn (h : Keeps I raise) (params : List Arg) :
    Ensures I (gotIn raise params) (· ≠ bcircPluginFail) := by
  refine Ensures.withServer fun _ => Ensures.withDeref fun srv => ?_
  refine Ensures.withInt fun _ => Ensures.withDeref fun numeric => ?_
  refine Ensures.ite ?_ ?_
  · intro _
    exact Ensures.pure continue_ne_fail
  · intro _
    refine h.afterWorld fun _ => h.afterWorld fun _ => ?_
    exact Ensures.bind (h.autojoinChannels srv) fun _ _ => Ensures.pure ok_ne_fail

theorem Keeps.handlePing (h : Keeps I raise) (params : List Arg) :
    Ensures I (handlePing raise params) (· ≠ bcircPluginFail) := by
  refine Ensures.withServer fun srv => Ensures.withStr fun buf => ?_
  split
  · refine Ensures.ite ?_ ?_
    · intro _
      exact Ensures.pure continue_ne_fail
    intro _
    split
    · exact Ensures.pure continue_ne_fail
    refine Ensures.ite ?_ ?_
    · intro _
      exact Ensures.pure continue_ne_fail
    · intro _
      exact Ensures.bind (h.serverSend _ _) fun _ _ => Ensures.pure ok_ne_fail
  · exact Ensures.pure continue_ne_fail

theorem Keeps.handleRegisteration (h : Keeps I raise) (params : List Arg) :
    Ensures I (handleRegisteration raise params) (· ≠ bcircPluginFail) := by
  refine Ensures.withServer ?_
  intro srv
  split
  · exact Ensures.pure break_ne_fail
  · refine h.afterWorld fun _ => h.afterWorld fun _ => h.afterWorld fun record => ?_
    refine Ensures.bind (Ensures.liftExcept fun _ _ => trivial) ?_
    intro lines _
    refine Ensures.bind (h.serverSend _ _) fun _ _ => Ensures.bind (h.serverSend _ _) ?_
    intro _ _
    refine h.afterWorld ?_
    intro record
    exact Ensures.bind (h.nick _ _) fun _ _ => Ensures.pure ok_ne_fail

theorem Keeps.handleNick (h : Keeps I raise) (params : List Arg) :
    Ensures I (handleNick raise params) (· ≠ bcircPluginFail) := by
  refine Ensures.withServer fun _ => Ensures.withDeref fun srv => ?_
  refine Ensures.withInt fun _ => Ensures.withDeref fun numeric => ?_
  refine Ensures.withStr fun _ => Ensures.withDeref fun _ => ?_
  refine Ensures.ite ?_ ?_
  · intro _
    exact Ensures.pure ok_ne_fail
  · intro _
    refine h.afterWorld ?_
    intro record
    exact Ensures.bind (h.nick _ _) fun _ _ => Ensures.pure ok_ne_fail

theorem nickAndMask_error {str : Str} {code : Int} (h : nickAndMask str = .error code) :
    code ≠ bcircPluginFail := by
  unfold nickAndMask at h
  split at h
  · cases h
    exact ok_ne_fail
  · split at h
    · cases h
      exact continue_ne_fail
    · cases h

theorem parsePrivmsg_ret {line : Str} {code : Int} (h : parsePrivmsg line = .ret code) :
    code ≠ bcircPluginFail := by
  unfold parsePrivmsg at h
  split at h
  · cases h
  split at h
  · rename_i hword
    cases h
    exact nickAndMask_error hword
  split at h
  · cases h
  split at h
  · cases h
    exact ok_ne_fail
  split at h
  · cases h
  · cases h

/-- Only the target can be missing where there is a target to miss. -/
theorem parsePrivmsg_message {line : Str} {nick hostmask target : Option Str} {save : Str}
    (h : parsePrivmsg line = .message nick hostmask target save) (htarget : target ≠ none) :
    nick ≠ none ∧ hostmask ≠ none := by
  unfold parsePrivmsg at h
  split at h
  · cases h
    exact absurd rfl htarget
  split at h
  · cases h
  split at h
  · cases h
    exact absurd rfl htarget
  split at h
  · cases h
  split at h
  · cases h
    exact absurd rfl htarget
  · cases h
    exact ⟨nofun, nofun⟩

theorem elim_null_ne {o : Option Str} (h : o ≠ none) : .null ≠ o.elim Arg.null .str := by
  cases o with
  | none => exact absurd rfl h
  | some s => exact nofun

theorem Keeps.getPrivmsg (h : Keeps I raise) (srv : Nat) {line : Str} (hline : ¬ Unloads line) :
    Ensures I (getPrivmsg raise [.server srv, .str line]) (· ≠ bcircPluginFail) := by
  rw [getPrivmsg_str]
  split
  · exact Ensures.pure ok_ne_fail
  rename_i found hfound
  split
  · rename_i code hcode
    exact Ensures.pure (parsePrivmsg_ret hcode)
  · rename_i nick hostmask target save hparse
    have htarget : target ≠ none := by
      rintro rfl
      exact hline (Or.inr ⟨by rw [hfound]; rfl, by rw [hparse]; rfl⟩)
    obtain ⟨hnick, hmask⟩ := parsePrivmsg_message hparse htarget
    refine Ensures.bind (h.raise (admissible_gotPrivmsg ?_)) fun _ _ => Ensures.pure ok_ne_fail
    simp [elim_null_ne hnick, elim_null_ne hmask, elim_null_ne htarget]

theorem Keeps.getNumeric (h : Keeps I raise) (srv : Nat) {line : Str} (hline : ¬ Unloads line) :
    Ensures I (getNumeric raise [.server srv, .str line]) (· ≠ bcircPluginFail) := by
  rw [getNumeric_str]
  split
  · exact Ensures.pure ok_ne_fail
  · rename_i numeric hnumeric
    exact Ensures.bind (h.raise (admissible_gotNumeric srv hnumeric hline)) fun _ _ =>
      Ensures.pure ok_ne_fail

theorem Keeps.raiseChanEvent (h : Keeps I raise) (event : ChanEvent) (chan : Option Nat)
    (nick hostmask reason : Option Str) :
    Ensures I (raiseChanEvent raise event chan nick hostmask reason) (· ≠ bcircPluginFail) :=
  Ensures.bind (h.raise (admissible_chanEvent event _)) fun _ _ => Ensures.pure ok_ne_fail

/-- STOP, before the welcome, pauses a plugin but unloads none. -/
theorem Keeps.getChanEvent (h : Keeps I raise) (params : List Arg) :
    Ensures I (getChanEvent raise params) (· ≠ bcircPluginFail) := by
  refine Ensures.withServer fun srv => Ensures.withStr fun str => ?_
  split
  · refine Ensures.ite ?_ ?_
    · intro _
      exact Ensures.pure continue_ne_fail
    intro _
    refine h.afterWorld ?_
    intro record
    refine Ensures.ite ?_ ?_
    · intro _
      exact Ensures.pure (by decide)
    intro _
    refine Ensures.ite ?_ ?_
    · intro _
      exact Ensures.throw_bind _
    intro _
    split
    · exact h.raiseChanEvent _ _ _ _ _
    split
    · exact h.raiseChanEvent _ _ _ _ _
    split
    · exact Ensures.pure ok_ne_fail
    refine Ensures.bind (Ensures.liftExcept fun _ _ => trivial) ?_
    intro source _
    split
    · exact Ensures.pure continue_ne_fail
    · exact h.afterWorld fun _ => h.raiseChanEvent _ _ _ _ _
  · exact Ensures.pure break_ne_fail

theorem Keeps.run (h : Keeps I raise) (lib : TitleLib) {args : List Arg} {f : Handler}
    (hf : f.Spares args) : Ensures I (f.run lib raise args) (· ≠ bcircPluginFail) := by
  cases f with
  | gotIn => exact h.gotIn args
  | handlePing => exact h.handlePing args
  | handleRegisteration => exact h.handleRegisteration args
  | handleNick => exact h.handleNick args
  | serverRejoin => exact hf.elim
  | getPrivmsg =>
      obtain ⟨srv, line, rfl, hline⟩ := hf
      exact h.getPrivmsg srv hline
  | getNumeric =>
      obtain ⟨srv, line, rfl, hline⟩ := hf
      exact h.getNumeric srv hline
  | getChanEvent => exact h.getChanEvent args
  | getChannelInfo =>
      obtain ⟨srv, numeric, buffer, rfl, hbuffer⟩ := hf
      exact Ensures.onWorld h.world (getChannelInfo_ne_fail hbuffer)
  | removeUser => exact Ensures.onWorld h.world (removeUser_ne_fail args)
  | checkForUrl => exact Ensures.onWorld h.world (checkForUrl_ne_fail lib hf)
  | addUrl => exact Ensures.onWorld h.world (addUrl_ne_fail args)

end Events

end Bcirc
