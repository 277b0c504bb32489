import Bcirc.DispatchInv
import Bcirc.HandlerAnswers
import Bcirc.KeyedList
import Mathlib.Logic.Relation

/-!
# What handling a line does to the records

Every function of the plugins is a sequence of the few changes `Effect`
lists. Which servers may be marked welcomed, connected or lost depends on
what the event is raised for (`Cause`), and the functions hand it on to
the events they raise themselves (`Handler.Within`). So an invariant that
each change keeps is kept by any dispatch (`invoke_ensures`).
-/

namespace Bcirc

open CProg CStr

/-! ## The changes -/

/-- What an event tells: on which servers RPL_WELCOME was received, to
which a connection was made, and from which it was lost. -/
structure Cause where
  welcomed : Nat → Prop
  connected : Nat → Prop
  lost : Nat → Prop

/-- The fields that decide about rejoining and the gate of channel events. -/
def SameLink (s s' : Server) : Prop :=
  s'.motdSent = s.motdSent ∧ s'.timeConnected = s.timeConnected ∧
    s'.rejoinTries = s.rejoinTries

/-- What a channel is found by. -/
def channelKey (record : Channel) : Str × Nat := (record.name, record.srv)

inductive Effect (c : Cause) : World → World → Prop where
  | outside {w w' : World} (hservers : w'.servers = w.servers)
      (hchannels : w'.channelList = w.channelList) (hrejoining : w'.rejoining = w.rejoining)
      (hclock : w'.clock = w.clock) : Effect c w w'
  | server (w : World) (srv : Nat) (f : Server → Server) (hf : ∀ s, SameLink s (f s)) :
      Effect c w { w with servers := w.servers.modify srv f }
  | welcome (w : World) {srv : Nat} (hsrv : c.welcomed srv) :
      Effect c w { w with
        servers := w.servers.modify srv fun s => { s with motdSent := 1, rejoinTries := 0 } }
  | connect (w : World) {srv : Nat} (hsrv : c.connected srv) :
      Effect c w { w with
        servers := w.servers.modify srv fun s => { s with timeConnected := w.clock } }
  | lose (w : World) {srv : Nat} (results : List Bool) (hsrv : c.lost srv) :
      Effect c w { w with threadResults := results, rejoining := w.rejoining ++ [srv] }
  | create (w : World) (record : Channel)
      (hnew : channelKey record ∉ w.channelList.map channelKey) :
      Effect c w { w with channelList := w.channelList ++ [record] }
  | channel (w : World) (chan : Nat) (f : Channel → Channel)
      (hf : ∀ r, channelKey (f r) = channelKey r) :
      Effect c w { w with channelList := w.channelList.modify chan f }

def Outlives (c : Cause) (J : World → Prop) : Prop := ∀ w w', Effect c w w' → J w → J w'

/-- `m` is a sequence of changes that `c` allows. -/
def Does {α : Type} (c : Cause) (m : Prog World α) : Prop :=
  ∀ J, Outlives c J → Ensures J m fun _ => True

/-! ## The functions on the world -/

section World

variable {c : Cause} {J : World → Prop}

theorem Outlives.step (hJ : Outlives c J) {g : World → World} (hg : ∀ w, Effect c w (g w)) :
    Ensures J (modify g) fun _ => True :=
  Ensures.modify fun w hw => hJ w (g w) (hg w) hw

/-- A change outside the records. -/
theorem Outlives.outside (hJ : Outlives c J) {g : World → World}
    (hg : ∀ w, (g w).servers = w.servers ∧ (g w).channelList = w.channelList ∧
      (g w).rejoining = w.rejoining ∧ (g w).clock = w.clock) :
    Ensures J (modify g) fun _ => True :=
  hJ.step fun w => Effect.outside (hg w).1 (hg w).2.1 (hg w).2.2.1 (hg w).2.2.2

theorem does_getServer (c : Cause) (srv : Nat) : Does c (getServer srv) := by
  intro J _
  exact Ensures.get_bind fun w _ => Ensures.orFault _ fun _ _ => trivial

theorem does_getChannelRecord (c : Cause) (chan : Nat) : Does c (getChannelRecord chan) := by
  intro J _
  exact Ensures.get_bind fun w _ => Ensures.orFault _ fun _ _ => trivial

theorem does_setServer (c : Cause) (srv : Nat) {f : Server → Server}
    (hf : ∀ s, SameLink s (f s)) : Does c (setServer srv f) :=
  fun _ hJ => hJ.step fun w => Effect.server w srv f hf

theorem does_setChannel (c : Cause) (chan : Nat) {f : Channel → Channel}
    (hf : ∀ r, channelKey (f r) = channelKey r) : Does c (setChannel chan f) :=
  fun _ hJ => hJ.step fun w => Effect.channel w chan f hf

theorem does_markConnected {srv : Nat} (hsrv : c.connected srv) : Does c (markConnected srv) := by
  intro J hJ s hs
  exact ⟨hJ s _ (Effect.connect s hsrv) hs, fun _ _ _ => trivial⟩

theorem does_send (c : Cause) (srv : Nat) (buf : Str) : Does c (send srv buf) := by
  intro J hJ
  refine Ensures.bind (does_getServer c srv J hJ) ?_
  intro record _
  refine Ensures.get_bind ?_
  intro w _
  refine Ensures.bind (hJ.outside fun w => ⟨rfl, rfl, rfl, rfl⟩) ?_
  intro _ _
  exact Ensures.pure trivial

/-! ### Channel records -/

theorem getChannel_run (chanName : Str) (srv : Nat) (w : World) :
    getChannel chanName srv w =
      .ok (KeyedList.lookup channelKey (chanName, srv) w.channelList) w := rfl

theorem does_getChannel (c : Cause) (chanName : Str) (srv : Nat) :
    Does c (getChannel chanName srv) := by
  intro J _
  exact Ensures.get_bind fun w _ => Ensures.pure trivial

theorem does_getOrCreateChannel (c : Cause) (chanName : Str) (srv : Nat) :
    Does c (getOrCreateChannel chanName srv) := by
  intro J hJ w hw
  unfold getOrCreateChannel
  rw [bind_ok (getChannel_run chanName srv w)]
  cases hfind : KeyedList.lookup channelKey (chanName, srv) w.channelList with
  | some chan => exact ⟨hw, fun _ _ _ => trivial⟩
  | none =>
      have hnew := KeyedList.lookup_none hfind
      exact ⟨hJ w _ (Effect.create w _ hnew) hw, fun _ _ _ => trivial⟩

theorem does_chanEventTarget (c : Cause) (event : ChanEvent) (srv : Nat) (save : Str) :
    Does c (chanEventTarget event srv save) := by
  intro J hJ
  unfold chanEventTarget
  split
  · exact Ensures.pure trivial
  rename_i token rest _
  cases event with
  | invite =>
      refine Ensures.bind (does_getOrCreateChannel c rest srv J hJ) ?_
      intro chan _
      exact Ensures.pure trivial
  | quit =>
      refine Ensures.bind (does_getChannel c token srv J hJ) ?_
      intro found _
      split
      · exact Ensures.pure trivial
      split
      · exact Ensures.pure trivial
      · exact Ensures.pure trivial
  | join | kick | part =>
      refine Ensures.bind (does_getOrCreateChannel c token srv J hJ) ?_
      intro chan _
      split
      · exact Ensures.pure trivial
      · exact Ensures.pure trivial

theorem does_getChannelTitle (c : Cause) (chan : Nat) (buffer : Str) :
    Does c (getChannelTitle chan buffer) := by
  intro J hJ
  refine Ensures.withDeref ?_
  intro colon
  refine Ensures.ite ?_ ?_
  · intro _
    exact Ensures.throw_bind _
  · intro _
    refine Ensures.bind (does_setChannel c chan ?_ J hJ) fun _ _ => Ensures.pure trivial
    exact fun r => rfl

theorem does_getChannelTitleInfo (c : Cause) (chan : Nat) (buffer : Str) :
    Does c (getChannelTitleInfo chan buffer) := by
  intro J hJ
  refine Ensures.withDeref ?_
  intro infoStart
  split
  · exact Ensures.pure trivial
  · refine Ensures.bind (does_setChannel c chan ?_ J hJ) fun _ _ => Ensures.pure trivial
    exact fun r => rfl
  · refine Ensures.bind (does_setChannel c chan ?_ J hJ) fun _ _ => Ensures.pure trivial
    exact fun r => rfl

theorem does_getChannelUsers (c : Cause) (chan : Nat) (buffer : Str) :
    Does c (getChannelUsers chan buffer) := by
  intro J hJ
  refine Ensures.withDeref ?_
  intro colon
  refine Ensures.bind (does_setChannel c chan ?_ J hJ) fun _ _ => Ensures.pure trivial
  exact fun r => rfl

theorem does_getChannelInfo (c : Cause) (params : List Arg) : Does c (getChannelInfo params) := by
  intro J hJ
  refine Ensures.withServer fun srv => ?_
  refine Ensures.withInt fun _ => Ensures.withDeref fun numeric => ?_
  refine Ensures.withStr fun _ => Ensures.withDeref fun buffer => ?_
  refine Ensures.ite ?_ ?_
  · intro _
    exact Ensures.pure trivial
  intro _
  refine Ensures.bind (Ensures.liftExcept fun _ _ => trivial) ?_
  intro chanName _
  cases srv with
  | none => exact Ensures.pure trivial
  | some srv =>
      refine Ensures.bind (does_getOrCreateChannel c chanName srv J hJ) ?_
      intro thisChannel _
      refine Ensures.ite ?_ ?_
      · intro _
        exact does_getChannelTitle c _ _ J hJ
      intro _
      refine Ensures.ite ?_ ?_
      · intro _
        exact does_getChannelTitleInfo c _ _ J hJ
      intro _
      refine Ensures.ite ?_ ?_
      · intro _
        exact does_getChannelUsers c _ _ J hJ
      · intro _
        exact Ensures.pure trivial

theorem does_removeUser (c : Cause) (params : List Arg) : Does c (removeUser params) := by
  intro J hJ
  refine Ensures.withChannel fun chan => Ensures.withStr fun nick => ?_
  split
  · refine Ensures.bind (does_getChannelRecord c _ J hJ) ?_
    intro record _
    split
    · exact Ensures.throw _
    · refine Ensures.bind (Ensures.liftExcept fun _ _ => trivial) ?_
      intro newUsers _
      refine Ensures.bind (does_setChannel c _ ?_ J hJ) fun _ _ => Ensures.pure trivial
      exact fun r => rfl
  · exact Ensures.pure trivial

/-! ### The rejoin thread -/

/-- The first parameter is a server that was lost. -/
theorem does_serverRejoin {params : List Arg}
    (hlost : ∀ srv, params[0]? = some (.server srv) → c.lost srv) :
    Does c (serverRejoin params) := by
  intro J hJ
  refine Ensures.bind (Ensures.orFault _ fun a ha => ha) ?_
  intro a ha
  cases a with
  | null =>
      refine Ensures.withInt ?_
      intro reason
      exact Ensures.pure trivial
  | server srv =>
      refine Ensures.withInt ?_
      intro reason
      cases reason with
      | none => exact Ensures.pure trivial
      | some reason =>
          refine Ensures.ite ?_ ?_
          · intro _
            exact Ensures.pure trivial
          intro _
          refine Ensures.bind (Q := fun _ => True) ?_ fun _ _ => Ensures.pure trivial
          intro w hw
          refine ⟨?_, fun _ _ _ => trivial⟩
          show J { w with
            threadResults := w.threadResults.tail
            rejoining := if w.threadResults.headD true then w.rejoining ++ [srv]
              else w.rejoining }
          by_cases hok : w.threadResults.headD true = true
          · rw [if_pos hok]
            exact hJ w _ (Effect.lose w _ (hlost srv ha)) hw
          · rw [if_neg hok]
            exact hJ w _ (Effect.outside rfl rfl rfl rfl) hw
  | channel _ | int _ | str _ => exact Ensures.throw_bind _

/-! ### Titles -/

theorem does_checkUrl (c : Cause) (str : Str) : Does c (checkUrl str) := by
  intro J _
  refine Ensures.get_bind ?_
  intro w _
  split
  · exact Ensures.pure trivial
  · exact Ensures.ite (fun _ => Ensures.pure trivial) fun _ => Ensures.pure trivial

theorem does_getUrls (c : Cause) : Does c getUrls := by
  intro J hJ
  refine Ensures.get_bind ?_
  intro w _
  split
  · exact Ensures.pure trivial
  refine Ensures.ite ?_ ?_
  · intro _
    exact Ensures.bind (hJ.outside fun w => ⟨rfl, rfl, rfl, rfl⟩) fun _ _ =>
      Ensures.pure trivial
  · intro _
    exact Ensures.pure trivial

theorem does_addUrl (c : Cause) (params : List Arg) : Does c (addUrl params) := by
  intro J hJ
  refine Ensures.withStr fun nick => Ensures.withStr fun msg => ?_
  split
  · refine Ensures.ite ?_ ?_
    · intro _
      exact Ensures.pure trivial
    intro _
    refine Ensures.ite ?_ ?_
    · intro _
      exact Ensures.pure trivial
    intro _
    refine Ensures.bind (does_checkUrl c _ J hJ) ?_
    intro listed _
    refine Ensures.ite ?_ ?_
    · intro _
      exact Ensures.pure trivial
    intro _
    refine Ensures.get_bind ?_
    intro w _
    refine Ensures.ite ?_ ?_
    · intro _
      exact Ensures.throw_bind _
    intro _
    refine Ensures.bind (hJ.outside fun w => ⟨rfl, rfl, rfl, rfl⟩) ?_
    intro _ _
    exact Ensures.bind (does_getUrls c J hJ) fun _ _ => Ensures.pure trivial
  · exact Ensures.pure trivial

theorem does_writeCallback (c : Cause) (lib : TitleLib) (ark : Ark) (httpCode : Int)
    (ptr : List UInt8) : Does c (writeCallback lib ark httpCode ptr) := by
  intro J hJ
  refine Ensures.ite ?_ ?_
  · intro _
    exact Ensures.pure trivial
  intro _
  dsimp only
  split
  · exact Ensures.pure trivial
  refine Ensures.ite ?_ ?_
  · intro _
    exact Ensures.pure trivial
  intro _
  refine Ensures.ite ?_ ?_
  · intro _
    exact Ensures.pure trivial
  intro _
  exact Ensures.bind (hJ.outside fun w => ⟨rfl, rfl, rfl, rfl⟩) fun _ _ => Ensures.pure trivial

theorem does_writeChunks (c : Cause) (lib : TitleLib) (chunks : List (Int × List UInt8))
    (ark : Ark) : Does c (writeChunks lib chunks ark) := by
  intro J hJ
  induction chunks generalizing ark with
  | nil => exact Ensures.pure trivial
  | cons chunk chunks ih =>
      exact Ensures.bind (does_writeCallback c lib ark _ _ J hJ) fun ark _ => ih ark

theorem does_curlInit (c : Cause) : Does c curlInit := by
  intro J hJ
  refine Ensures.get_bind ?_
  intro w _
  exact Ensures.bind (hJ.outside fun w => ⟨rfl, rfl, rfl, rfl⟩) fun _ _ => Ensures.pure trivial

theorem does_curlPerform (c : Cause) (lib : TitleLib) (ark : Ark) :
    Does c (curlPerform lib ark) := by
  intro J hJ
  refine Ensures.get_bind ?_
  intro w _
  refine Ensures.bind (hJ.outside fun w => ⟨rfl, rfl, rfl, rfl⟩) ?_
  intro _ _
  exact Ensures.bind (does_writeChunks c lib _ ark J hJ) fun _ _ => Ensures.pure trivial

theorem does_httpRequest (c : Cause) (lib : TitleLib) (left : Nat) (ark : Ark) :
    Does c (httpRequest lib left ark) := by
  intro J hJ
  induction left generalizing ark with
  | zero =>
      refine Ensures.bind (does_curlInit c J hJ) ?_
      intro inited _
      refine Ensures.ite ?_ ?_
      · intro _
        exact Ensures.pure trivial
      intro _
      refine Ensures.bind (does_curlPerform c lib ark J hJ) ?_
      intro res _
      exact Ensures.ite (fun _ => Ensures.pure trivial) fun _ => Ensures.pure trivial
  | succ left ih =>
      refine Ensures.bind (does_curlInit c J hJ) ?_
      intro inited _
      refine Ensures.ite ?_ ?_
      · intro _
        exact Ensures.pure trivial
      intro _
      refine Ensures.bind (does_curlPerform c lib ark J hJ) ?_
      intro res _
      refine Ensures.ite ?_ ?_
      · intro _
        exact Ensures.pure trivial
      · intro _
        exact ih _

theorem does_checkForUrl (c : Cause) (lib : TitleLib) (params : List Arg) :
    Does c (checkForUrl lib params) := by
  intro J hJ
  refine Ensures.ite ?_ ?_
  · intro _
    exact Ensures.pure trivial
  intro _
  refine Ensures.withServer fun _ => Ensures.withDeref fun srv => ?_
  refine Ensures.withStr fun _ => Ensures.withDeref fun nick => ?_
  refine Ensures.withStr fun _ => Ensures.withDeref fun target => ?_
  refine Ensures.withStr fun _ => Ensures.withDeref fun msg => ?_
  refine Ensures.bind (does_getChannel c target srv J hJ) ?_
  intro chan _
  split
  · exact Ensures.pure trivial
  split
  · exact Ensures.pure trivial
  have hfetch : ∀ ark, Ensures J
      (httpRequest lib 3 ark >>= fun _ => pure bcircPluginOk) fun _ => True := by
    intro ark
    exact Ensures.bind (does_httpRequest c lib 3 ark J hJ) fun _ _ => Ensures.pure trivial
  refine Ensures.get_bind ?_
  intro w _
  refine Ensures.ite ?_ ?_
  · intro _
    refine Ensures.bind (does_checkUrl c _ J hJ) ?_
    intro listed _
    refine Ensures.ite ?_ ?_
    · intro _
      exact Ensures.pure trivial
    · intro _
      exact hfetch _
  · intro _
    exact hfetch _

end World

/-! ## Reading parameters -/

section Reading

variable {σ β : Type} {I : σ → Prop} {S : β → Prop} {params : List Arg} {i : Nat}

theorem Ensures.readServer {f : Option Nat → Prog σ β} (hnull : Ensures I (f none) S)
    (hserver : ∀ srv, params[i]? = some (.server srv) → Ensures I (f (some srv)) S) :
    Ensures I (param params i >>= fun a => a.toServer >>= f) S := by
  refine Ensures.bind (Ensures.orFault _ fun a ha => ha) ?_
  intro a ha
  cases a with
  | null => exact hnull
  | server srv => exact hserver srv ha
  | channel _ | int _ | str _ => exact Ensures.throw_bind _

theorem Ensures.readInt {f : Option Int → Prog σ β} (hnull : Ensures I (f none) S)
    (hint : ∀ n, params[i]? = some (.int n) → Ensures I (f (some n)) S) :
    Ensures I (param params i >>= fun a => a.toInt >>= f) S := by
  refine Ensures.bind (Ensures.orFault _ fun a ha => ha) ?_
  intro a ha
  cases a with
  | null => exact hnull
  | int n => exact hint n ha
  | server _ | channel _ | str _ => exact Ensures.throw_bind _

theorem Ensures.readStr {f : Option Str → Prog σ β} (hnull : Ensures I (f none) S)
    (hstr : ∀ s, params[i]? = some (.str s) → Ensures I (f (some s)) S) :
    Ensures I (param params i >>= fun a => a.toStr >>= f) S := by
  refine Ensures.bind (Ensures.orFault _ fun a ha => ha) ?_
  intro a ha
  cases a with
  | null => exact hnull
  | str s => exact hstr s ha
  | server _ | channel _ | int _ => exact Ensures.throw_bind _

end Reading

/-! ## The functions that raise events -/

/-- What the arguments tell is so. -/
def Handler.Within (c : Cause) (args : List Arg) : Handler → Prop
  | .gotIn => ∀ srv, args[0]? = some (.server srv) → args[1]? = some (.int rplWelcome) →
      c.welcomed srv
  | .getNumeric => ∀ srv line, args[0]? = some (.server srv) → args[1]? = some (.str line) →
      numericOf line = some rplWelcome → c.welcomed srv
  | .handleRegisteration => ∀ srv, args[0]? = some (.server srv) → c.connected srv
  | .serverRejoin => ∀ srv, args[0]? = some (.server srv) → c.lost srv
  | _ => True

def Truthful (c : Cause) (cbName : Str) (args : List Arg) : Prop :=
  ∀ h ∈ listeners cbName, h.Within c args

theorem truthful_gotNumeric {c : Cause} {srv : Nat} {numeric : Int} {line : Str}
    (h : numeric = rplWelcome → c.welcomed srv) :
    Truthful c callbackGotNumeric [.server srv, .int numeric, .str line] := by
  intro f hf
  rw [listeners_gotNumeric] at hf
  simp only [List.mem_cons, List.not_mem_nil, or_false] at hf
  rcases hf with rfl | rfl | rfl
  · intro srv' hsrv hnumeric
    cases hsrv
    cases hnumeric
    exact h rfl
  · trivial
  · trivial

theorem truthful_gotPrivmsg (c : Cause) (args : List Arg) :
    Truthful c callbackGotPrivmsg args := by
  intro f hf
  rw [listeners_gotPrivmsg] at hf
  simp only [List.mem_cons, List.not_mem_nil, or_false] at hf
  rcases hf with rfl | rfl
  · trivial
  · trivial

theorem truthful_serverSend (c : Cause) (args : List Arg) :
    Truthful c callbackServerSend args := by
  intro f hf
  rw [listeners_serverSend] at hf
  cases hf

theorem truthful_chanEvent (c : Cause) (event : ChanEvent) (args : List Arg) :
    Truthful c event.callback args := by
  intro f hf
  rw [listeners_chanEvent event hf]
  trivial

/-- `I` outlives the changes `c` allows, and the events raised for it. -/
structure Moves (c : Cause) (I : Bot Handler World → Prop)
    (raise : Str → List Arg → Prog (Bot Handler World) Int) : Prop where
  world : ∀ bot w, Effect c bot.world w → I bot → I { bot with world := w }
  raise : ∀ {cbName args}, Truthful c cbName args → Ensures I (raise cbName args) fun _ => True

section Events

variable {c : Cause} {I : Bot Handler World → Prop}
  {raise : Str → List Arg → Prog (Bot Handler World) Int}

theorem Moves.onWorld (h : Moves c I raise) {α : Type} {m : Prog World α} (hm : Does c m) :
    Ensures I (onWorld m) fun _ => True := by
  intro bot hbot
  refine ⟨?_, fun _ _ _ => trivial⟩
  have hout : Outlives c fun w => I { bot with world := w } := fun w w' heffect hw =>
    h.world { bot with world := w } w' heffect hw
  have hend := (hm _ hout bot.world hbot).1
  unfold Bcirc.onWorld
  cases hrun : m bot.world with
  | ok a w =>
      rw [hrun] at hend
      exact hend
  | error e w =>
      rw [hrun] at hend
      exact hend

theorem Moves.afterWorld (h : Moves c I raise) {α β : Type} {m : Prog World α}
    {f : α → Prog (Bot Handler World) β} {S : β → Prop} (hm : Does c m)
    (hf : ∀ a, Ensures I (f a) S) : Ensures I (Bcirc.onWorld m >>= f) S :=
  Ensures.bind (h.onWorld hm) fun a _ => hf a

theorem Moves.serverSend (h : Moves c I raise) (buf : Option Str) (srv : Nat) :
    Ensures I (serverSend raise buf srv) fun _ => True := by
  refine Ensures.bind (h.raise (truthful_serverSend c _)) ?_
  intro _ _
  cases buf with
  | none => exact Ensures.pure trivial
  | some buf =>
      refine h.afterWorld (does_send c srv buf) ?_
      intro res
      refine Ensures.ite ?_ ?_
      · intro _
        exact Ensures.pure trivial
      · intro _
        refine h.afterWorld (does_setServer c srv ?_) fun _ => Ensures.pure trivial
        exact fun s => ⟨rfl, rfl, rfl⟩

theorem Moves.nick (h : Moves c I raise) (newNick : Str) (srv : Nat) :
    Ensures I (nick raise newNick srv) fun _ => True := by
  refine h.afterWorld (does_getServer c srv) fun _ => ?_
  refine h.afterWorld (does_setServer c srv ?_) fun _ => h.serverSend _ _
  exact fun s => ⟨rfl, rfl, rfl⟩

theorem Moves.joinChannel (h : Moves c I raise) (chanName : Str) (chanPass : Option Str)
    (srv : Nat) : Ensures I (joinChannel raise chanName chanPass srv) fun _ => True := by
  unfold Bcirc.joinChannel
  split
  refine Ensures.bind (Ensures.liftExcept fun _ _ => trivial) ?_
  intro buf _
  refine Ensures.ite ?_ ?_
  · intro _
    exact Ensures.throw_bind _
  · intro _
    exact h.serverSend _ _

theorem Moves.joinChannels (h : Moves c I raise) (srv : Nat) (channels : List ChannelConfig) :
    Ensures I (joinChannels raise srv channels) fun _ => True := by
  induction channels with
  | nil => exact Ensures.pure trivial
  | cons channel channels ih =>
      unfold Bcirc.joinChannels
      split
      · exact ih
      · exact Ensures.bind (h.joinChannel _ _ _) fun _ _ => ih

theorem Moves.autojoinServers (h : Moves c I raise) (srv : Nat) (servers : List ServerConfig) :
    Ensures I (autojoinServers raise srv servers) fun _ => True := by
  induction servers with
  | nil => exact Ensures.pure trivial
  | cons thisServer servers ih =>
      refine h.afterWorld (does_getServer c srv) ?_
      intro record
      refine Ensures.withDeref ?_
      intro networkName
      refine Ensures.ite ?_ ?_
      · intro _
        split
        · exact ih
        · exact Ensures.bind (h.joinChannels _ _) fun _ _ => ih
      · intro _
        exact ih

theorem Moves.autojoinChannels (h : Moves c I raise) (srv : Nat) :
    Ensures I (autojoinChannels raise srv) fun _ => True := by
  refine Ensures.get_bind ?_
  intro bot _
  split
  · exact Ensures.pure trivial
  · exact Ensures.pure trivial
  · exact h.autojoinServers _ _

theorem does_welcome {srv : Nat} (hsrv : c.welcomed srv) :
    Does c (setServer srv fun s => { s with motdSent := 1, rejoinTries := 0 }) :=
  fun _ hJ => hJ.step fun w => Effect.welcome w hsrv

theorem Moves.gotIn (h : Moves c I raise) {params : List Arg}
    (hwelcome : Handler.gotIn.Within c params) :
    Ensures I (gotIn raise params) fun _ => True := by
  refine Ensures.readServer (Ensures.throw_bind _) fun srv hsrv => ?_
  refine Ensures.readInt (Ensures.throw_bind _) fun numeric hnumeric => ?_
  refine Ensures.ite ?_ ?_
  · intro _
    exact Ensures.pure trivial
  · intro hcode
    have hcode : numeric = rplWelcome := not_not.mp hcode
    rw [hcode] at hnumeric
    refine h.afterWorld (does_getServer c srv) fun _ => ?_
    refine h.afterWorld (does_welcome (hwelcome srv hsrv hnumeric)) fun _ => ?_
    exact Ensures.bind (h.autojoinChannels srv) fun _ _ => Ensures.pure trivial

theorem Moves.handlePing (h : Moves c I raise) (params : List Arg) :
    Ensures I (handlePing raise params) fun _ => True := by
  refine Ensures.withServer fun srv => Ensures.withStr fun buf => ?_
  split
  · refine Ensures.ite ?_ ?_
    · intro _
      exact Ensures.pure trivial
    intro _
    split
    · exact Ensures.pure trivial
    refine Ensures.ite ?_ ?_
    · intro _
      exact Ensures.pure trivial
    · intro _
      exact Ensures.bind (h.serverSend _ _) fun _ _ => Ensures.pure trivial
  · exact Ensures.pure trivial

theorem Moves.handleRegisteration (h : Moves c I raise) {params : List Arg}
    (hconnected : Handler.handleRegisteration.Within c params) :
    Ensures I (handleRegisteration raise params) fun _ => True := by
  refine Ensures.readServer (Ensures.pure trivial) ?_
  intro srv hsrv
  refine h.afterWorld (does_getServer c srv) fun _ => ?_
  refine h.afterWorld (does_markConnected (hconnected srv hsrv)) fun _ => ?_
  refine h.afterWorld (does_getServer c srv) fun record => ?_
  refine Ensures.bind (Ensures.liftExcept fun _ _ => trivial) ?_
  intro lines _
  refine Ensures.bind (h.serverSend _ _) fun _ _ => Ensures.bind (h.serverSend _ _) ?_
  intro _ _
  refine h.afterWorld (does_getServer c srv) ?_
  intro record
  exact Ensures.bind (h.nick _ _) fun _ _ => Ensures.pure trivial

theorem Moves.handleNick (h : Moves c I raise) (params : List Arg) :
    Ensures I (handleNick raise params) fun _ => True := by
  refine Ensures.withServer fun _ => Ensures.withDeref fun srv => ?_
  refine Ensures.withInt fun _ => Ensures.withDeref fun numeric => ?_
  refine Ensures.withStr fun _ => Ensures.withDeref fun _ => ?_
  refine Ensures.ite ?_ ?_
  · intro _
    exact Ensures.pure trivial
  · intro _
    refine h.afterWorld (does_getServer c srv) ?_
    intro record
    exact Ensures.bind (h.nick _ _) fun _ _ => Ensures.pure trivial

theorem Moves.getPrivmsg (h : Moves c I raise) (params : List Arg) :
    Ensures I (getPrivmsg raise params) fun _ => True := by
  refine Ensures.bind (Ensures.orFault _ fun _ _ => trivial) ?_
  intro srv (_ : True)
  refine Ensures.withStr fun _ => Ensures.withDeref fun buf => ?_
  split
  · exact Ensures.pure trivial
  split
  · exact Ensures.pure trivial
  · exact Ensures.bind (h.raise (truthful_gotPrivmsg c _)) fun _ _ => Ensures.pure trivial

theorem Moves.getNumeric (h : Moves c I raise) {params : List Arg}
    (hwelcome : Handler.getNumeric.Within c params) :
    Ensures I (getNumeric raise params) fun _ => True := by
  refine Ensures.readServer ?_ fun srv hsrv => ?_
  · exact Ensures.withStr fun _ => Ensures.withDeref fun _ => Ensures.pure trivial
  refine Ensures.readStr (Ensures.throw_bind _) fun line hline => ?_
  have hrun : Ensures I (Bcirc.getNumeric raise [.server srv, .str line]) fun _ => True := by
    rw [getNumeric_str]
    split
    · exact Ensures.pure trivial
    · rename_i numeric hnumeric
      refine Ensures.bind (h.raise (truthful_gotNumeric ?_)) fun _ _ => Ensures.pure trivial
      rintro rfl
      exact hwelcome srv line hsrv hline hnumeric
  exact hrun

theorem Moves.raiseChanEvent (h : Moves c I raise) (event : ChanEvent) (chan : Option Nat)
    (nick hostmask reason : Option Str) :
    Ensures I (raiseChanEvent raise event chan nick hostmask reason) fun _ => True :=
  Ensures.bind (h.raise (truthful_chanEvent c event _)) fun _ _ => Ensures.pure trivial

theorem Moves.getChanEvent (h : Moves c I raise) (params : List Arg) :
    Ensures I (getChanEvent raise params) fun _ => True := by
  refine Ensures.withServer fun srv => Ensures.withStr fun str => ?_
  split
  · refine Ensures.ite ?_ ?_
    · intro _
      exact Ensures.pure trivial
    intro _
    refine h.afterWorld (does_getServer c _) ?_
    intro record
    refine Ensures.ite ?_ ?_
    · intro _
      exact Ensures.pure trivial
    intro _
    refine Ensures.ite ?_ ?_
    · intro _
      exact Ensures.throw_bind _
    intro _
    split
    · exact h.raiseChanEvent _ _ _ _ _
    split
    · exact h.raiseChanEvent _ _ _ _ _
    split
    · exact Ensures.pure trivial
    refine Ensures.bind (Ensures.liftExcept fun _ _ => trivial) ?_
    intro source _
    split
    · exact Ensures.pure trivial
    · exact h.afterWorld (does_chanEventTarget c _ _ _) fun _ => h.raiseChanEvent _ _ _ _ _
  · exact Ensures.pure trivial

theorem Moves.run (h : Moves c I raise) (lib : TitleLib) {args : List Arg} {f : Handler}
    (hf : f.Within c args) : Ensures I (f.run lib raise args) fun _ => True := by
  cases f with
  | gotIn => exact h.gotIn hf
  | handlePing => exact h.handlePing args
  | handleRegisteration => exact h.handleRegisteration hf
  | handleNick => exact h.handleNick args
  | serverRejoin => exact h.onWorld (does_serverRejoin hf)
  | getPrivmsg => exact h.getPrivmsg args
  | getNumeric => exact h.getNumeric hf
  | getChanEvent => exact h.getChanEvent args
  | getChannelInfo => exact h.onWorld (does_getChannelInfo c args)
  | removeUser => exact h.onWorld (does_removeUser c args)
  | checkForUrl => exact h.onWorld (does_checkForUrl c lib args)
  | addUrl => exact h.onWorld (does_addUrl c args)

end Events

/-! ## A dispatch -/

/-- An index that leads to the plugins' own functions, with these names. -/
abbrev PluginsOnly (names : List CbName) (reg : Registry Handler) : Prop :=
  Routed (fun cbName f => f ∈ listeners cbName) names reg

theorem pluginsOnly_loadPlugins (loads : List Load) :
    PluginsOnly (loadPlugins loads initIndex).names (loadPlugins loads initIndex) where
  names := rfl
  only := loadPlugins_registersOnly loads fun _ _ hcb => nomatch hcb

section Dispatch

variable (lib : TitleLib) {c : Cause} {names : List CbName}

theorem invoke_ensures {I : Bot Handler World → Prop}
    (hI : DispatchInv (fun cbName f => f ∈ listeners cbName) names I)
    (hworld : ∀ bot w, Effect c bot.world w → I bot → I { bot with world := w }) (depth : Nat)
    {cb : Callback Handler} {args : List Arg} (hcb : cb.cbFunc.Within c args) :
    Ensures I (invoke lib depth cb args) fun _ => True := by
  induction depth generalizing cb args with
  | zero => exact Ensures.throw _
  | succ depth ih =>
      have hidle : ∀ f : Handler, f ∉ listeners callbackCallbacksExecuted := by
        rw [listeners_callbacksExecuted]
        exact fun f => List.not_mem_nil
      have hmoves : Moves c I (executeCallbacks (invoke lib depth) .str) :=
        ⟨hworld, fun htrue => hI.executeCallbacks hidle fun cb hcb => ih (htrue cb.cbFunc hcb)⟩
      exact hmoves.run lib hcb

theorem dispatch_ensures {I : Bot Handler World → Prop}
    (hI : DispatchInv (fun cbName f => f ∈ listeners cbName) names I)
    (hworld : ∀ bot w, Effect c bot.world w → I bot → I { bot with world := w }) (depth : Nat)
    {cbName : Str} {args : List Arg} (htrue : Truthful c cbName args) :
    Ensures I (executeCallbacks (invoke lib depth) .str cbName args) fun _ => True := by
  have hidle : ∀ f : Handler, f ∉ listeners callbackCallbacksExecuted := by
    rw [listeners_callbacksExecuted]
    exact fun f => List.not_mem_nil
  exact hI.executeCallbacks hidle fun cb hcb =>
    invoke_ensures lib hI hworld depth (htrue cb.cbFunc hcb)

/-- The registry keeps its names and the world takes the steps `c` allows. -/
def Follows (c : Cause) (names : List CbName) (w : World) (bot : Bot Handler World) : Prop :=
  PluginsOnly names bot.reg ∧ Relation.ReflTransGen (Effect c) w bot.world

theorem dispatchInv_follows (c : Cause) (names : List CbName) (w : World) :
    DispatchInv (fun cbName f => f ∈ listeners cbName) names (Follows c names w) where
  routed _ h := h.1
  pause _ ptr h := ⟨h.1.pause ptr, h.2⟩
  remove _ ptr h := ⟨h.1.remove ptr, h.2⟩

theorem Follows.world {w : World} {bot : Bot Handler World} (h : Follows c names w bot)
    {w' : World} (heffect : Effect c bot.world w') :
    Follows c names w { bot with world := w' } :=
  ⟨h.1, h.2.tail heffect⟩

theorem dispatch_follows (depth : Nat) (names : List CbName) {cbName : Str} {args : List Arg}
    (htrue : Truthful c cbName args) (w : World) :
    Ensures (Follows c names w) (executeCallbacks (invoke lib depth) .str cbName args)
      fun _ => True :=
  dispatch_ensures lib (dispatchInv_follows c names w) (fun _ _ heffect h => h.world heffect)
    depth htrue

end Dispatch

end Bcirc
