import Bcirc.Lifecycle
import Bcirc.PrivmsgForm
import Bcirc.Effects

/-!
# What the bot sends

A server, a page or another user can put bytes into what the bot sends,
but no line end: whatever is received, in however many connections at
once, each buffer given to `send` is one line, and one of five commands
(`Command`). What waits in the queue of messages makes one line too. And
a server is said nothing before the bot has registered there.

The line end is kept out at different places. Received text is cut at it
(`recvLines`), titles are filtered, and a nick is the configured one and
underscores behind it. Here is what is said of the world (`Orderly`), and that
the functions on it keep it so; `SentRuns` is about the events.
-/

namespace Bcirc

open CProg CStr Transition

/-! ## Lines -/

/-- Without a line end. -/
def Unbroken (s : Str) : Prop := ∀ c ∈ s, isCrLf c = false

theorem Unbroken.append {a b : Str} (ha : Unbroken a) (hb : Unbroken b) : Unbroken (a ++ b) :=
  fun c hc => (List.mem_append.mp hc).elim (ha c) (hb c)

theorem Unbroken.piece {a b : Str} (hb : Unbroken b) (h : a <:+: b) : Unbroken a :=
  fun c hc => hb c (h.subset hc)

/-- What the bot may to `srv` once it is registered there; `heard` are the
lines that came from there. -/
inductive Chat (heard : Nat → Str → Prop) (srv : Nat) : Str → Prop where
  | nick (nick : Str) : Chat heard srv (ascii "NICK " ++ nick)
  | join (rest : Str) : Chat heard srv (ascii "JOIN " ++ rest)
  | pong {line : Str} (hheard : heard srv line)
      (hping : (strtokR isSpace line).1 = some (ascii "PING")) :
      Chat heard srv (line.set 1 79)

/-- The commands that the bot sends to `srv`. -/
inductive Command (heard : Nat → Str → Prop) (srv : Nat) : Str → Prop where
  | pass (key : Str) : Command heard srv (ascii "PASS " ++ key)
  | user (names : Str) : Command heard srv (ascii "USER " ++ names)
  | chat {line : Str} (h : Chat heard srv line) : Command heard srv line

/-- One line, with its end, that is of the kind `K`. -/
def SentLine (K : Str → Prop) (buf : Str) : Prop :=
  ∃ line, buf = line ++ crlf ∧ Unbroken line ∧ K line

theorem SentLine.mono {K L : Str → Prop} (hKL : ∀ line, K line → L line) {buf : Str}
    (h : SentLine K buf) : SentLine L buf := by
  obtain ⟨line, hbuf, hline, hkind⟩ := h
  exact ⟨line, hbuf, hline, hKL line hkind⟩

/-! ## An orderly world -/

structure Server.Unbroken (r : Server) : Prop where
  pass : ∀ p, r.pass = some p → Bcirc.Unbroken p
  realname : Bcirc.Unbroken r.realname
  username : Bcirc.Unbroken r.username
  nick : Bcirc.Unbroken r.nick
  altNick : Bcirc.Unbroken r.altNick

structure ChannelConfig.Unbroken (c : ChannelConfig) : Prop where
  name : ∀ n, c.chanName = some n → Bcirc.Unbroken n
  key : ∀ k, c.chanKey = some k → Bcirc.Unbroken k

def Config.Unbroken (config : Config) : Prop :=
  ∀ servers, config = .servers servers → ∀ s ∈ servers, ∀ channels, s.channels = some channels →
    ∀ c ∈ channels, c.Unbroken

/-- What a registration tells the server besides the nick. -/
def Server.names (r : Server) : Option Str × Str × Str := (r.pass, r.realname, r.username)

/-- Other fields may change. -/
theorem Server.Unbroken.congr {r r' : Server} (h : r.Unbroken) (hnames : r'.names = r.names)
    (hnick : r'.nick = r.nick) (haltNick : r'.altNick = r.altNick) : r'.Unbroken := by
  obtain ⟨hpass, hrest⟩ := Prod.mk.inj hnames
  obtain ⟨hrealname, husername⟩ := Prod.mk.inj hrest
  exact ⟨hpass ▸ h.pass, hrealname ▸ h.realname, husername ▸ h.username, hnick ▸ h.nick,
    haltNick ▸ h.altNick⟩

theorem names_modify {f : Server → Server} (srv : Nat) (hnames : ∀ r, (f r).names = r.names)
    (servers : List Server) :
    (servers.modify srv f).map Server.names = servers.map Server.names := by
  refine List.ext_getElem? fun i => ?_
  rw [List.getElem?_map, List.getElem?_map, List.getElem?_modify]
  cases servers[i]? with
  | none => rfl
  | some r =>
      refine congrArg some ?_
      show Server.names (if srv = i then f r else r) = r.names
      split
      · exact hnames r
      · rfl

/-- Since `base` only what `may` allows was sent, the servers are the same,
and what the next lines are made of has no line end. -/
structure World.Orderly (may : Nat → Str → Prop) (base w : World) : Prop where
  servers : ∀ r ∈ w.servers, r.Unbroken
  names : w.servers.map Server.names = base.servers.map Server.names
  config : w.config.Unbroken
  sends : ∃ new, w.sends = base.sends ++ new ∧ ∀ call ∈ new, may call.srv call.buf
  queue : ∀ entry ∈ w.privmsgQueue, Unbroken entry.1 ∧ Unbroken entry.2.1

section World

variable {may : Nat → Str → Prop} {base : World}

theorem World.Orderly.congr {w w' : World} (h : World.Orderly may base w)
    (hservers : w'.servers = w.servers) (hconfig : w'.config = w.config)
    (hsends : w'.sends = w.sends) (hqueue : w'.privmsgQueue = w.privmsgQueue) :
    World.Orderly may base w' :=
  ⟨hservers ▸ h.servers, hservers ▸ h.names, hconfig ▸ h.config, hsends ▸ h.sends,
    hqueue ▸ h.queue⟩

theorem orderly_getServer (srv : Nat) :
    Ensures (World.Orderly may base) (getServer srv) Server.Unbroken := by
  refine Ensures.get_bind fun w hw => ?_
  exact Ensures.orFault _ fun r hr => hw.servers r (List.mem_of_getElem? hr)

theorem orderly_setServer (srv : Nat) {f : Server → Server}
    (hf : ∀ r, r.Unbroken → (f r).Unbroken) (hnames : ∀ r, (f r).names = r.names) :
    Ensures (World.Orderly may base) (setServer srv f) fun _ => True := by
  refine Ensures.modify fun w hw => ⟨fun r hr => ?_, ?_, hw.config, hw.sends, hw.queue⟩
  · obtain ⟨i, hi⟩ := List.mem_iff_getElem?.mp hr
    rw [List.getElem?_modify] at hi
    obtain ⟨r', hr', rfl⟩ := Option.map_eq_some_iff.mp hi
    have hmem := hw.servers r' (List.mem_of_getElem? hr')
    split
    · exact hf r' hmem
    · exact hmem
  · rw [← hw.names]
    exact names_modify srv hnames w.servers

/-- A change of nothing that is ever sent. -/
theorem orderly_modify {g : World → World}
    (hg : ∀ w, (g w).servers = w.servers ∧ (g w).config = w.config ∧ (g w).sends = w.sends ∧
      (g w).privmsgQueue = w.privmsgQueue) :
    Ensures (World.Orderly may base) (modify g) fun _ => True :=
  Ensures.modify fun w hw => hw.congr (hg w).1 (hg w).2.1 (hg w).2.2.1 (hg w).2.2.2

theorem orderly_send {srv : Nat} {buf : Str} (hbuf : may srv buf) :
    Ensures (World.Orderly may base) (send srv buf) fun _ => True := by
  refine Ensures.bind (orderly_getServer srv) fun _ _ => ?_
  refine Ensures.get_bind fun w _ => ?_
  refine Ensures.bind (Ensures.modify fun w hw =>
    ⟨hw.servers, hw.names, hw.config, ?_, hw.queue⟩) fun _ _ => Ensures.pure trivial
  obtain ⟨new, hnew, hmay⟩ := hw.sends
  refine ⟨new ++ [⟨srv, buf, _⟩], by rw [hnew, List.append_assoc], ?_⟩
  exact List.forall_mem_append.mpr ⟨hmay, List.forall_mem_singleton.mpr hbuf⟩

theorem orderly_markConnected (srv : Nat) :
    Ensures (World.Orderly may base) (markConnected srv) fun _ => True :=
  Ensures.get_bind fun _ _ =>
    orderly_setServer srv (fun _ hr => hr.congr rfl rfl rfl) fun _ => rfl

theorem orderly_getChannel (chanName : Str) (srv : Nat) :
    Ensures (World.Orderly may base) (getChannel chanName srv) fun _ => True :=
  Ensures.get_bind fun _ _ => Ensures.pure trivial

theorem orderly_getOrCreateChannel (chanName : Str) (srv : Nat) :
    Ensures (World.Orderly may base) (getOrCreateChannel chanName srv) fun _ => True := by
  refine Ensures.bind (orderly_getChannel chanName srv) fun found _ => ?_
  cases found with
  | some chan => exact Ensures.pure trivial
  | none =>
      refine Ensures.get_bind fun w _ => ?_
      exact Ensures.bind (orderly_modify fun w => ⟨rfl, rfl, rfl, rfl⟩)
        fun _ _ => Ensures.pure trivial

theorem orderly_setChannel (chan : Nat) (f : Channel → Channel) :
    Ensures (World.Orderly may base) (setChannel chan f) fun _ => True :=
  orderly_modify fun _ => ⟨rfl, rfl, rfl, rfl⟩

theorem orderly_chanEventTarget (event : ChanEvent) (srv : Nat) (save : Str) :
    Ensures (World.Orderly may base) (chanEventTarget event srv save) fun _ => True := by
  unfold chanEventTarget
  split
  · exact Ensures.pure trivial
  rename_i token rest _
  cases event with
  | invite =>
      exact Ensures.bind (orderly_getOrCreateChannel rest srv) fun _ _ => Ensures.pure trivial
  | quit =>
      refine Ensures.bind (orderly_getChannel token srv) fun found _ => ?_
      split
      · exact Ensures.pure trivial
      split
      · exact Ensures.pure trivial
      · exact Ensures.pure trivial
  | join | kick | part =>
      refine Ensures.bind (orderly_getOrCreateChannel token srv) fun chan _ => ?_
      split
      · exact Ensures.pure trivial
      · exact Ensures.pure trivial

theorem orderly_getChannelInfo (params : List Arg) :
    Ensures (World.Orderly may base) (getChannelInfo params) fun _ => True := by
  refine Ensures.withServer fun srv => ?_
  refine Ensures.withInt fun _ => Ensures.withDeref fun numeric => ?_
  refine Ensures.withStr fun _ => Ensures.withDeref fun buffer => ?_
  refine Ensures.ite (fun _ => Ensures.pure trivial) fun _ => ?_
  refine Ensures.bind (Ensures.liftExcept fun _ _ => trivial) fun chanName (_ : True) => ?_
  cases srv with
  | none => exact Ensures.pure trivial
  | some srv =>
      refine Ensures.bind (orderly_getOrCreateChannel chanName srv) fun thisChannel _ => ?_
      refine Ensures.ite (fun _ => ?_) fun _ => Ensures.ite (fun _ => ?_) fun _ =>
        Ensures.ite (fun _ => ?_) fun _ => Ensures.pure trivial
      · refine Ensures.withDeref fun colon => Ensures.ite (fun _ => Ensures.throw_bind _) ?_
        intro _
        exact Ensures.bind (orderly_setChannel _ _) fun _ _ => Ensures.pure trivial
      · refine Ensures.withDeref fun infoStart => ?_
        split
        · exact Ensures.pure trivial
        · exact Ensures.bind (orderly_setChannel _ _) fun _ _ => Ensures.pure trivial
        · exact Ensures.bind (orderly_setChannel _ _) fun _ _ => Ensures.pure trivial
      · refine Ensures.withDeref fun colon => ?_
        exact Ensures.bind (orderly_setChannel _ _) fun _ _ => Ensures.pure trivial

theorem orderly_removeUser (params : List Arg) :
    Ensures (World.Orderly may base) (removeUser params) fun _ => True := by
  refine Ensures.withChannel fun chan => Ensures.withStr fun nick => ?_
  split
  · refine Ensures.bind (Q := fun _ => True) ?_ fun record _ => ?_
    · exact Ensures.get_bind fun _ _ => Ensures.orFault _ fun _ _ => trivial
    split
    · exact Ensures.throw _
    · refine Ensures.bind (Ensures.liftExcept fun _ _ => trivial) fun newUsers (_ : True) => ?_
      exact Ensures.bind (orderly_setChannel _ _) fun _ _ => Ensures.pure trivial
  · exact Ensures.pure trivial

theorem orderly_serverRejoin (params : List Arg) :
    Ensures (World.Orderly may base) (serverRejoin params) fun _ => True := by
  refine Ensures.withServer fun srv => Ensures.withInt fun reason => ?_
  split
  · refine Ensures.ite (fun _ => Ensures.pure trivial) fun _ => ?_
    refine Ensures.bind (Q := fun _ => True) ?_ fun _ _ => Ensures.pure trivial
    refine Ensures.get_bind fun w _ => ?_
    exact Ensures.bind (orderly_modify fun _ => ⟨rfl, rfl, rfl, rfl⟩)
      fun _ _ => Ensures.pure trivial
  · exact Ensures.pure trivial

/-! ### Titles -/

theorem orderly_checkUrl (str : Str) :
    Ensures (World.Orderly may base) (checkUrl str) fun _ => True := by
  refine Ensures.get_bind fun w _ => ?_
  split
  · exact Ensures.pure trivial
  · exact Ensures.ite (fun _ => Ensures.pure trivial) fun _ => Ensures.pure trivial

theorem orderly_getUrls : Ensures (World.Orderly may base) getUrls fun _ => True := by
  refine Ensures.get_bind fun w _ => ?_
  split
  · exact Ensures.pure trivial
  · refine Ensures.ite (fun _ => ?_) fun _ => Ensures.pure trivial
    exact Ensures.bind (orderly_modify fun _ => ⟨rfl, rfl, rfl, rfl⟩)
      fun _ _ => Ensures.pure trivial

theorem orderly_addUrl (params : List Arg) :
    Ensures (World.Orderly may base) (addUrl params) fun _ => True := by
  refine Ensures.withStr fun nick => Ensures.withStr fun msg => ?_
  split
  · refine Ensures.ite (fun _ => Ensures.pure trivial) fun _ => ?_
    refine Ensures.ite (fun _ => Ensures.pure trivial) fun _ => ?_
    refine Ensures.bind (orderly_checkUrl _) fun listed _ => ?_
    refine Ensures.ite (fun _ => Ensures.pure trivial) fun _ => ?_
    refine Ensures.get_bind fun w _ => ?_
    refine Ensures.ite (fun _ => Ensures.throw_bind _) fun _ => ?_
    refine Ensures.bind (orderly_modify fun _ => ⟨rfl, rfl, rfl, rfl⟩) fun _ _ => ?_
    exact Ensures.bind orderly_getUrls fun _ _ => Ensures.pure trivial
  · exact Ensures.pure trivial

/-- A title is queued without its line ends. -/
theorem orderly_writeCallback (lib : TitleLib) {ark : Ark} (hark : Unbroken ark.targetSave)
    (httpCode : Int) (ptr : List UInt8) :
    Ensures (World.Orderly may base) (writeCallback lib ark httpCode ptr)
      fun ark => Unbroken ark.targetSave := by
  refine Ensures.ite (fun _ => Ensures.pure hark) fun _ => ?_
  dsimp only
  split
  · exact Ensures.pure hark
  refine Ensures.ite (fun _ => Ensures.pure hark) fun _ => ?_
  refine Ensures.ite (fun _ => Ensures.pure hark) fun _ => ?_
  refine Ensures.bind (Ensures.modify fun w hw =>
    ⟨hw.servers, hw.names, hw.config, hw.sends, fun entry hentry => ?_⟩)
    fun _ _ => Ensures.pure hark
  rcases List.mem_append.mp hentry with hentry | hentry
  · exact hw.queue entry hentry
  · obtain rfl := List.mem_singleton.mp hentry
    refine ⟨fun c hc => ?_, hark⟩
    have hwanted := (List.mem_filter.mp hc).2
    simp only [isUnwanted, Bool.not_or, Bool.and_eq_true, Bool.not_eq_true'] at hwanted
    simp only [isCrLf, hwanted.1.1, hwanted.2, Bool.or_self]

theorem orderly_writeChunks (lib : TitleLib) (chunks : List (Int × List UInt8)) {ark : Ark}
    (hark : Unbroken ark.targetSave) :
    Ensures (World.Orderly may base) (writeChunks lib chunks ark)
      fun ark => Unbroken ark.targetSave := by
  induction chunks generalizing ark with
  | nil => exact Ensures.pure hark
  | cons chunk chunks ih =>
      exact Ensures.bind (orderly_writeCallback lib hark _ _) fun ark hark => ih hark

theorem orderly_httpRequest (lib : TitleLib) (left : Nat) {ark : Ark}
    (hark : Unbroken ark.targetSave) :
    Ensures (World.Orderly may base) (httpRequest lib left ark) fun _ => True := by
  have hinit : Ensures (World.Orderly may base) curlInit fun _ => True := by
    refine Ensures.get_bind fun w _ => ?_
    exact Ensures.bind (orderly_modify fun _ => ⟨rfl, rfl, rfl, rfl⟩)
      fun _ _ => Ensures.pure trivial
  have hperform : ∀ {ark : Ark}, Unbroken ark.targetSave →
      Ensures (World.Orderly may base) (curlPerform lib ark)
        fun res => Unbroken res.2.targetSave := by
    intro ark hark
    refine Ensures.get_bind fun w _ => ?_
    refine Ensures.bind (orderly_modify fun _ => ⟨rfl, rfl, rfl, rfl⟩) fun _ _ => ?_
    exact Ensures.bind (orderly_writeChunks lib _ hark) fun ark hark => Ensures.pure hark
  induction left generalizing ark with
  | zero =>
      refine Ensures.bind hinit fun inited _ => ?_
      refine Ensures.ite (fun _ => Ensures.pure trivial) fun _ => ?_
      refine Ensures.bind (hperform hark) fun res _ => ?_
      exact Ensures.ite (fun _ => Ensures.pure trivial) fun _ => Ensures.pure trivial
  | succ left ih =>
      refine Ensures.bind hinit fun inited _ => ?_
      refine Ensures.ite (fun _ => Ensures.pure trivial) fun _ => ?_
      refine Ensures.bind (hperform hark) fun res hres => ?_
      exact Ensures.ite (fun _ => Ensures.pure trivial) fun _ => ih hres

theorem orderly_checkForUrl (lib : TitleLib) {params : List Arg}
    (htarget : ∀ target, params[3]? = some (.str target) → Unbroken target) :
    Ensures (World.Orderly may base) (checkForUrl lib params) fun _ => True := by
  refine Ensures.ite (fun _ => Ensures.pure trivial) fun _ => ?_
  refine Ensures.withServer fun _ => Ensures.withDeref fun srv => ?_
  refine Ensures.withStr fun _ => Ensures.withDeref fun nick => ?_
  refine Ensures.readStr (Ensures.throw_bind _) fun target hparam => ?_
  refine Ensures.withStr fun _ => Ensures.withDeref fun msg => ?_
  refine Ensures.bind (orderly_getChannel target srv) fun chan _ => ?_
  split
  · exact Ensures.pure trivial
  split
  · exact Ensures.pure trivial
  have hfetch : ∀ ark : Ark, ark.targetSave = target → Ensures (World.Orderly may base)
      (httpRequest lib 3 ark >>= fun _ => pure bcircPluginOk) fun _ => True := by
    rintro ark rfl
    exact Ensures.bind (orderly_httpRequest lib 3 (htarget _ hparam))
      fun _ _ => Ensures.pure trivial
  refine Ensures.get_bind fun w _ => ?_
  refine Ensures.ite (fun _ => ?_) fun _ => hfetch _ rfl
  refine Ensures.bind (orderly_checkUrl _) fun listed _ => ?_
  exact Ensures.ite (fun _ => Ensures.pure trivial) fun _ => hfetch _ rfl

end World

end Bcirc
