import Bcirc.Raising
import Bcirc.SentLines

/-!
# The events that make the bot send

The functions that send and that raise events keep a bot in order, when
the arguments are what they rely on (`Handler.Heeds`); and they raise
events with such arguments only (`Terms.Raises`). So a dispatch keeps it
in order, whatever it is that may be sent.
-/

namespace Bcirc

open CProg CStr Transition

/-! ## What the functions rely on -/

/-- The terms on which events are handled: what may be sent and to whom,
whether the core plugin may still be loaded, the world before, and the
names of the index. -/
structure Terms where
  may : Nat → Str → Prop
  core : Prop
  base : World
  names : List CbName

def Handler.isCore : Handler → Bool
  | .gotIn | .handlePing | .handleRegisteration | .handleNick | .serverRejoin => true
  | _ => false

/-- `f` may be called for the event. -/
def Terms.Serves (t : Terms) (cbName : Str) (f : Handler) : Prop :=
  f ∈ listeners cbName ∧ (f.isCore = true → t.core)

/-- What the bot may send to `srv` at any time. -/
structure Terms.Admits (t : Terms) (srv : Nat) : Prop where
  nick : ∀ newNick, Unbroken newNick → t.may srv (nickLine newNick)
  join : ∀ rest, Unbroken rest → t.may srv (ascii "JOIN " ++ rest ++ crlf)

def Handler.Heeds (t : Terms) (args : List Arg) : Handler → Prop
  | .gotIn | .handleNick => ∀ srv, args[0]? = some (.server srv) → t.Admits srv
  | .getNumeric => t.core → ∀ srv, args[0]? = some (.server srv) → t.Admits srv
  | .handlePing => ∀ srv line, args[0]? = some (.server srv) → args[1]? = some (.str line) →
      ¬ line.length < 7 → (strtokR isSpace line).1 = some (ascii "PING") →
        t.may srv (pongLine line)
  | .handleRegisteration => ∀ srv, args[0]? = some (.server srv) → t.Admits srv ∧
      ∀ record lines, record.Unbroken → registrationLines record = .ok lines →
        t.may srv lines.1 ∧ t.may srv lines.2
  | .getPrivmsg => ∀ line, args[1]? = some (.str line) → Unbroken line
  | .checkForUrl => ∀ target, args[3]? = some (.str target) → Unbroken target
  | _ => True

def Terms.Heeded (t : Terms) (cbName : Str) (args : List Arg) : Prop :=
  ∀ f, t.Serves cbName f → f.Heeds t args

section Heeded

variable {t : Terms}

theorem heeded_serverRecv {srv : Nat} {line : Str} (hline : Unbroken line)
    (hadmits : t.core → t.Admits srv)
    (hpong : t.core → ¬ line.length < 7 →
      (strtokR isSpace line).1 = some (ascii "PING") → t.may srv (pongLine line)) :
    t.Heeded callbackServerRecv [.server srv, .str line] := by
  rintro f ⟨hf, hcore⟩
  rw [listeners_serverRecv] at hf
  simp only [List.mem_cons, List.not_mem_nil, or_false] at hf
  rcases hf with rfl | rfl | rfl | rfl
  · intro srv' line' hsrv hstr
    cases hsrv
    cases hstr
    exact hpong (hcore rfl)
  · intro line' hstr
    cases hstr
    exact hline
  · intro h srv' hsrv
    cases hsrv
    exact hadmits h
  · trivial

theorem heeded_gotNumeric {srv : Nat} {args : List Arg} (hadmits : t.core → t.Admits srv) :
    t.Heeded callbackGotNumeric (.server srv :: args) := by
  rintro f ⟨hf, hcore⟩
  rw [listeners_gotNumeric] at hf
  simp only [List.mem_cons, List.not_mem_nil, or_false] at hf
  rcases hf with rfl | rfl | rfl
  · intro srv' hsrv
    cases hsrv
    exact hadmits (hcore rfl)
  · intro srv' hsrv
    cases hsrv
    exact hadmits (hcore rfl)
  · trivial

theorem heeded_gotPrivmsg {args : List Arg}
    (htarget : ∀ target, args[3]? = some (.str target) → Unbroken target) :
    t.Heeded callbackGotPrivmsg args := by
  rintro f ⟨hf, -⟩
  rw [listeners_gotPrivmsg] at hf
  simp only [List.mem_cons, List.not_mem_nil, or_false] at hf
  rcases hf with rfl | rfl
  · exact htarget
  · trivial

theorem heeded_serverSend (args : List Arg) : t.Heeded callbackServerSend args := by
  rintro f ⟨hf, -⟩
  rw [listeners_serverSend] at hf
  cases hf

theorem heeded_chanEvent (event : ChanEvent) (args : List Arg) :
    t.Heeded event.callback args := by
  rintro f ⟨hf, -⟩
  rw [listeners_chanEvent event hf]
  trivial

theorem heeded_serverConnected {srv : Nat}
    (hlines : t.core → t.Admits srv ∧
      ∀ record lines, record.Unbroken → registrationLines record = .ok lines →
        t.may srv lines.1 ∧ t.may srv lines.2) :
    t.Heeded callbackServerConnected [.server srv] := by
  rintro f ⟨hf, hcore⟩
  rw [listeners_serverConnected] at hf
  obtain rfl := List.mem_singleton.mp hf
  intro srv' hsrv
  cases hsrv
  exact hlines (hcore rfl)

theorem heeded_serverDisconnected (args : List Arg) :
    t.Heeded callbackServerDisconnected args := by
  rintro f ⟨hf, -⟩
  rw [listeners_serverDisconnected] at hf
  obtain rfl := List.mem_singleton.mp hf
  trivial

end Heeded

/-! ## The lines sent -/

instance : DecidablePred Unbroken :=
  fun s => List.decidableBAll (fun c => isCrLf c = false) s

section Lines

variable {heard : Nat → Str → Prop} {srv : Nat}

theorem chat_nickLine {newNick : Str} (hnick : Unbroken newNick) :
    SentLine (Chat heard srv) (nickLine newNick) := by
  have hprefix : Unbroken (ascii "NICK ") := by decide
  exact ⟨ascii "NICK " ++ newNick, rfl, hprefix.append hnick, .nick newNick⟩

theorem chat_join {rest : Str} (hrest : Unbroken rest) :
    SentLine (Chat heard srv) (ascii "JOIN " ++ rest ++ crlf) := by
  have hprefix : Unbroken (ascii "JOIN ") := by decide
  exact ⟨ascii "JOIN " ++ rest, rfl, hprefix.append hrest, .join rest⟩

/-- The answer to PING is the line itself, which is long enough for the `O`. -/
theorem chat_pongLine {line : Str} (hheard : heard srv line) (hline : Unbroken line)
    (hlen : ¬ line.length < 7) (hping : (strtokR isSpace line).1 = some (ascii "PING")) :
    SentLine (Chat heard srv) (pongLine line) := by
  refine ⟨line.set 1 79, ?_, fun c hc => ?_, .pong hheard hping⟩
  · rw [pongLine, List.set_append_left _ _ (by omega)]
  · rcases List.mem_or_eq_of_mem_set hc with hc | rfl
    · exact hline c hc
    · rfl

theorem command_registrationLines {record : Server} (hrecord : record.Unbroken)
    {lines : Str × Str} (h : registrationLines record = .ok lines) :
    SentLine (Command heard srv) lines.1 ∧ SentLine (Command heard srv) lines.2 := by
  unfold registrationLines at h
  simp only at h
  split at h
  · cases h
  cases h
  have hpass : Unbroken (record.pass.getD (ascii "asd")) := by
    cases hkey : record.pass with
    | none => exact (by decide : Unbroken (ascii "asd"))
    | some key => exact hrecord.pass key hkey
  have hnames : Unbroken (record.realname ++ ascii " 8 * :" ++ record.username) :=
    (hrecord.realname.append (by decide)).append hrecord.username
  constructor
  · exact ⟨_, rfl, Unbroken.append (by decide) hpass, .pass _⟩
  · refine ⟨ascii "USER " ++ (record.realname ++ ascii " 8 * :" ++ record.username), ?_,
      Unbroken.append (by decide) hnames, .user _⟩
    simp only [List.append_assoc]

/-! ### Formatting twice -/

theorem sprintf_cons {c : UInt8} (hc : c ≠ 37) (fmt : Str) (args : List Str) :
    sprintf (c :: fmt) args = (c :: ·) <$> sprintf fmt args := by
  cases fmt with
  | nil => simp [sprintf, hc]
  | cons d fmt => rw [sprintf.eq_def]; exact if_pos hc

theorem of_map_ok {f : Str → Str} {r : Except Fault Str} {out : Str} (h : f <$> r = .ok out) :
    ∃ s, r = .ok s ∧ out = f s := by
  cases r with
  | ok s =>
      cases h
      exact ⟨s, rfl, rfl⟩
  | error e => cases h

/-- What a directive stands for, and the arguments it leaves. -/
theorem of_sprintf_directive {d : UInt8} {fmt : Str} {args : List Str} {out : Str}
    (h : sprintf (37 :: d :: fmt) args = .ok out) :
    (∃ s, d = 37 ∧ sprintf fmt args = .ok s ∧ out = 37 :: s) ∨
      ∃ a args' s, args = a :: args' ∧ d = 115 ∧ sprintf fmt args' = .ok s ∧ out = a ++ s := by
  rw [sprintf.eq_def] at h
  simp only [ne_eq, not_true_eq_false, if_false] at h
  split at h
  · rename_i hd
    obtain ⟨s, hs, rfl⟩ := of_map_ok h
    exact Or.inl ⟨s, hd, hs, rfl⟩
  split at h
  · rename_i a args'
    split at h
    · rename_i hd
      obtain ⟨s, hs, rfl⟩ := of_map_ok h
      exact Or.inr ⟨a, args', s, rfl, hd, hs, rfl⟩
    · cases h
  · cases h

/-- A line without an end, formatted with arguments without one, has none. -/
theorem of_sprintf_ok : ∀ {fmt : Str} {args : List Str} {out : Str}, Unbroken fmt →
    (∀ a ∈ args, Unbroken a) → sprintf (fmt ++ crlf) args = .ok out →
      ∃ line, out = line ++ crlf ∧ Unbroken line
  | [], args, out, hfmt, _, h => by
      have hend : sprintf crlf args = .ok crlf := rfl
      obtain rfl := Except.ok.inj (hend.symm.trans h)
      exact ⟨[], rfl, hfmt⟩
  | [c], args, out, hfmt, _, h => by
      by_cases hc : c = 37
      · subst hc
        -- the carriage return is no directive
        rcases of_sprintf_directive h with ⟨_, hd, -, -⟩ | ⟨_, _, _, -, hd, -, -⟩
        · cases hd
        · cases hd
      · rw [List.singleton_append, sprintf_cons hc] at h
        obtain ⟨s, hs, rfl⟩ := of_map_ok h
        obtain rfl := Except.ok.inj hs
        exact ⟨[c], rfl, hfmt⟩
  | c :: d :: fmt, args, out, hfmt, hargs, h => by
      have htail : Unbroken (d :: fmt) := fun b hb => hfmt b (List.mem_cons_of_mem c hb)
      have hrest : Unbroken fmt := fun b hb => htail b (List.mem_cons_of_mem d hb)
      have hput : ∀ head s, Unbroken head → (∃ line, s = line ++ crlf ∧ Unbroken line) →
          ∃ line, head ++ s = line ++ crlf ∧ Unbroken line := by
        rintro head s hhead ⟨line, rfl, hline⟩
        exact ⟨head ++ line, (List.append_assoc ..).symm, hhead.append hline⟩
      by_cases hc : c = 37
      · subst hc
        rcases of_sprintf_directive h with ⟨s, -, hs, rfl⟩ | ⟨a, args', s, rfl, -, hs, rfl⟩
        · exact hput [37] s (by decide) (of_sprintf_ok hrest hargs hs)
        · exact hput a s (hargs a List.mem_cons_self)
            (of_sprintf_ok hrest (fun b hb => hargs b (List.mem_cons_of_mem a hb)) hs)
      · rw [List.cons_append, sprintf_cons hc] at h
        obtain ⟨s, hs, rfl⟩ := of_map_ok h
        refine hput [c] s (fun b hb => ?_) (of_sprintf_ok htail hargs hs)
        obtain rfl := List.mem_singleton.mp hb
        exact hfmt b List.mem_cons_self

/-- A command that starts with JOIN is still one when its own text has been
the format. -/
theorem of_sprintf_join {rest chanName buf : Str} (hrest : Unbroken rest)
    (hname : Unbroken chanName)
    (h : sprintf (ascii "JOIN " ++ (rest ++ crlf)) [chanName] = .ok buf) :
    ∃ line, buf = ascii "JOIN " ++ line ++ crlf ∧ Unbroken line := by
  have hsplit : sprintf (ascii "JOIN " ++ (rest ++ crlf)) [chanName] =
      (ascii "JOIN " ++ ·) <$> sprintf (rest ++ crlf) [chanName] := by
    have hjoin : ascii "JOIN " = [74, 79, 73, 78, 32] := by decide
    simp only [hjoin, List.cons_append, List.nil_append]
    iterate 5 rw [sprintf_cons (by decide)]
    cases sprintf (rest ++ crlf) [chanName] with
    | ok s => rfl
    | error e => rfl
  rw [hsplit] at h
  obtain ⟨s, hs, rfl⟩ := of_map_ok h
  obtain ⟨line, rfl, hline⟩ := of_sprintf_ok hrest (by simpa using hname) hs
  exact ⟨line, (List.append_assoc ..).symm, hline⟩

end Lines

/-! ## The functions that raise events -/

/-- The index leads to functions that may be called, and the world is in
order. -/
def Terms.InOrder (t : Terms) (bot : Bot Handler World) : Prop :=
  Routed t.Serves t.names bot.reg ∧ World.Orderly t.may t.base bot.world

theorem dispatchInv_inOrder (t : Terms) : DispatchInv t.Serves t.names t.InOrder where
  routed _ h := h.1
  pause _ ptr h := ⟨h.1.pause ptr, h.2⟩
  remove _ ptr h := ⟨h.1.remove ptr, h.2⟩

/-- An event whose arguments are what its callbacks rely on leaves the bot
in order. -/
def Terms.Raises (t : Terms) (raise : Str → List Arg → Prog (Bot Handler World) Int) : Prop :=
  ∀ cbName args, t.Heeded cbName args →
    Ensures t.InOrder (raise cbName args) fun _ => True

section Events

variable {t : Terms}

theorem inOrder_onWorld {α : Type} {m : Prog World α} {Q : α → Prop}
    (hm : Ensures (World.Orderly t.may t.base) m Q) :
    Ensures t.InOrder (onWorld m) Q := by
  rintro bot ⟨hreg, hw⟩
  obtain ⟨hend, hres⟩ := hm bot.world hw
  unfold Bcirc.onWorld
  cases hrun : m bot.world with
  | ok a w =>
      rw [hrun] at hend
      refine ⟨⟨hreg, hend⟩, fun b s hb => ?_⟩
      cases hb
      exact hres a w hrun
  | error e w =>
      rw [hrun] at hend
      refine ⟨⟨hreg, hend⟩, fun b s hb => ?_⟩
      cases hb

variable {raise : Str → List Arg → Prog (Bot Handler World) Int}

theorem Terms.Raises.serverSend (h : t.Raises raise) {srv : Nat} {buf : Str}
    (hbuf : t.may srv buf) :
    Ensures t.InOrder (serverSend raise (some buf) srv) fun _ => True := by
  refine Ensures.bind (h _ _ (heeded_serverSend _)) fun _ _ => ?_
  refine Ensures.bind (inOrder_onWorld (orderly_send hbuf)) fun res _ => ?_
  refine Ensures.ite (fun _ => Ensures.pure trivial) fun _ => ?_
  refine Ensures.bind (inOrder_onWorld (orderly_setServer srv ?_ fun _ => rfl)) fun _ _ =>
    Ensures.pure trivial
  exact fun _ hr => hr.congr rfl rfl rfl

theorem Terms.Raises.nick (h : t.Raises raise) {srv : Nat} (hadmits : t.Admits srv)
    {newNick : Str} (hnick : Unbroken newNick) :
    Ensures t.InOrder (nick raise newNick srv) fun _ => True := by
  refine Ensures.bind (inOrder_onWorld (orderly_getServer srv)) fun _ _ => ?_
  refine Ensures.bind (inOrder_onWorld (orderly_setServer srv ?_ fun _ => rfl)) fun _ _ =>
    h.serverSend (hadmits.nick newNick hnick)
  exact fun _ hr => ⟨hr.pass, hr.realname, hr.username, hnick, hr.altNick⟩

theorem Terms.Raises.joinChannel (h : t.Raises raise) {srv : Nat} (hadmits : t.Admits srv)
    {chanName : Str} {chanPass : Option Str} (hname : Unbroken chanName)
    (hpass : ∀ pass, chanPass = some pass → Unbroken pass) :
    Ensures t.InOrder (joinChannel raise chanName chanPass srv) fun _ => True := by
  have hsend : ∀ rest size, Unbroken rest → Ensures t.InOrder
      (liftExcept (sprintf (ascii "JOIN " ++ (rest ++ crlf)) [chanName]) >>= fun buf =>
        if size ≤ buf.length then throw Fault.outOfBounds >>= fun _ : PUnit =>
          Bcirc.serverSend raise (some buf) srv
        else Bcirc.serverSend raise (some buf) srv) fun _ => True := by
    intro rest size hrest
    refine Ensures.bind (Q := t.may srv) (Ensures.liftExcept fun buf hbuf => ?_) fun buf hbuf => ?_
    · obtain ⟨line, rfl, hline⟩ := of_sprintf_join hrest hname hbuf
      exact hadmits.join line hline
    · exact Ensures.ite (fun _ => Ensures.throw_bind _) fun _ => h.serverSend hbuf
  cases chanPass with
  | none => exact hsend chanName _ hname
  | some pass =>
      have hrest := hsend (chanName ++ (ascii " " ++ pass)) (4 + 1 + chanName.length + 2 +
        pass.length + 2 + 1) (hname.append (Unbroken.append (by decide) (hpass pass rfl)))
      have hline : ascii "JOIN " ++ chanName ++ ascii " " ++ pass ++ crlf =
          ascii "JOIN " ++ (chanName ++ (ascii " " ++ pass) ++ crlf) := by
        simp only [List.append_assoc]
      rw [← hline] at hrest
      exact hrest

theorem Terms.Raises.joinChannels (h : t.Raises raise) {srv : Nat} (hadmits : t.Admits srv)
    {channels : List ChannelConfig} (hchannels : ∀ c ∈ channels, c.Unbroken) :
    Ensures t.InOrder (joinChannels raise srv channels) fun _ => True := by
  induction channels with
  | nil => exact Ensures.pure trivial
  | cons channel channels ih =>
      obtain ⟨hchannel, hrest⟩ := List.forall_mem_cons.mp hchannels
      unfold Bcirc.joinChannels
      split
      · exact ih hrest
      · rename_i chanName hname
        exact Ensures.bind (h.joinChannel hadmits (hchannel.name chanName hname) hchannel.key)
          fun _ _ => ih hrest

theorem Terms.Raises.autojoinServers (h : t.Raises raise) {srv : Nat} (hadmits : t.Admits srv)
    {servers : List ServerConfig}
    (hservers : ∀ s ∈ servers, ∀ channels, s.channels = some channels →
      ∀ c ∈ channels, c.Unbroken) :
    Ensures t.InOrder (autojoinServers raise srv servers) fun _ => True := by
  induction servers with
  | nil => exact Ensures.pure trivial
  | cons thisServer servers ih =>
      obtain ⟨hserver, hrest⟩ := List.forall_mem_cons.mp hservers
      refine Ensures.bind (inOrder_onWorld (orderly_getServer srv)) fun record _ => ?_
      refine Ensures.withDeref fun networkName => ?_
      refine Ensures.ite (fun _ => ?_) fun _ => ih hrest
      split
      · exact ih hrest
      · rename_i channels hchannels
        exact Ensures.bind (h.joinChannels hadmits (hserver channels hchannels)) fun _ _ =>
          ih hrest

theorem Terms.Raises.gotIn (h : t.Raises raise) {params : List Arg}
    (hheeds : Handler.gotIn.Heeds t params) :
    Ensures t.InOrder (gotIn raise params) fun _ => True := by
  refine Ensures.readServer (Ensures.throw_bind _) fun srv hsrv => ?_
  refine Ensures.bind (Q := fun a => a = srv) (Ensures.pure rfl) fun a ha => ?_
  subst ha
  refine Ensures.withInt fun _ => Ensures.withDeref fun numeric => ?_
  refine Ensures.ite (fun _ => Ensures.pure trivial) fun _ => ?_
  refine Ensures.bind (inOrder_onWorld (orderly_getServer a)) fun _ _ => ?_
  refine Ensures.bind (inOrder_onWorld (orderly_setServer a ?_ fun _ => rfl)) fun _ _ => ?_
  · exact fun _ hr => hr.congr rfl rfl rfl
  refine Ensures.bind (Q := fun _ => True) ?_ fun _ _ => Ensures.pure trivial
  refine Ensures.get_bind fun bot hbot => ?_
  split
  · exact Ensures.pure trivial
  · exact Ensures.pure trivial
  · rename_i servers hconfig
    exact h.autojoinServers (hheeds a hsrv) (hbot.2.config servers hconfig)

theorem Terms.Raises.handlePing (h : t.Raises raise) {params : List Arg}
    (hheeds : Handler.handlePing.Heeds t params) :
    Ensures t.InOrder (handlePing raise params) fun _ => True := by
  refine Ensures.readServer ?_ fun srv hsrv => ?_
  · refine Ensures.withStr fun buf => ?_
    cases buf with
    | none => exact Ensures.pure trivial
    | some buf => exact Ensures.pure trivial
  refine Ensures.readStr (Ensures.pure trivial) fun line hstr => ?_
  refine Ensures.ite (fun _ => Ensures.pure trivial) fun hlen => ?_
  split
  · exact Ensures.pure trivial
  rename_i maybePing save htok
  refine Ensures.ite (fun _ => Ensures.pure trivial) fun hping => ?_
  have hfirst : (strtokR isSpace line).1 = some (ascii "PING") := by
    rw [htok, not_not.mp hping]
  exact Ensures.bind (h.serverSend (hheeds srv line hsrv hstr hlen hfirst)) fun _ _ =>
    Ensures.pure trivial

theorem Terms.Raises.handleRegisteration (h : t.Raises raise) {params : List Arg}
    (hheeds : Handler.handleRegisteration.Heeds t params) :
    Ensures t.InOrder (handleRegisteration raise params) fun _ => True := by
  refine Ensures.readServer (Ensures.pure trivial) fun srv hsrv => ?_
  obtain ⟨hadmits, hlines⟩ := hheeds srv hsrv
  refine Ensures.bind (inOrder_onWorld (orderly_getServer srv)) fun _ _ => ?_
  refine Ensures.bind (inOrder_onWorld (orderly_markConnected srv)) fun _ _ => ?_
  refine Ensures.bind (inOrder_onWorld (orderly_getServer srv)) fun record hrecord => ?_
  refine Ensures.bind (Q := fun lines => t.may srv lines.1 ∧ t.may srv lines.2) ?_
    fun lines hmay => ?_
  · exact Ensures.liftExcept fun lines hrun => hlines record lines hrecord hrun
  refine Ensures.bind (h.serverSend hmay.1) fun _ _ => ?_
  refine Ensures.bind (h.serverSend hmay.2) fun _ _ => ?_
  refine Ensures.bind (inOrder_onWorld (orderly_getServer srv)) fun record hrecord => ?_
  exact Ensures.bind (h.nick hadmits hrecord.nick) fun _ _ => Ensures.pure trivial

theorem unbroken_nextNick {record : Server} (h : record.Unbroken) :
    Unbroken (nextNick record.nick record.altNick) := by
  unfold nextNick
  split
  · exact h.altNick
  · exact h.nick.append (by decide)

theorem Terms.Raises.handleNick (h : t.Raises raise) {params : List Arg}
    (hheeds : Handler.handleNick.Heeds t params) :
    Ensures t.InOrder (handleNick raise params) fun _ => True := by
  refine Ensures.readServer (Ensures.throw_bind _) fun srv hsrv => ?_
  refine Ensures.bind (Q := fun a => a = srv) (Ensures.pure rfl) fun a ha => ?_
  subst ha
  refine Ensures.withInt fun _ => Ensures.withDeref fun numeric => ?_
  refine Ensures.withStr fun _ => Ensures.withDeref fun _ => ?_
  refine Ensures.ite (fun _ => Ensures.pure trivial) fun _ => ?_
  refine Ensures.bind (inOrder_onWorld (orderly_getServer a)) fun record hrecord => ?_
  exact Ensures.bind (h.nick (hheeds a hsrv) (unbroken_nextNick hrecord)) fun _ _ =>
    Ensures.pure trivial

theorem strtokR_pieces {delim : UInt8 → Bool} {s t save : Str}
    (h : strtokR delim s = (some t, save)) : t <:+: s ∧ save <:+: s := by
  obtain ⟨a, -, -, -, ⟨rfl, rfl⟩ | ⟨d, -, rfl⟩⟩ := of_strtokR_some h
  · exact ⟨(List.suffix_append a t).isInfix, List.nil_infix⟩
  · refine ⟨List.infix_append a t (d :: save), ?_⟩
    exact ((List.suffix_cons d save).trans (List.suffix_append (a ++ t) _)).isInfix

/-- The target is a piece of the line. -/
theorem parsePrivmsg_target {line save target : Str} {nick hostmask : Option Str}
    (h : parsePrivmsg line = .message nick hostmask (some target) save) : target <:+: line := by
  unfold parsePrivmsg at h
  split at h
  · cases h
  rename_i first rest hfirst
  split at h
  · cases h
  split at h
  · cases h
  rename_i command rest' hcommand
  split at h
  · cases h
  split at h
  · cases h
  rename_i target' save' htarget
  cases h
  exact (strtokR_pieces htarget).1.trans
    ((strtokR_pieces hcommand).2.trans (strtokR_pieces hfirst).2)

theorem Terms.Raises.getPrivmsg (h : t.Raises raise) {params : List Arg}
    (hheeds : Handler.getPrivmsg.Heeds t params) :
    Ensures t.InOrder (getPrivmsg raise params) fun _ => True := by
  refine Ensures.bind (Ensures.orFault _ fun _ _ => trivial) fun srv (_ : True) => ?_
  refine Ensures.readStr (Ensures.throw_bind _) fun line hstr => ?_
  refine Ensures.bind (Q := fun buf => buf = line) (Ensures.pure rfl) fun buf hbuf => ?_
  subst hbuf
  split
  · exact Ensures.pure trivial
  split
  · exact Ensures.pure trivial
  rename_i nick hostmask target save hparse
  refine Ensures.bind (h _ _ (heeded_gotPrivmsg fun word hword => ?_)) fun _ _ =>
    Ensures.pure trivial
  cases target with
  | none => cases hword
  | some target =>
      cases hword
      exact (hheeds buf hstr).piece (parsePrivmsg_target hparse)

theorem Terms.Raises.getNumeric (h : t.Raises raise) {params : List Arg}
    (hheeds : Handler.getNumeric.Heeds t params) :
    Ensures t.InOrder (getNumeric raise params) fun _ => True := by
  refine Ensures.readServer ?_ fun srv hsrv => ?_
  · exact Ensures.withStr fun _ => Ensures.withDeref fun _ => Ensures.pure trivial
  refine Ensures.withStr fun _ => Ensures.withDeref fun line => ?_
  dsimp only
  split
  · exact Ensures.pure trivial
  split
  · exact Ensures.pure trivial
  refine Ensures.ite (fun _ => ?_) fun _ => Ensures.pure trivial
  have hadmits : t.core → t.Admits srv := fun hcore => hheeds hcore srv hsrv
  exact Ensures.bind (h _ _ (heeded_gotNumeric hadmits)) fun _ _ => Ensures.pure trivial

theorem Terms.Raises.raiseChanEvent (h : t.Raises raise) (event : ChanEvent)
    (chan : Option Nat) (nick hostmask reason : Option Str) :
    Ensures t.InOrder (raiseChanEvent raise event chan nick hostmask reason)
      fun _ => True :=
  Ensures.bind (h _ _ (heeded_chanEvent event _)) fun _ _ => Ensures.pure trivial

theorem Terms.Raises.getChanEvent (h : t.Raises raise) (params : List Arg) :
    Ensures t.InOrder (getChanEvent raise params) fun _ => True := by
  refine Ensures.withServer fun srv => Ensures.withStr fun str => ?_
  split
  · refine Ensures.ite (fun _ => Ensures.pure trivial) fun _ => ?_
    refine Ensures.bind (inOrder_onWorld (orderly_getServer _)) fun record _ => ?_
    refine Ensures.ite (fun _ => Ensures.pure trivial) fun _ => ?_
    refine Ensures.ite (fun _ => Ensures.throw_bind _) fun _ => ?_
    split
    · exact h.raiseChanEvent _ _ _ _ _
    split
    · exact h.raiseChanEvent _ _ _ _ _
    split
    · exact Ensures.pure trivial
    refine Ensures.bind (Ensures.liftExcept fun _ _ => trivial) fun source (_ : True) => ?_
    split
    · exact Ensures.pure trivial
    · exact Ensures.bind (inOrder_onWorld (orderly_chanEventTarget _ _ _)) fun _ _ =>
        h.raiseChanEvent _ _ _ _ _
  · exact Ensures.pure trivial

theorem Terms.Raises.run (h : t.Raises raise) (lib : TitleLib) {args : List Arg}
    {f : Handler} (hf : f.Heeds t args) :
    Ensures t.InOrder (f.run lib raise args) fun _ => True := by
  cases f with
  | gotIn => exact h.gotIn hf
  | handlePing => exact h.handlePing hf
  | handleRegisteration => exact h.handleRegisteration hf
  | handleNick => exact h.handleNick hf
  | serverRejoin => exact inOrder_onWorld (orderly_serverRejoin args)
  | getPrivmsg => exact h.getPrivmsg hf
  | getNumeric => exact h.getNumeric hf
  | getChanEvent => exact h.getChanEvent args
  | getChannelInfo => exact inOrder_onWorld (orderly_getChannelInfo args)
  | removeUser => exact inOrder_onWorld (orderly_removeUser args)
  | checkForUrl => exact inOrder_onWorld (orderly_checkForUrl lib hf)
  | addUrl => exact inOrder_onWorld (orderly_addUrl args)

end Events

/-! ## A dispatch -/

section Dispatch

variable {t : Terms}

theorem Terms.not_serves_callbacksExecuted (t : Terms) (f : Handler) :
    ¬ t.Serves callbackCallbacksExecuted f := by
  rintro ⟨hf, -⟩
  rw [listeners_callbacksExecuted] at hf
  cases hf

theorem invoke_inOrder (lib : TitleLib) (depth : Nat) {cb : Callback Handler} {args : List Arg}
    (hcb : cb.cbFunc.Heeds t args) :
    Ensures t.InOrder (invoke lib depth cb args) fun _ => True := by
  induction depth generalizing cb args with
  | zero => exact Ensures.throw _
  | succ depth ih =>
      have hraises : t.Raises (executeCallbacks (invoke lib depth) .str) :=
        fun cbName args hargs => (dispatchInv_inOrder t).executeCallbacks
          t.not_serves_callbacksExecuted fun cb hcb => ih (hargs cb.cbFunc hcb)
      exact hraises.run lib hcb

theorem raises_executeCallbacks (t : Terms) (lib : TitleLib) (depth : Nat) :
    t.Raises (executeCallbacks (invoke lib depth) .str) :=
  fun _ _ hargs => (dispatchInv_inOrder t).executeCallbacks t.not_serves_callbacksExecuted
    fun cb hcb => invoke_inOrder lib depth (hargs cb.cbFunc hcb)

theorem Terms.InOrder.raised {lib : TitleLib} {depth : Nat} {cbName : Str} {args : List Arg}
    {bot bot' : Bot Handler World} {res : Int} (hbot : t.InOrder bot)
    (hargs : t.Heeded cbName args) (h : raiseEvent lib depth cbName args bot = .ok res bot') :
    t.InOrder bot' := by
  have hend := (raises_executeCallbacks t lib depth cbName args hargs bot hbot).1
  rwa [show executeCallbacks _ _ _ _ bot = _ from h] at hend

end Dispatch

end Bcirc
