import Bcirc.DispatchOrder
import Bcirc.Effects

/-!
# QUIT

A QUIT names no channel. `get_chan_event` looks a channel up by the first
word of the reason, finds none as a rule, and hands `remove_user` a null
pointer, to which the answer is BREAK: no list of users is changed, and
the callbacks that come after are not invoked. A record that is named like
that word is emptied instead.
-/

namespace Bcirc

open CProg CStr KeyedList

/-! ## The event that is raised -/

def quitLine (nick mask reason : Str) : Str :=
  (58 :: nick ++ 33 :: mask) ++ 32 :: (ascii "QUIT" ++ 32 :: 58 :: reason)

/-- The first word of what follows the command. -/
def reasonWord (reason : Str) : Str := (58 :: reason).takeWhile (!isSpace ·)

/-- The first word of the line has a `!`, but not as its first byte. -/
theorem chanEventSource_word {a mask : Str} (hne : a ≠ []) (hbang : 33 ∉ a) (hword : 32 ∉ a)
    (hmask : 32 ∉ mask) (rest : Str) :
    chanEventSource (a ++ 33 :: mask ++ 32 :: rest) = .ok (some (a.tail, mask)) := by
  have hend : memchr (a ++ 33 :: mask ++ 32 :: rest) 32 = some (a ++ 33 :: mask).length :=
    memchr_append (by simp [hword, hmask]) _
  have hnickEnd : memchr (a ++ 33 :: mask ++ 32 :: rest) 33 = some a.length := by
    rw [List.append_assoc]
    exact memchr_append hbang _
  have hdrop : (a ++ 33 :: mask ++ 32 :: rest).drop (a.length + 1) = mask ++ 32 :: rest := by
    simp
  have hnick : ((a ++ 33 :: mask ++ 32 :: rest).drop 1).take (a.length - 1) = a.tail := by
    obtain ⟨c, nick, rfl⟩ := List.exists_cons_of_ne_nil hne
    simp
  unfold chanEventSource
  rw [hnickEnd, hend]
  simp only
  rw [if_neg (by simpa using hne), if_neg (by simp), hdrop, hnick]
  simp

/-- The first word of the line is `:nick!mask`. -/
theorem chanEventSource_mask {nick mask : Str} (hbang : 33 ∉ nick) (hnick : 32 ∉ nick)
    (hmask : 32 ∉ mask) (rest : Str) :
    chanEventSource ((58 :: nick ++ 33 :: mask) ++ 32 :: rest) = .ok (some (nick, mask)) :=
  chanEventSource_word (List.cons_ne_nil 58 nick) (by simp [hbang]) (by simp [hnick]) hmask rest

theorem chanEventSource_quitLine {nick mask : Str} (reason : Str) (hbang : 33 ∉ nick)
    (hnick : 32 ∉ nick) (hmask : 32 ∉ mask) :
    chanEventSource (quitLine nick mask reason) = .ok (some (nick, mask)) :=
  chanEventSource_mask hbang hnick hmask _

theorem chanEventTarget_quit (reason : Str) (srv : Nat) (w : World) :
    ∃ r, chanEventTarget .quit srv (58 :: reason) w =
      .ok (lookup channelKey (reasonWord reason, srv) w.channelList, r) w := by
  have hcut : strtokR isSpace (58 :: reason) =
      (some (reasonWord reason), ((58 :: reason).dropWhile (!isSpace ·)).tail) := by
    have hcolon : isSpace 58 = false := rfl
    unfold strtokR
    rw [List.dropWhile_cons_of_neg (by rw [hcolon]; exact Bool.false_ne_true)]
    rfl
  unfold chanEventTarget
  rw [hcut]
  simp only
  rw [bind_ok (getChannel_run _ srv w)]
  cases lookup channelKey (reasonWord reason, srv) w.channelList with
  | none => exact ⟨_, rfl⟩
  | some chan =>
      simp only
      rcases strtokR isSpace ((58 :: reason).dropWhile (!isSpace ·)).tail with ⟨_ | token, rest⟩
      · exact ⟨none, rfl⟩
      · exact ⟨some (chanEventReason .quit token rest), rfl⟩

/-- `get_chan_event` does nothing with the line but raise `channel_quit` with
these arguments. -/
def QuitRaises (w : World) (srv : Nat) (line : Str) (args : List Arg) : Prop :=
  ∀ (φ : Type) (raise : Str → List Arg → Prog (Bot φ World) Int) (bot : Bot φ World),
    bot.world = w → getChanEvent raise [.server srv, .str line] bot =
      (do
        let _ ← raise callbackChannelQuit args
        pure bcircPluginOk : Prog (Bot φ World) Int) bot

/-- The channel is the one named like the first word of the reason. -/
theorem getChanEvent_quit {w : World} {srv : Nat} {record : Server}
    (hsrv : w.servers[srv]? = some record) (hwelcome : record.motdSent ≠ 0)
    {nick mask reason : Str} (hbang : 33 ∉ nick) (hnick : 32 ∉ nick) (hmask : 32 ∉ mask)
    (hlong : 20 ≤ (quitLine nick mask reason).length)
    (hshort : (quitLine nick mask reason).length < 1024) :
    ∃ r : Option Str, QuitRaises w srv (quitLine nick mask reason)
      [(lookup channelKey (reasonWord reason, srv) w.channelList).elim .null .channel,
        .str nick, .str mask, r.elim .null .str] := by
  obtain ⟨r, htarget⟩ := chanEventTarget_quit reason srv w
  refine ⟨r, ?_⟩
  rintro φ raise ⟨reg, w⟩ rfl
  have hsource : ∀ c ∈ 58 :: nick ++ 33 :: mask, isSpace c = false :=
    isSpace_of_not_mem (by simp [hnick, hmask])
  have hfirst : strtokR isSpace (quitLine nick mask reason) =
      (some (58 :: nick ++ 33 :: mask), ascii "QUIT" ++ 32 :: 58 :: reason) :=
    strtokR_append_cons (by simp) hsource rfl
  have hsecond : strtokR isSpace (ascii "QUIT" ++ 32 :: 58 :: reason) =
      (some (ascii "QUIT"), 58 :: reason) :=
    strtokR_append_cons (by decide) (by decide +kernel) rfl
  have hcommand : ChanEvent.ofWord (ascii "QUIT") = some .quit := by decide
  have hlen : ¬ (quitLine nick mask reason).length + 1 ≤ 20 := by omega
  have hfits : ¬ 1024 < (quitLine nick mask reason).length + 1 := by omega
  have hget : onWorld (getServer srv) (⟨reg, w⟩ : Bot φ World) = .ok record ⟨reg, w⟩ :=
    onWorld_ok (getServer_ok hsrv)
  have hchan : onWorld (chanEventTarget .quit srv (58 :: reason)) (⟨reg, w⟩ : Bot φ World) =
      .ok (lookup channelKey (reasonWord reason, srv) w.channelList, r) ⟨reg, w⟩ :=
    onWorld_ok htarget
  show (if (quitLine nick mask reason).length + 1 ≤ 20 then pure bcircPluginContinue else do
    let record ← onWorld (getServer srv)
    _ : Prog (Bot φ World) Int) _ = _
  rw [if_neg hlen, bind_ok hget, if_neg hwelcome, if_neg hfits, hfirst]
  simp only
  rw [hsecond]
  simp only
  rw [hcommand, chanEventSource_quitLine reason hbang hnick hmask]
  simp only [liftExcept_ok]
  rw [pure_bind_run]
  simp only
  rw [bind_ok hchan]
  rfl

/-! ## The callbacks of `channel_quit` -/

/-- A function registered for events: `remove_user`, or another plugin's. -/
inductive QuitFunc (ν : Type) where
  | removeUser
  | other (f : ν)
  deriving DecidableEq, Repr

def Callback.removesUser {ν : Type} (cb : Callback (QuitFunc ν)) : Bool :=
  match cb.cbFunc with
  | .removeUser => true
  | .other _ => false

/-- The world with the log of the callbacks that were invoked. -/
abbrev Logged (ν : Type) := World × List (Callback (QuitFunc ν))

section Callbacks

variable {ν : Type}

def onRecords {α : Type} (m : Prog World α) : Prog (Bot (QuitFunc ν) (Logged ν)) α := fun s =>
  match m s.world.1 with
  | .ok a w => .ok a { s with world := (w, s.world.2) }
  | .error e w => .error e { s with world := (w, s.world.2) }

/-- `cb_func(args, argc)`, logged. -/
def quitCall (other : ν → List Arg → World → Int × World) (cb : Callback (QuitFunc ν))
    (args : List Arg) : Prog (Bot (QuitFunc ν) (Logged ν)) Int := do
  modify fun s => { s with world := (s.world.1, s.world.2 ++ [cb]) }
  match cb.cbFunc with
  | .removeUser => onRecords (removeUser args)
  | .other f => onRecords fun w => .ok (other f args w).1 (other f args w).2

/-- The functions of the other plugins do not touch the channels, and let
the dispatch go on. -/
structure Harmless (other : ν → List Arg → World → Int × World) : Prop where
  channels : ∀ f args w, (other f args w).2.channelList = w.channelList
  goesOn : ∀ f args w, (other f args w).1 ≠ bcircPluginBreak
  noStop : ∀ f args w, (other f args w).1 ≠ bcircPluginStop
  noFail : ∀ f args w, (other f args w).1 ≠ bcircPluginFail

/-! ## What a QUIT should do -/

/-- The channel lists that nick. -/
def Channel.Lists (record : Channel) (nick : Str) : Prop :=
  nick ∈ tokens isSpace (record.users.getD [])

instance (record : Channel) (nick : Str) : Decidable (record.Lists nick) :=
  inferInstanceAs (Decidable (_ ∈ _))

/-- No channel of the server lists the nick, apart from `except`. -/
def Unlisted (channelList : List Channel) (srv : Nat) (nick : Str) (except : Option Nat) :
    Prop :=
  ∀ (i : Nat) (record : Channel), channelList[i]? = some record → record.srv = srv →
    some i ≠ except →
    ¬ record.Lists nick

/-- The line is handled: the nick is gone from the channels of the server,
those of other servers are as they were, and the callbacks of
`channel_quit` were invoked. -/
structure QuitHandled (reg : Registry (QuitFunc ν)) (w : World) (srv : Nat) (nick : Str)
    (r : EStateM.Result Fault (Bot (QuitFunc ν) (Logged ν)) Int) : Prop where
  ends : returned r
  gone : Unlisted (endState r).world.1.channelList srv nick none
  others : ∀ (i : Nat) (record : Channel), w.channelList[i]? = some record → record.srv ≠ srv →
    (endState r).world.1.channelList[i]? = some record
  invoked : ∀ cb ∈ reg.registeredFor callbackChannelQuit, cb ∈ (endState r).world.2

/-! ## When it does -/

/-- The users of a channel are no more than blanks, or start with another
nick: `remove_user` frees the whole list. -/
def Channel.Emptied (record : Channel) (nick : Str) : Prop :=
  ∃ users, record.users = some users ∧ (tokens isSpace users = [] ∨
    ∃ token rest, tokens isSpace users = token :: rest ∧ token ≠ nick ∧
      users.takeWhile isSpace = [])

/-- Nothing comes after `remove_user`. -/
def RemovesLast (order : List (Callback (QuitFunc ν))) : Prop :=
  ∀ pre cb post, order = pre ++ cb :: post → cb.removesUser → post = []

/-- Without a channel named by the reason, nobody had to be removed and no
callback comes after `remove_user`. With one, it is the only channel that
had to be changed, and there is one `remove_user` to empty it. -/
def QuitWorks (order : List (Callback (QuitFunc ν))) (channelList : List Channel) (srv : Nat)
    (nick reason : Str) : Prop :=
  match lookup channelKey (reasonWord reason, srv) channelList with
  | none => Unlisted channelList srv nick none ∧ RemovesLast order
  | some chan => Unlisted channelList srv nick (some chan) ∧
      ((order.filter (·.removesUser) = [] ∧
          ∀ record, channelList[chan]? = some record → ¬ record.Lists nick) ∨
        ((order.filter (·.removesUser)).length = 1 ∧
          ∀ record, channelList[chan]? = some record → record.Emptied nick))

end Callbacks

/-! ## What `remove_user` does -/

theorem removeUser_chan {chan : Nat} {record : Channel} {w : World}
    (hchan : w.channelList[chan]? = some record) (nick : Str) (rest : List Arg) :
    removeUser (.channel chan :: .str nick :: rest) w =
      match record.users with
      | none => .error .uninitialized w
      | some users =>
        match removeUserLoop users nick with
        | .error e => .error e w
        | .ok newUsers =>
            .ok bcircPluginOk { w with
              channelList := w.channelList.modify chan fun c => { c with users := newUsers } } := by
  have hget : getChannelRecord chan w = .ok record w := by
    unfold getChannelRecord
    rw [get_bind_run, hchan]
    rfl
  show (getChannelRecord chan >>= fun record => _) w = _
  rw [bind_ok hget]
  cases record.users with
  | none => rfl
  | some users =>
      cases hloop : removeUserLoop users nick with
      | error e =>
          simp only [hloop, liftExcept_error]
          rfl
      | ok newUsers =>
          simp only [hloop, liftExcept_ok]
          rfl

theorem removeUserLoop_ok {users nick : Str} {newUsers : Option Str}
    (h : removeUserLoop users nick = .ok newUsers) :
    newUsers = none ∧ (tokens isSpace users = [] ∨
      ∃ token rest, tokens isSpace users = token :: rest ∧ token ≠ nick ∧
        users.takeWhile isSpace = []) := by
  rw [tokens_eq]
  unfold removeUserLoop at h
  rcases hcut : strtokR isSpace users with ⟨_ | token, rest⟩
  · rw [hcut] at h
    cases h
    exact ⟨rfl, Or.inl rfl⟩
  · rw [hcut] at h
    simp only at h
    split at h
    · cases h
    rename_i hne
    split at h
    · rename_i hlead
      cases h
      exact ⟨rfl, Or.inr ⟨token, _, rfl, hne, List.length_eq_zero_iff.mp hlead⟩⟩
    · cases h

theorem removeUserLoop_emptied {users nick : Str} (h : tokens isSpace users = [] ∨
    ∃ token rest, tokens isSpace users = token :: rest ∧ token ≠ nick ∧
      users.takeWhile isSpace = []) : removeUserLoop users nick = .ok none := by
  rw [tokens_eq] at h
  unfold removeUserLoop
  rcases hcut : strtokR isSpace users with ⟨_ | token, rest⟩
  · rfl
  · rw [hcut] at h
    rcases h with h | ⟨first, _, hfirst, hne, hlead⟩
    · cases h
    · simp only at hfirst ⊢
      cases hfirst
      rw [if_neg hne, if_pos (by rw [hlead]; rfl)]

/-! ## The walk along the callbacks -/

section Walk

variable {ν : Type} {other : ν → List Arg → World → Int × World}

theorem quitCall_other (other : ν → List Arg → World → Int × World)
    {cb : Callback (QuitFunc ν)} (hcb : cb.removesUser = false) :
    ∃ f, ∀ args s, quitCall other cb args s =
      .ok (other f args s.world.1).1
        { s with world := ((other f args s.world.1).2, s.world.2 ++ [cb]) } := by
  obtain ⟨serial, cbName, cbFunc, priority⟩ := cb
  cases cbFunc with
  | removeUser => cases hcb
  | other f => exact ⟨f, fun _ _ => rfl⟩

theorem quitCall_removeUser {cb : Callback (QuitFunc ν)} (hcb : cb.removesUser)
    (args : List Arg) (s : Bot (QuitFunc ν) (Logged ν)) :
    quitCall other cb args s =
      onRecords (removeUser args) { s with world := (s.world.1, s.world.2 ++ [cb]) } := by
  obtain ⟨serial, cbName, cbFunc, priority⟩ := cb
  cases cbFunc with
  | removeUser => rfl
  | other f => cases hcb

theorem removeUser_code {args : List Arg} {w w' : World} {res : Int}
    (h : removeUser args w = .ok res w') : res ≠ bcircPluginStop ∧ res ≠ bcircPluginFail := by
  have hcode : Ensures (fun _ => True) (removeUser args) fun res =>
      res = bcircPluginOk ∨ res = bcircPluginBreak := by
    refine Ensures.withChannel fun chan => Ensures.withStr fun nick => ?_
    split
    · refine Ensures.after ?_
      intro record
      split
      · exact Ensures.throw _
      · exact Ensures.after fun _ => Ensures.after fun _ => Ensures.pure (Or.inl rfl)
    · exact Ensures.pure (Or.inr rfl)
  rcases (hcode w trivial).2 res w' h with rfl | rfl <;> decide

theorem mild_quitCall (hother : Harmless other) : Mild (quitCall other) where
  reg cb args s := by
    cases hcb : cb.removesUser with
    | false =>
        obtain ⟨f, hrun⟩ := quitCall_other other hcb
        rw [hrun]
        rfl
    | true =>
        rw [quitCall_removeUser hcb]
        unfold onRecords
        split <;> rfl
  quiet cb args s res s' hrun := by
    cases hcb : cb.removesUser with
    | false =>
        obtain ⟨f, hf⟩ := quitCall_other other hcb
        rw [hf] at hrun
        cases hrun
        exact ⟨hother.noStop _ _ _, hother.noFail _ _ _⟩
    | true =>
        rw [quitCall_removeUser hcb] at hrun
        unfold onRecords at hrun
        split at hrun
        · rename_i hremove
          cases hrun
          exact removeUser_code hremove
        · cases hrun

/-- The other plugins' callbacks are all invoked. -/
theorem walk_others (hother : Harmless other) (args : List Arg)
    {l : List (Callback (QuitFunc ν))} (hl : ∀ cb ∈ l, cb.removesUser = false)
    (reg : Registry (QuitFunc ν)) (w : World) (log : List (Callback (QuitFunc ν))) :
    ∃ w', walk (quitCall other) args l ⟨reg, (w, log)⟩ = .ok none ⟨reg, (w', log ++ l)⟩ ∧
      w'.channelList = w.channelList := by
  induction l generalizing w log with
  | nil => exact ⟨w, by rw [List.append_nil]; rfl, rfl⟩
  | cons cb l ih =>
      obtain ⟨hcb, hl⟩ := List.forall_mem_cons.mp hl
      obtain ⟨f, hrun⟩ := quitCall_other other hcb
      obtain ⟨w', hwalk, hchannels⟩ := ih hl (other f args w).2 (log ++ [cb])
      refine ⟨w', ?_, hchannels.trans (hother.channels f args w)⟩
      rw [walk, bind_ok (hrun args ⟨reg, (w, log)⟩), if_neg (hother.goesOn f args w), hwalk,
        List.append_assoc]
      rfl

theorem walk_append_none {call : Callback (QuitFunc ν) → List Arg →
    Prog (Bot (QuitFunc ν) (Logged ν)) Int} {args : List Arg}
    {a : List (Callback (QuitFunc ν))} {s s' : Bot (QuitFunc ν) (Logged ν)}
    (h : walk call args a s = .ok none s') (b : List (Callback (QuitFunc ν))) :
    walk call args (a ++ b) s = walk call args b s' := by
  rw [walk_append, bind_ok h]

/-- A list without `remove_user`, or the first place of `remove_user` in it. -/
theorem removesUser_cases (l : List (Callback (QuitFunc ν))) :
    (∀ cb ∈ l, cb.removesUser = false) ∨ ∃ pre cb post, l = pre ++ cb :: post ∧
      (∀ c ∈ pre, c.removesUser = false) ∧ cb.removesUser := by
  induction l with
  | nil => exact Or.inl fun _ hcb => nomatch hcb
  | cons c l ih =>
      cases hc : c.removesUser with
      | true => exact Or.inr ⟨[], c, l, rfl, by simp, hc⟩
      | false =>
          rcases ih with hnone | ⟨pre, cb, post, rfl, hpre, hcb⟩
          · exact Or.inl (List.forall_mem_cons.mpr ⟨hc, hnone⟩)
          · exact Or.inr ⟨c :: pre, cb, post, rfl, List.forall_mem_cons.mpr ⟨hc, hpre⟩, hcb⟩

theorem filter_removesUser_nil {l : List (Callback (QuitFunc ν))}
    (hl : ∀ cb ∈ l, cb.removesUser = false) : l.filter (·.removesUser) = [] :=
  List.filter_eq_nil_iff.mpr fun cb hcb => by simp [hl cb hcb]

theorem removesLast_of_none {l : List (Callback (QuitFunc ν))}
    (hl : ∀ cb ∈ l, cb.removesUser = false) : RemovesLast l := by
  intro pre cb post horder hcb
  have hmem : cb ∈ l := by
    rw [horder]
    exact List.mem_append_right _ List.mem_cons_self
  rw [hl cb hmem] at hcb
  cases hcb

theorem removesLast_iff {pre post : List (Callback (QuitFunc ν))} {cb : Callback (QuitFunc ν)}
    (hpre : ∀ c ∈ pre, c.removesUser = false) (hcb : cb.removesUser) :
    RemovesLast (pre ++ cb :: post) ↔ post = [] := by
  constructor
  · intro hlast
    exact hlast pre cb post rfl hcb
  · intro hpost pre' cb' post' horder hcb'
    rw [hpost] at horder
    by_contra hne
    -- another `remove_user` with something after it would stand in `pre`
    obtain ⟨init, last, rfl⟩ : ∃ init last, post' = init ++ [last] :=
      ⟨_, _, (List.dropLast_append_getLast hne).symm⟩
    have hsplit : pre ++ [cb] = (pre' ++ cb' :: init) ++ [last] := by
      rw [horder]
      simp
    obtain ⟨hpre', -⟩ := List.append_inj' hsplit rfl
    have hmem : cb' ∈ pre := by
      rw [hpre']
      simp
    rw [hpre cb' hmem] at hcb'
    cases hcb'

/-- One `remove_user` either faults or frees the whole list. -/
theorem quitCall_chan (other : ν → List Arg → World → Int × World)
    {cb : Callback (QuitFunc ν)} (hcb : cb.removesUser) {chan : Nat} {record : Channel}
    {w : World} (hchan : w.channelList[chan]? = some record) (nick : Str) (rest : List Arg)
    (reg : Registry (QuitFunc ν)) (log : List (Callback (QuitFunc ν))) :
    (¬ record.Emptied nick ∧ ∃ e s',
      quitCall other cb (.channel chan :: .str nick :: rest) ⟨reg, (w, log)⟩ = .error e s') ∨
    (record.Emptied nick ∧
      quitCall other cb (.channel chan :: .str nick :: rest) ⟨reg, (w, log)⟩ =
        .ok bcircPluginOk ⟨reg, ({ w with
          channelList := w.channelList.modify chan fun c => { c with users := none } },
          log ++ [cb])⟩) := by
  have hremove := removeUser_chan hchan nick rest
  rw [quitCall_removeUser hcb]
  unfold onRecords
  cases husers : record.users with
  | none =>
      rw [husers] at hremove
      refine Or.inl ⟨?_, .uninitialized, ⟨reg, (w, log ++ [cb])⟩, ?_⟩
      · rintro ⟨users, hsome, -⟩
        rw [husers] at hsome
        cases hsome
      · simp only [hremove]
  | some users =>
      cases hloop : removeUserLoop users nick with
      | error e =>
          simp only [husers, hloop] at hremove
          refine Or.inl ⟨?_, e, ⟨reg, (w, log ++ [cb])⟩, ?_⟩
          · rintro ⟨users', hsome, hempty⟩
            rw [husers] at hsome
            obtain rfl := Option.some.inj hsome
            rw [removeUserLoop_emptied hempty] at hloop
            cases hloop
          · simp only [hremove]
      | ok newUsers =>
          obtain ⟨rfl, hempty⟩ := removeUserLoop_ok hloop
          simp only [husers, hloop] at hremove
          exact Or.inr ⟨⟨users, husers, hempty⟩, by simp only [hremove]⟩

/-- The walk up to the first `remove_user`, when that faults. -/
theorem walk_faults (hother : Harmless other) {pre : List (Callback (QuitFunc ν))}
    {cb : Callback (QuitFunc ν)} (hpre : ∀ c ∈ pre, c.removesUser = false)
    (hcb : cb.removesUser) {chan : Nat} {record : Channel} {w : World}
    (hchan : w.channelList[chan]? = some record) {nick : Str} (hnot : ¬ record.Emptied nick)
    (post : List (Callback (QuitFunc ν))) (rest : List Arg) (reg : Registry (QuitFunc ν))
    (log : List (Callback (QuitFunc ν))) :
    ∃ e s', walk (quitCall other) (.channel chan :: .str nick :: rest) (pre ++ cb :: post)
      ⟨reg, (w, log)⟩ = .error e s' := by
  obtain ⟨w₁, hwalk, hchannels⟩ :=
    walk_others hother (.channel chan :: .str nick :: rest) hpre reg w log
  have hchan₁ : w₁.channelList[chan]? = some record := by
    rw [hchannels]
    exact hchan
  rcases quitCall_chan other hcb hchan₁ nick rest reg (log ++ pre) with
    ⟨-, e, s', hfault⟩ | ⟨hempty, -⟩
  · refine ⟨e, s', ?_⟩
    rw [walk_append_none hwalk, walk, bind_error hfault]
  · exact absurd hempty hnot

/-- The same when it frees the list: the walk goes on. -/
theorem walk_frees (hother : Harmless other) {pre : List (Callback (QuitFunc ν))}
    {cb : Callback (QuitFunc ν)} (hpre : ∀ c ∈ pre, c.removesUser = false)
    (hcb : cb.removesUser) {chan : Nat} {record : Channel} {w : World}
    (hchan : w.channelList[chan]? = some record) {nick : Str} (hempty : record.Emptied nick)
    (post : List (Callback (QuitFunc ν))) (rest : List Arg) (reg : Registry (QuitFunc ν))
    (log : List (Callback (QuitFunc ν))) :
    ∃ w', w'.channelList = w.channelList.modify chan (fun c => { c with users := none }) ∧
      walk (quitCall other) (.channel chan :: .str nick :: rest) (pre ++ cb :: post)
          ⟨reg, (w, log)⟩ =
        walk (quitCall other) (.channel chan :: .str nick :: rest) post
          ⟨reg, (w', log ++ pre ++ [cb])⟩ := by
  obtain ⟨w₁, hwalk, hchannels⟩ :=
    walk_others hother (.channel chan :: .str nick :: rest) hpre reg w log
  have hchan₁ : w₁.channelList[chan]? = some record := by
    rw [hchannels]
    exact hchan
  have hok : bcircPluginOk ≠ bcircPluginBreak := by decide
  rcases quitCall_chan other hcb hchan₁ nick rest reg (log ++ pre) with ⟨hnot, -⟩ | ⟨-, hfree⟩
  · exact absurd hempty hnot
  · refine ⟨{ w₁ with
      channelList := w₁.channelList.modify chan fun c => { c with users := none } }, ?_, ?_⟩
    · show w₁.channelList.modify chan _ = _
      rw [hchannels]
    · rw [walk_append_none hwalk, walk, bind_ok hfree, if_neg hok]

end Walk

/-! ## The dispatch -/

section Dispatch

variable {ν : Type} {other : ν → List Arg → World → Int × World}
  {reg : Registry (QuitFunc ν)} {args : List Arg} {w : World}

/-- Who is notified once the callbacks were invoked. -/
theorem executed_others (hother : Harmless other)
    (honly : ∀ cb ∈ bucket reg.indexList callbackCallbacksExecuted, cb.removesUser = false)
    (nested : List Arg → Prog (Bot (QuitFunc ν) (Logged ν)) Int) (args : List Arg) (w : World)
    (log : List (Callback (QuitFunc ν))) :
    ∃ w' log', executeBody (quitCall other) .str nested callbackCallbacksExecuted args
        ⟨reg, (w, log)⟩ = .ok bcircPluginOk ⟨reg, (w', log ++ log')⟩ ∧
      w'.channelList = w.channelList := by
  cases hindex : getCbIndex reg.indexList callbackCallbacksExecuted with
  | none =>
      refine ⟨w, [], ?_, rfl⟩
      rw [List.append_nil]
      exact executeBody_unknown _ _ _ _ hindex
  | some indexPoint =>
      obtain ⟨w', hwalk, hchannels⟩ := walk_others hother args honly reg w log
      refine ⟨w', bucket reg.indexList callbackCallbacksExecuted, ?_, hchannels⟩
      rw [(mild_quitCall hother).executeBody .str nested args (s := ⟨reg, (w, log)⟩) hindex,
        bind_ok hwalk]
      simp only [ne_eq, not_true_eq_false, if_false]
      rfl

theorem quit_goesOn (hother : Harmless other)
    (honly : ∀ cb ∈ bucket reg.indexList callbackCallbacksExecuted, cb.removesUser = false)
    {w' : World} {log : List (Callback (QuitFunc ν))}
    (hwalk : walk (quitCall other) args (bucket reg.indexList callbackChannelQuit)
      ⟨reg, (w, [])⟩ = .ok none ⟨reg, (w', log)⟩) :
    ∃ w'' log', executeCallbacks (quitCall other) .str callbackChannelQuit args
        ⟨reg, (w, [])⟩ = .ok bcircPluginOk ⟨reg, (w'', log ++ log')⟩ ∧
      w''.channelList = w'.channelList := by
  have hname : callbackChannelQuit ≠ callbackCallbacksExecuted := by decide
  cases hindex : getCbIndex reg.indexList callbackChannelQuit with
  | none =>
      rw [bucket_of_getCbIndex_none hindex] at hwalk
      cases hwalk
      refine ⟨w, [], ?_, rfl⟩
      exact executeBody_unknown _ _ _ _ hindex
  | some indexPoint =>
      obtain ⟨w'', log', hnote, hchannels⟩ := executed_others hother honly
        (fun _ => pure bcircPluginOk) (args ++ [.str callbackChannelQuit]) w' log
      refine ⟨w'', log', ?_, hchannels⟩
      rw [executeCallbacks,
        (mild_quitCall hother).executeBody .str _ args (s := ⟨reg, (w, [])⟩) hindex, bind_ok hwalk]
      simp only
      rw [if_pos hname, bind_ok hnote]
      rfl

/-- The first callback that breaks or faults ends the dispatch. -/
theorem quit_stops (hother : Harmless other)
    {r : EStateM.Result Fault (Bot (QuitFunc ν) (Logged ν)) (Option Int)}
    (hwalk : walk (quitCall other) args (bucket reg.indexList callbackChannelQuit)
      ⟨reg, (w, [])⟩ = r) :
    (∀ e s', r = .error e s' → executeCallbacks (quitCall other) .str callbackChannelQuit args
        ⟨reg, (w, [])⟩ = .error e s') ∧
      ∀ res s', r = .ok (some res) s' → executeCallbacks (quitCall other) .str
        callbackChannelQuit args ⟨reg, (w, [])⟩ = .ok res s' := by
  cases hindex : getCbIndex reg.indexList callbackChannelQuit with
  | none =>
      rw [bucket_of_getCbIndex_none hindex] at hwalk
      obtain rfl : .ok none ⟨reg, (w, [])⟩ = r := hwalk
      constructor
      · intro e s' herror
        cases herror
      · intro res s' hsome
        cases hsome
  | some indexPoint =>
      rw [executeCallbacks,
        (mild_quitCall hother).executeBody .str _ args (s := ⟨reg, (w, [])⟩) hindex]
      constructor
      · rintro e s' rfl
        exact bind_error hwalk
      · rintro res s' rfl
        rw [bind_ok hwalk]
        rfl

/-- A dispatch that reaches every callback handles the line if it has left no
channel listing the nick. -/
theorem quitHandled_goesOn (hother : Harmless other) (hreg : Managed reg)
    (honly : ∀ cb ∈ bucket reg.indexList callbackCallbacksExecuted, cb.removesUser = false)
    {w' : World} {srv : Nat} {nick : Str}
    (hwalk : walk (quitCall other) args (bucket reg.indexList callbackChannelQuit)
      ⟨reg, (w, [])⟩ = .ok none ⟨reg, (w', bucket reg.indexList callbackChannelQuit)⟩)
    (hkept : ∀ (i : Nat) (record : Channel), w.channelList[i]? = some record →
      record.srv ≠ srv → w'.channelList[i]? = some record) :
    QuitHandled reg w srv nick (executeCallbacks (quitCall other) .str callbackChannelQuit args
      ⟨reg, (w, [])⟩) ↔ Unlisted w'.channelList srv nick none := by
  obtain ⟨w'', log', hrun, hchannels⟩ := quit_goesOn hother honly hwalk
  rw [hrun]
  constructor
  · rintro ⟨-, hgone, -, -⟩
    rw [endState_ok, hchannels] at hgone
    exact hgone
  · intro hgone
    refine ⟨rfl, ?_, ?_, ?_⟩
    · rw [endState_ok, hchannels]
      exact hgone
    · rw [endState_ok, hchannels]
      exact hkept
    · intro cb hcb
      exact List.mem_append_left _ ((hreg.inv.bucket_perm callbackChannelQuit).mem_iff.mpr hcb)

theorem not_quitHandled_error {srv : Nat} {nick : Str} {e : Fault}
    {s' : Bot (QuitFunc ν) (Logged ν)} :
    ¬ QuitHandled reg w srv nick (.error e s') := by
  rintro ⟨hends, -, -, -⟩
  cases hends

/-! ### No channel is named by the reason -/

theorem quitHandled_null (hother : Harmless other) (hreg : Managed reg)
    (honly : ∀ cb ∈ bucket reg.indexList callbackCallbacksExecuted, cb.removesUser = false)
    (srv : Nat) (nick : Str) (rest : List Arg) :
    QuitHandled reg w srv nick (executeCallbacks (quitCall other) .str callbackChannelQuit
      (.null :: .str nick :: rest) ⟨reg, (w, [])⟩) ↔
      Unlisted w.channelList srv nick none ∧
        RemovesLast (bucket reg.indexList callbackChannelQuit) := by
  have hnodup := hreg.inv.index.bucket_nodup callbackChannelQuit
  have hperm := hreg.inv.bucket_perm callbackChannelQuit
  rcases removesUser_cases (bucket reg.indexList callbackChannelQuit) with
    hnone | ⟨pre, cb, post, horder, hpre, hcb⟩
  · obtain ⟨w', hwalk, hchannels⟩ :=
      walk_others hother (.null :: .str nick :: rest) hnone reg w []
    rw [quitHandled_goesOn hother hreg honly hwalk, hchannels]
    · exact ⟨fun h => ⟨h, removesLast_of_none hnone⟩, fun h => h.1⟩
    · intro i record hrecord _
      rw [hchannels]
      exact hrecord
  · -- `remove_user` answers BREAK: what comes after it is not invoked
    obtain ⟨w', hwalk, hchannels⟩ :=
      walk_others hother (.null :: .str nick :: rest) hpre reg w []
    have hbreak : quitCall other cb (.null :: .str nick :: rest)
        ⟨reg, (w', pre)⟩ = .ok bcircPluginBreak ⟨reg, (w', pre ++ [cb])⟩ := by
      rw [quitCall_removeUser hcb]
      rfl
    have hall : walk (quitCall other) (.null :: .str nick :: rest)
        (bucket reg.indexList callbackChannelQuit) ⟨reg, (w, [])⟩ =
        .ok (some bcircPluginFail) ⟨reg, (w', pre ++ [cb])⟩ := by
      rw [horder, walk_append_none hwalk, walk, List.nil_append, bind_ok hbreak, if_pos rfl]
      rfl
    rw [(quit_stops hother hall).2 _ _ rfl, horder, removesLast_iff hpre hcb]
    constructor
    · rintro ⟨-, hgone, -, hinvoked⟩
      rw [endState_ok] at hgone hinvoked
      rw [hchannels] at hgone
      refine ⟨hgone, ?_⟩
      by_contra hne
      obtain ⟨c, post, rfl⟩ := List.exists_cons_of_ne_nil hne
      have hmem : c ∈ bucket reg.indexList callbackChannelQuit := by
        rw [horder]
        simp
      have hlog := hinvoked c (hperm.mem_iff.mp hmem)
      rw [horder, List.append_cons, List.nodup_append] at hnodup
      exact hnodup.2.2 c hlog c List.mem_cons_self rfl
    · rintro ⟨hgone, rfl⟩
      refine ⟨rfl, ?_, ?_, ?_⟩
      · rw [endState_ok, hchannels]
        exact hgone
      · intro i record hrecord _
        rw [endState_ok, hchannels]
        exact hrecord
      · intro c hc
        rw [endState_ok, ← horder]
        exact hperm.mem_iff.mpr hc

/-! ### A channel is named by the reason -/

theorem unlisted_except {channelList : List Channel} {chan srv : Nat} {record : Channel}
    (hchan : channelList[chan]? = some record) (hsrv : record.srv = srv) (nick : Str) :
    Unlisted channelList srv nick none ↔
      Unlisted channelList srv nick (some chan) ∧ ¬ record.Lists nick := by
  constructor
  · intro h
    exact ⟨fun i r hr hrsrv _ => h i r hr hrsrv nofun, h chan record hchan hsrv nofun⟩
  · rintro ⟨hothers, hrecord⟩ i r hr hrsrv -
    by_cases hi : i = chan
    · rw [hi, hchan] at hr
      obtain rfl := Option.some.inj hr
      exact hrecord
    · exact hothers i r hr hrsrv fun heq => hi (Option.some.inj heq)

theorem unlisted_emptied (channelList : List Channel) (chan srv : Nat) (nick : Str) :
    Unlisted (channelList.modify chan fun c => { c with users := none }) srv nick none ↔
      Unlisted channelList srv nick (some chan) := by
  constructor
  · intro h i r hr hsrv hi
    have hne : chan ≠ i := fun heq => hi (congrArg some heq.symm)
    refine h i r ?_ hsrv nofun
    rw [List.getElem?_modify_ne _ _ hne]
    exact hr
  · intro h i r hr hsrv _ hlists
    by_cases hi : chan = i
    · subst hi
      rw [List.getElem?_modify_eq] at hr
      obtain ⟨record, -, rfl⟩ := Option.map_eq_some_iff.mp hr
      simp [Channel.Lists] at hlists
    · rw [List.getElem?_modify_ne _ _ hi] at hr
      exact h i r hr hsrv (fun heq => hi (Option.some.inj heq).symm) hlists

theorem modify_freed {channelList : List Channel} {chan : Nat} {record : Channel}
    (hchan : channelList[chan]? = some record) :
    (channelList.modify chan fun c => { c with users := none })[chan]? =
      some { record with users := none } := by
  rw [List.getElem?_modify_eq, hchan]
  rfl

/-- The only `remove_user` frees the list, the others are invoked. -/
theorem quitHandled_freed (hother : Harmless other) (hreg : Managed reg)
    (honly : ∀ cb ∈ bucket reg.indexList callbackCallbacksExecuted, cb.removesUser = false)
    {chan srv : Nat} {record : Channel} (hchan : w.channelList[chan]? = some record)
    (hsrv : record.srv = srv) {nick : Str} (hempty : record.Emptied nick) (rest : List Arg)
    {pre post : List (Callback (QuitFunc ν))} {cb : Callback (QuitFunc ν)}
    (horder : bucket reg.indexList callbackChannelQuit = pre ++ cb :: post)
    (hpre : ∀ c ∈ pre, c.removesUser = false) (hcb : cb.removesUser)
    (hpost : ∀ c ∈ post, c.removesUser = false) :
    QuitHandled reg w srv nick (executeCallbacks (quitCall other) .str callbackChannelQuit
      (.channel chan :: .str nick :: rest) ⟨reg, (w, [])⟩) ↔
      Unlisted w.channelList srv nick (some chan) := by
  obtain ⟨w₁, hchannels₁, hfirst⟩ := walk_frees hother hpre hcb hchan hempty post rest reg []
  rw [← horder] at hfirst
  obtain ⟨w₂, hwalk₂, hchannels₂⟩ := walk_others hother
    (.channel chan :: .str nick :: rest) hpost reg w₁ ([] ++ pre ++ [cb])
  have hall : walk (quitCall other) (.channel chan :: .str nick :: rest)
      (bucket reg.indexList callbackChannelQuit) ⟨reg, (w, [])⟩ =
      .ok none ⟨reg, (w₂, bucket reg.indexList callbackChannelQuit)⟩ := by
    rw [hfirst, hwalk₂, horder]
    simp
  have hchannels : w₂.channelList =
      w.channelList.modify chan fun c => { c with users := none } :=
    hchannels₂.trans hchannels₁
  rw [quitHandled_goesOn hother hreg honly hall, hchannels, unlisted_emptied]
  intro i r hr hne
  have hi : chan ≠ i := by
    rintro rfl
    rw [hchan] at hr
    obtain rfl := Option.some.inj hr
    exact hne hsrv
  rw [hchannels, List.getElem?_modify_ne _ _ hi]
  exact hr

/-- A second `remove_user` finds no list at all. -/
theorem not_quitHandled_twice (hother : Harmless other) {chan srv : Nat} {record : Channel}
    (hchan : w.channelList[chan]? = some record) {nick : Str} (hempty : record.Emptied nick)
    (rest : List Arg) {pre mid post : List (Callback (QuitFunc ν))}
    {cb cb' : Callback (QuitFunc ν)}
    (horder : bucket reg.indexList callbackChannelQuit = pre ++ cb :: (mid ++ cb' :: post))
    (hpre : ∀ c ∈ pre, c.removesUser = false) (hcb : cb.removesUser)
    (hmid : ∀ c ∈ mid, c.removesUser = false) (hcb' : cb'.removesUser) :
    ¬ QuitHandled reg w srv nick (executeCallbacks (quitCall other) .str callbackChannelQuit
      (.channel chan :: .str nick :: rest) ⟨reg, (w, [])⟩) := by
  obtain ⟨w₁, hchannels₁, hfirst⟩ :=
    walk_frees hother hpre hcb hchan hempty (mid ++ cb' :: post) rest reg []
  rw [← horder] at hfirst
  have hchan₁ : w₁.channelList[chan]? = some { record with users := none } := by
    rw [hchannels₁, modify_freed hchan]
  have hnot : ¬ ({ record with users := none } : Channel).Emptied nick := by
    rintro ⟨users, husers, -⟩
    cases husers
  obtain ⟨e, s', hsecond⟩ :=
    walk_faults hother hmid hcb' hchan₁ hnot post rest reg ([] ++ pre ++ [cb])
  rw [(quit_stops hother (hfirst.trans hsecond)).1 _ _ rfl]
  exact not_quitHandled_error

theorem quitHandled_chan (hother : Harmless other) (hreg : Managed reg)
    (honly : ∀ cb ∈ bucket reg.indexList callbackCallbacksExecuted, cb.removesUser = false)
    {chan srv : Nat} {record : Channel} (hchan : w.channelList[chan]? = some record)
    (hsrv : record.srv = srv) (nick : Str) (rest : List Arg) :
    QuitHandled reg w srv nick (executeCallbacks (quitCall other) .str callbackChannelQuit
      (.channel chan :: .str nick :: rest) ⟨reg, (w, [])⟩) ↔
      Unlisted w.channelList srv nick (some chan) ∧
        (((bucket reg.indexList callbackChannelQuit).filter (·.removesUser) = [] ∧
            ¬ record.Lists nick) ∨
          ((bucket reg.indexList callbackChannelQuit).filter (·.removesUser)).length = 1 ∧
            record.Emptied nick) := by
  rcases removesUser_cases (bucket reg.indexList callbackChannelQuit) with
    hnone | ⟨pre, cb, post, horder, hpre, hcb⟩
  · obtain ⟨w', hwalk, hchannels⟩ :=
      walk_others hother (.channel chan :: .str nick :: rest) hnone reg w []
    rw [quitHandled_goesOn hother hreg honly hwalk, hchannels, unlisted_except hchan hsrv,
      filter_removesUser_nil hnone]
    · simp
    · intro i r hr _
      rw [hchannels]
      exact hr
  have hfilter : (bucket reg.indexList callbackChannelQuit).filter (·.removesUser) =
      cb :: post.filter (·.removesUser) := by
    rw [horder, List.filter_append, filter_removesUser_nil hpre, List.nil_append,
      List.filter_cons_of_pos hcb]
  have hcons : ¬ cb :: post.filter (·.removesUser) = [] := List.cons_ne_nil _ _
  rw [hfilter]
  by_cases hempty : record.Emptied nick
  · rcases removesUser_cases post with hpost | ⟨mid, cb', post, rfl, hmid, hcb'⟩
    · rw [quitHandled_freed hother hreg honly hchan hsrv hempty rest horder hpre hcb hpost,
        filter_removesUser_nil hpost]
      simp [hempty]
    · refine iff_of_false
        (not_quitHandled_twice hother hchan hempty rest horder hpre hcb hmid hcb') ?_
      rintro ⟨-, ⟨hnil, -⟩ | ⟨hone, -⟩⟩
      · exact hcons hnil
      · rw [List.filter_append, List.filter_cons_of_pos hcb'] at hone
        simp at hone
  · obtain ⟨e, s', hfault⟩ := walk_faults hother hpre hcb hchan hempty post rest reg []
    rw [← horder] at hfault
    rw [(quit_stops hother hfault).1 _ _ rfl]
    refine iff_of_false not_quitHandled_error ?_
    rintro ⟨-, ⟨hnil, -⟩ | ⟨-, hemptied⟩⟩
    · exact hcons hnil
    · exact hempty hemptied

/-! ### Any line -/

/-- `server_recv` has room for less than 1024 bytes of a line. -/
theorem quitEvent_handled_iff (hother : Harmless other) (hreg : Managed reg)
    (honly : ∀ cb ∈ bucket reg.indexList callbackCallbacksExecuted, cb.removesUser = false)
    {srv : Nat} {record : Server} (hsrv : w.servers[srv]? = some record)
    (hwelcome : record.motdSent ≠ 0) {nick mask reason : Str} (hbang : 33 ∉ nick)
    (hnick : 32 ∉ nick) (hmask : 32 ∉ mask)
    (hlong : 20 ≤ (quitLine nick mask reason).length)
    (hshort : (quitLine nick mask reason).length < 1024) :
    ∃ args, QuitRaises w srv (quitLine nick mask reason) args ∧
      (QuitHandled reg w srv nick (executeCallbacks (quitCall other) .str callbackChannelQuit
          args ⟨reg, (w, [])⟩) ↔
        QuitWorks (bucket reg.indexList callbackChannelQuit) w.channelList srv nick reason) := by
  obtain ⟨r, hraises⟩ := getChanEvent_quit hsrv hwelcome hbang hnick hmask hlong hshort
  refine ⟨_, hraises, ?_⟩
  unfold QuitWorks
  cases hfind : lookup channelKey (reasonWord reason, srv) w.channelList with
  | none => exact quitHandled_null hother hreg honly srv nick _
  | some chan =>
      obtain ⟨found, hchan, hkey⟩ := lookup_some hfind
      have hrecord : ∀ P : Channel → Prop,
          (∀ record, w.channelList[chan]? = some record → P record) ↔ P found := by
        intro P
        refine ⟨fun h => h found hchan, fun h record hr => ?_⟩
        rw [hchan] at hr
        obtain rfl := Option.some.inj hr
        exact h
      simp only [hrecord fun record => ¬ record.Lists nick,
        hrecord fun record => record.Emptied nick]
      exact quitHandled_chan hother hreg honly hchan (congrArg Prod.snd hkey) nick _

end Dispatch

def idleOther : Unit → List Arg → World → Int × World := fun _ _ w => (bcircPluginOk, w)

theorem harmless_idleOther : Harmless idleOther where
  channels _ _ _ := rfl
  goesOn _ _ _ := show bcircPluginOk ≠ bcircPluginBreak by decide
  noStop _ _ _ := show bcircPluginOk ≠ bcircPluginStop by decide
  noFail _ _ _ := show bcircPluginOk ≠ bcircPluginFail by decide

/-- The channel handler, with a callback of another plugin before its own. -/
def quitRegistry : Registry (QuitFunc Unit) :=
  (loadPlugin (ascii "channelhandler.so")
    (some ⟨0, some (ascii "author"), some (ascii "name"), some (ascii "0.1"),
      some ⟨[⟨some callbackChannelQuit, some .removeUser, 10⟩,
        ⟨some callbackChannelQuit, some (.other ()), 0⟩], bcircPluginOk⟩⟩) initIndex).2

theorem managed_quitRegistry : Managed quitRegistry := Managed.init.load _ _ rfl

def welcomedServer : Server := { sampleServer with motdSent := 1 }

/-- A welcomed server with one channel. -/
def quitWorld (chanName users : Str) : World where
  __ := sampleWorld
  servers := [welcomedServer]
  channelList := [⟨chanName, none, none, none, 0, none, some users, 0⟩]

theorem quitWorld_server (chanName users : Str) :
    (quitWorld chanName users).servers[0]? = some welcomedServer := rfl

/-- The reason starts with the name of the only channel, as the record has it. -/
theorem quitEvent_handled_iff_sample :
    ∃ args, QuitRaises (quitWorld (ascii ":#c") (ascii "a nick")) 0
        (quitLine (ascii "nick") (ascii "user@host") (ascii "#c is dull")) args ∧
      QuitHandled quitRegistry (quitWorld (ascii ":#c") (ascii "a nick")) 0 (ascii "nick")
        (executeCallbacks (quitCall idleOther) .str callbackChannelQuit args
          ⟨quitRegistry, (quitWorld (ascii ":#c") (ascii "a nick"), [])⟩) := by
  have hworks : QuitWorks (bucket quitRegistry.indexList callbackChannelQuit)
      (quitWorld (ascii ":#c") (ascii "a nick")).channelList 0 (ascii "nick")
      (ascii "#c is dull") := by
    refine ⟨?_, Or.inr ⟨by decide +kernel, ?_⟩⟩
    · intro i record hrecord _ hi
      cases i with
      | zero => exact absurd rfl hi
      | succ i => cases hrecord
    · intro record hrecord
      cases hrecord
      exact ⟨ascii "a nick", rfl, Or.inr ⟨ascii "a", [ascii "nick"], by decide +kernel⟩⟩
  obtain ⟨args, hraises, hiff⟩ := quitEvent_handled_iff harmless_idleOther managed_quitRegistry
    (by decide +kernel) (quitWorld_server (ascii ":#c") (ascii "a nick")) (by decide)
    (show 33 ∉ ascii "nick" by decide) (by decide) (show 32 ∉ ascii "user@host" by decide)
    (show 20 ≤ (quitLine _ _ (ascii "#c is dull")).length by decide) (by decide)
  exact ⟨args, hraises, hiff.mpr hworks⟩

/-- An ordinary reason: the channel lists the nick as before. -/
theorem quitEvent_unhandled :
    ¬ ∀ (reg : Registry (QuitFunc Unit)) (w : World) (srv : Nat) (record : Server)
      (nick mask reason : Str) (args : List Arg), Managed reg → w.servers[srv]? = some record →
      record.motdSent ≠ 0 → 20 ≤ (quitLine nick mask reason).length →
      QuitRaises w srv (quitLine nick mask reason) args →
      QuitHandled reg w srv nick (executeCallbacks (quitCall idleOther) .str
        callbackChannelQuit args ⟨reg, (w, [])⟩) := by
  intro h
  obtain ⟨r, hraises⟩ := getChanEvent_quit
    (quitWorld_server (ascii "#c") (ascii "a nick")) (by decide)
    (show 33 ∉ ascii "nick" by decide) (by decide)
    (show 32 ∉ ascii "user@host" by decide)
    (show 20 ≤ (quitLine _ _ (ascii "gone")).length by decide) (by decide)
  have hhandled := h quitRegistry _ 0 _ _ _ _ _ managed_quitRegistry
    (quitWorld_server (ascii "#c") (ascii "a nick")) (by decide) (by decide) hraises
  have hnull : lookup channelKey (reasonWord (ascii "gone"), 0)
      (quitWorld (ascii "#c") (ascii "a nick")).channelList = none := by decide +kernel
  rw [hnull] at hhandled
  have hunlisted := ((quitHandled_null harmless_idleOther managed_quitRegistry
    (by decide +kernel) 0 (ascii "nick") _).mp hhandled).1
  have hlists := hunlisted 0 _ rfl rfl nofun
  revert hlists
  decide +kernel

end Bcirc
