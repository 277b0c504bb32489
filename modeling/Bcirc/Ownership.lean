import Bcirc.Raising
import Bcirc.ThreadSteps
import Bcirc.Tokens

/-!
# One thread for a server

A server is a token that the threads hand on (`Tokens`): every step gives it
to at most one of the threads that follow, and only its owner changes its
place in the pool. `Life.Inv` says so of a state, `Handover` of a step, and
every step of every thread is a `Handover`.
-/

namespace Bcirc

open CProg CStr Tokens Transition

/-! ## What a thread owns -/

def Thread.servers : Thread → List Nat
  | .recv srv => [srv]
  | .leave srv _ => [srv]
  | .rejoin srv _ => [srv]
  | .load srv _ rest => srv :: rest

/-- Between the removal and the addition. -/
def RejoinStep.away : RejoinStep → Bool
  | .connect | .register | .reopen | .add => true
  | _ => false

/-- After the addition. -/
def LoadStep.added : LoadStep → Bool
  | .start => true
  | _ => false

/-- `k`, a server of the thread, is in the pool. -/
def Thread.pooled : Thread → Nat → Bool
  | .rejoin _ step, _ => !step.away
  | .load srv step _, k => step.added && k == srv
  | _, _ => true

/-- `load_servers` has added `k`. -/
def Thread.hasAdded : Thread → Nat → Bool
  | .load srv step _, k => step.added && k == srv
  | _, _ => true

/-- Between `rejoin_tries++` and its reset. -/
def Thread.counted : Thread → Bool
  | .rejoin _ .remove | .rejoin _ .connect | .rejoin _ .register | .rejoin _ .reopen => true
  | _ => false

/-- `connect` has succeeded and no loop receives yet. -/
def Thread.fresh : Thread → Bool
  | .rejoin _ .register | .rejoin _ .reopen => true
  | _ => false

/-- What `t` knows of its server `k`. -/
structure Sound (s : Life) (t : Thread) (k : Nat) : Prop where
  pool : s.serverList.count k = if t.pooled k then 1 else 0
  added : k ∈ s.added ↔ t.hasAdded k = true
  tries : t.counted = false → ∀ record, s.bot.world.servers[k]? = some record →
    record.rejoinTries = 0
  fresh : t.fresh = true → (s.conns k).made = true ∧ (s.conns k).welcomed = false

/-! ## What a step leaves alone -/

/-- The pool and the count of `k`, apart from a reset. -/
structure Untouched (k : Nat) (s s' : Life) : Prop where
  count : s'.serverList.count k = s.serverList.count k
  added : k ∈ s'.added ↔ k ∈ s.added
  tries : ∀ record', s'.bot.world.servers[k]? = some record' →
    ∃ record, s.bot.world.servers[k]? = some record ∧
      (record'.rejoinTries = record.rejoinTries ∨ record'.rejoinTries = 0)

theorem Untouched.refl (k : Nat) (s : Life) : Untouched k s s :=
  ⟨rfl, Iff.rfl, fun record hrecord => ⟨record, hrecord, Or.inl rfl⟩⟩

theorem Untouched.trans {k : Nat} {s s' s'' : Life} (h : Untouched k s s')
    (h' : Untouched k s' s'') : Untouched k s s'' where
  count := h'.count.trans h.count
  added := h'.added.trans h.added
  tries := by
    intro record'' hrecord''
    obtain ⟨record', hrecord', hlast⟩ := h'.tries record'' hrecord''
    obtain ⟨record, hrecord, hfirst⟩ := h.tries record' hrecord'
    refine ⟨record, hrecord, ?_⟩
    rcases hlast with hsame | hreset
    · rw [hsame]
      exact hfirst
    · exact Or.inr hreset

theorem Untouched.tries_zero {k : Nat} {s s' : Life} (h : Untouched k s s')
    (hzero : ∀ record, s.bot.world.servers[k]? = some record → record.rejoinTries = 0) :
    ∀ record, s'.bot.world.servers[k]? = some record → record.rejoinTries = 0 := by
  intro record' hrecord'
  obtain ⟨record, hrecord, hsame | hreset⟩ := h.tries record' hrecord'
  · rw [hsame]
    exact hzero record hrecord
  · exact hreset

/-- A step that leaves `k` alone: what the next thread knows of it. -/
theorem Sound.next {s s' : Life} {t t' : Thread} {k : Nat} (h : Sound s t k)
    (hk : Untouched k s s') (hpooled : t'.pooled k = t.pooled k)
    (hadded : t'.hasAdded k = t.hasAdded k) (hcounted : t'.counted = false → t.counted = false)
    (hfresh : t'.fresh = true → (s'.conns k).made = true ∧ (s'.conns k).welcomed = false) :
    Sound s' t' k where
  pool := by
    rw [hk.count, h.pool, hpooled]
  added := by
    rw [hk.added, h.added, hadded]
  tries hcount := hk.tries_zero (h.tries (hcounted hcount))
  fresh := hfresh

theorem Raised.untouched {c : Cause} {s s' : Life} {started : List Thread}
    (h : Raised c s started s') (k : Nat) : Untouched k s s' := by
  have hrest := h.rest
  refine ⟨by rw [hrest], by rw [hrest], fun record' hrecord' => ?_⟩
  obtain ⟨record, hrecord, hlinked⟩ := effects_linked h.effects hrecord'
  exact ⟨record, hrecord, hlinked.tries⟩

theorem Raised.conns {c : Cause} {s s' : Life} {started : List Thread}
    (h : Raised c s started s') : s'.conns = s.conns := by
  rw [h.rest]

theorem untouched_setConn (k srv : Nat) (f : Conn → Conn) (s : Life) :
    Untouched k s (s.setConn srv f) :=
  ⟨rfl, Iff.rfl, fun record hrecord => ⟨record, hrecord, Or.inl rfl⟩⟩

theorem setConn_ne {k srv : Nat} (hne : k ≠ srv) (f : Conn → Conn) (s : Life) :
    (s.setConn srv f).conns k = s.conns k :=
  Function.update_of_ne hne _ _

theorem untouched_write {k srv : Nat} {f : Server → Server} {s s' : Life}
    (h : s.write srv f = some s')
    (hf : k = srv → ∀ r, (f r).rejoinTries = r.rejoinTries ∨ (f r).rejoinTries = 0) :
    Untouched k s s' := by
  obtain ⟨r, hr, rfl⟩ := write_some h
  refine ⟨rfl, Iff.rfl, fun record' hrecord' => ?_⟩
  have hmodify : (s.bot.world.servers.modify srv f)[k]? = some record' := hrecord'
  by_cases hk : k = srv
  · subst hk
    rw [List.getElem?_modify_eq] at hmodify
    obtain ⟨record, hrecord, rfl⟩ := Option.map_eq_some_iff.mp hmodify
    exact ⟨record, hrecord, hf rfl record⟩
  · rw [List.getElem?_modify_ne _ _ (Ne.symm hk)] at hmodify
    exact ⟨record', hmodify, Or.inl rfl⟩

theorem untouched_serverList {k : Nat} {s : Life} {serverList : List Nat}
    (h : serverList.count k = s.serverList.count k) :
    Untouched k s { s with serverList := serverList } :=
  ⟨h, Iff.rfl, fun record hrecord => ⟨record, hrecord, Or.inl rfl⟩⟩

theorem count_addToServerpool_ne {k srv : Nat} (hne : k ≠ srv) (serverList : List Nat) :
    (addToServerpool serverList srv).count k = serverList.count k := by
  rw [addToServerpool, List.count_append, List.count_singleton]
  simp [Ne.symm hne]

theorem count_addToServerpool_self (srv : Nat) (serverList : List Nat) :
    (addToServerpool serverList srv).count srv = serverList.count srv + 1 := by
  rw [addToServerpool, List.count_append, List.count_singleton_self]

theorem count_removeFromServerpool_ne {k srv : Nat} (hne : k ≠ srv) (serverList : List Nat) :
    (removeFromServerpool serverList srv).count k = serverList.count k := by
  rw [removeFromServerpool_eq]
  exact List.count_filter (by simpa using hne)

theorem count_removeFromServerpool_self (srv : Nat) (serverList : List Nat) :
    (removeFromServerpool serverList srv).count srv = 0 := by
  rw [removeFromServerpool_eq, List.count_eq_zero]
  simp

/-! ## Handing on -/

/-- A step of `t` that `new` goes on from. -/
structure Handover (s : Life) (t : Thread) (new : List Thread) (s' : Life) : Prop where
  wired : Wired s'.bot.reg
  owners : (new.flatMap Thread.servers).Subperm t.servers
  sound : Relies Thread.servers (Sound s') new
  left : ∀ k ∈ t.servers, (∀ t' ∈ new, k ∉ t'.servers) → k ∈ s'.added →
    s'.serverList.count k = 1
  others : ∀ k, k ∉ t.servers → Untouched k s s' ∧ s'.conns k = s.conns k

/-- The thread goes on. -/
theorem handover_on {s s' : Life} {t t' : Thread} (hwired : Wired s'.bot.reg)
    (hsame : t'.servers = t.servers) (hsound : ∀ k ∈ t.servers, Sound s' t' k)
    (hothers : ∀ k, k ∉ t.servers → Untouched k s s' ∧ s'.conns k = s.conns k) :
    Handover s t [t'] s' where
  wired := hwired
  owners := by
    rw [List.flatMap_singleton, hsame]
  sound := by
    intro t₁ ht₁ k hk
    obtain rfl := List.mem_singleton.mp ht₁
    exact hsound k (hsame ▸ hk)
  left k hk hnone := absurd (hsame ▸ hk) (hnone t' (List.mem_singleton.mpr rfl))
  others := hothers

/-- The thread ends. -/
theorem handover_end {s s' : Life} {t : Thread} (hwired : Wired s'.bot.reg)
    (hleft : ∀ k ∈ t.servers, k ∈ s'.added → s'.serverList.count k = 1)
    (hothers : ∀ k, k ∉ t.servers → Untouched k s s' ∧ s'.conns k = s.conns k) :
    Handover s t [] s' where
  wired := hwired
  owners := List.nil_subperm
  sound := fun _ hnone => absurd hnone List.not_mem_nil
  left k hk _ := hleft k hk
  others := hothers

/-- The same for a thread with one server. -/
theorem handover_one {s s' : Life} {t t' : Thread} {srv : Nat} (hwired : Wired s'.bot.reg)
    (ht : t.servers = [srv]) (ht' : t'.servers = [srv]) (hsound : Sound s' t' srv)
    (hothers : ∀ k, k ≠ srv → Untouched k s s' ∧ s'.conns k = s.conns k) :
    Handover s t [t'] s' := by
  refine handover_on hwired (ht'.trans ht.symm) (fun k hk => ?_) fun k hk => hothers k ?_
  · rw [ht] at hk
    obtain rfl := List.mem_singleton.mp hk
    exact hsound
  · rw [ht] at hk
    exact fun heq => hk (List.mem_singleton.mpr heq)

theorem handover_gone {s s' : Life} {t : Thread} {srv : Nat} (hwired : Wired s'.bot.reg)
    (ht : t.servers = [srv]) (hleft : s'.serverList.count srv = 1)
    (hothers : ∀ k, k ≠ srv → Untouched k s s' ∧ s'.conns k = s.conns k) :
    Handover s t [] s' := by
  refine handover_end hwired (fun k hk _ => ?_) fun k hk => hothers k ?_
  · rw [ht] at hk
    obtain rfl := List.mem_singleton.mp hk
    exact hleft
  · rw [ht] at hk
    exact fun heq => hk (List.mem_singleton.mpr heq)

/-! ## The steps -/

section Steps

variable {lib : TitleLib} {depth srv : Nat} {s s' : Life} {o : Outcome} {new : List Thread}

theorem others_setConn (f : Conn → Conn) (s : Life) (k : Nat) (hk : k ≠ srv) :
    Untouched k s (s.setConn srv f) ∧ (s.setConn srv f).conns k = s.conns k :=
  ⟨untouched_setConn k srv f s, setConn_ne hk f s⟩

theorem Raised.others {c : Cause} {started : List Thread} (h : Raised c s started s') (k : Nat) :
    Untouched k s s' ∧ s'.conns k = s.conns k :=
  ⟨h.untouched k, by rw [h.conns]⟩

theorem handover_serverRecv (hwired : Wired s.bot.reg) (hsound : Sound s (.recv srv) srv)
    (h : Thread.Steps lib depth s (.recv srv) o new s') : Handover s (.recv srv) new s' := by
  cases h with
  | line h =>
      obtain ⟨hraised, rfl⟩ := step_line hwired h
      have huntouched : ∀ k, Untouched k s s' := fun k =>
        (untouched_setConn k srv _ s).trans (hraised.untouched k)
      refine handover_one hraised.wired rfl rfl ?_ fun k hk => ⟨huntouched k, ?_⟩
      · exact hsound.next (huntouched srv) rfl rfl (fun h => h) nofun
      · rw [hraised.conns]
        exact setConn_ne hk _ s
  | selectFails => exact handover_gone hwired rfl hsound.pool fun k _ => ⟨.refl k s, rfl⟩
  | timeout | closed =>
      refine handover_one hwired rfl rfl ?_ (others_setConn _ s)
      exact hsound.next (untouched_setConn srv srv _ s) rfl rfl (fun h => h) nofun

/-- The loop is gone; `try_rejoin` has the server, or nobody. -/
theorem handover_leave {reason : Int} (hwired : Wired s.bot.reg)
    (hsound : Sound s (.leave srv reason) srv)
    (h : Thread.Steps lib depth s (.leave srv reason) o new s') :
    Handover s (.leave srv reason) new s' := by
  cases h with
  | disconnect h =>
      obtain ⟨hraised, hnone | hone⟩ := step_leave hwired h
      · subst hnone
        refine handover_gone hraised.wired rfl ?_ fun k _ => hraised.others k
        rw [(hraised.untouched srv).count]
        exact hsound.pool
      · subst hone
        refine handover_one hraised.wired rfl rfl ?_ fun k _ => hraised.others k
        exact hsound.next (hraised.untouched srv) rfl rfl (fun h => h) nofun

theorem connected_some (h : s.connected srv = some s') :
    ∃ s₁, s.write srv (fun record => { record with motdSent := 0 }) = some s₁ ∧
      s' = s₁.setConn srv (Conn.opened s₁.clock) := by
  obtain ⟨s₁, hwrite, rfl⟩ := Option.map_eq_some_iff.mp h
  exact ⟨s₁, hwrite, rfl⟩

theorem write_reg {f : Server → Server} (h : s.write srv f = some s') :
    s'.bot.reg = s.bot.reg ∧ s'.conns = s.conns ∧ s'.serverList = s.serverList ∧
      s'.added = s.added := by
  obtain ⟨r, -, rfl⟩ := write_some h
  exact ⟨rfl, rfl, rfl, rfl⟩

theorem untouched_connected (h : s.connected srv = some s') (k : Nat) : Untouched k s s' := by
  obtain ⟨s₁, hwrite, rfl⟩ := connected_some h
  exact (untouched_write hwrite fun _ r => Or.inl rfl).trans (untouched_setConn k srv _ s₁)

theorem wired_connected (hwired : Wired s.bot.reg) (h : s.connected srv = some s') :
    Wired s'.bot.reg := by
  obtain ⟨s₁, hwrite, rfl⟩ := connected_some h
  exact (write_reg hwrite).1 ▸ hwired

theorem conns_connected (h : s.connected srv = some s') :
    s'.conns srv = (s.conns srv).opened s.clock ∧ ∀ k, k ≠ srv → s'.conns k = s.conns k := by
  obtain ⟨s₁, hwrite, rfl⟩ := connected_some h
  obtain ⟨r, -, rfl⟩ := write_some hwrite
  exact ⟨Function.update_self _ _ _, fun k hk => Function.update_of_ne hk _ _⟩

/-- The record after `rejoin_tries` was set to 0 in it. -/
theorem tries_reopen (h : s.write srv (fun record =>
    { record with motdSent := 1, rejoinTries := 0 }) = some s') :
    ∀ record, s'.bot.world.servers[srv]? = some record → record.rejoinTries = 0 := by
  obtain ⟨r, -, rfl⟩ := write_some h
  intro record hrecord
  have hmodify : (s.bot.world.servers.modify srv _)[srv]? = some record := hrecord
  rw [List.getElem?_modify_eq] at hmodify
  obtain ⟨r', -, rfl⟩ := Option.map_eq_some_iff.mp hmodify
  rfl

/-- `try_rejoin` writes to the record of its server and goes on. -/
theorem handover_write {step step' : RejoinStep} {f : Server → Server}
    (hwired : Wired s.bot.reg) (hsound : Sound s (.rejoin srv step) srv)
    (hwrite : s.write srv f = some s') (haway : step'.away = step.away)
    (htries : (Thread.rejoin srv step').counted = false →
      ∀ record, s'.bot.world.servers[srv]? = some record → record.rejoinTries = 0)
    (hfresh : (Thread.rejoin srv step').fresh = false) :
    Handover s (.rejoin srv step) [.rejoin srv step'] s' := by
  obtain ⟨hreg, hconns, hlist, hadded⟩ := write_reg hwrite
  refine handover_one (hreg ▸ hwired) rfl rfl ?_ fun k hk =>
    ⟨untouched_write hwrite fun heq => absurd heq hk, by rw [hconns]⟩
  exact
    { pool := by
        have hpooled : (Thread.rejoin srv step').pooled srv =
            (Thread.rejoin srv step).pooled srv := congrArg (!·) haway
        rw [hlist, hpooled]
        exact hsound.pool
      added := by
        rw [hadded]
        exact hsound.added
      tries := htries
      fresh := fun h => by
        rw [hfresh] at h
        cases h }

theorem handover_tryRejoin {step : RejoinStep} (hwired : Wired s.bot.reg)
    (hsound : Sound s (.rejoin srv step) srv)
    (h : Thread.Steps lib depth s (.rejoin srv step) o new s') :
    Handover s (.rejoin srv step) new s' := by
  cases h with
  | readClock _ =>
      exact handover_one hwired rfl rfl (hsound.next (.refl srv s) rfl rfl (fun h => h) nofun)
        fun k _ => ⟨.refl k s, rfl⟩
  | wake _ hwrite => exact handover_write hwired hsound hwrite rfl nofun rfl
  | remove =>
      refine handover_one hwired rfl rfl ?_ fun k hk =>
        ⟨untouched_serverList (count_removeFromServerpool_ne hk _), rfl⟩
      exact
        { pool := count_removeFromServerpool_self srv _
          added := hsound.added
          tries := nofun
          fresh := nofun }
  | rejoinFails => exact handover_one hwired rfl rfl hsound fun k _ => ⟨.refl k s, rfl⟩
  | rejoined hconnected =>
      obtain ⟨hconn, hconns⟩ := conns_connected hconnected
      refine handover_one (wired_connected hwired hconnected) rfl rfl ?_ fun k hk =>
        ⟨untouched_connected hconnected k, hconns k hk⟩
      refine hsound.next (untouched_connected hconnected srv) rfl rfl (fun h => h) fun _ => ?_
      rw [hconn]
      exact ⟨rfl, rfl⟩
  | rejoinRegister h =>
      obtain ⟨hraised, rfl⟩ := step_register hwired h
      refine handover_one hraised.wired rfl rfl ?_ fun k _ => hraised.others k
      refine hsound.next (hraised.untouched srv) rfl rfl (fun h => h) fun _ => ?_
      rw [hraised.conns]
      exact hsound.fresh rfl
  | reopen hwrite =>
      exact handover_write hwired hsound hwrite rfl (fun _ => tries_reopen hwrite) rfl
  | addAgain =>
      refine handover_one hwired rfl rfl ?_ fun k hk =>
        ⟨untouched_serverList (count_addToServerpool_ne hk _), rfl⟩
      exact
        { pool := by
            show (addToServerpool s.serverList srv).count srv = 1
            rw [count_addToServerpool_self, hsound.pool]
            rfl
          added := hsound.added
          tries := hsound.tries
          fresh := nofun }
  -- the receive thread, started or not
  | startAgain =>
      exact handover_one hwired rfl rfl (hsound.next (.refl srv s) rfl rfl (fun h => h) nofun)
        fun k _ => ⟨.refl k s, rfl⟩
  | startAgainFails => exact handover_gone hwired rfl hsound.pool fun k _ => ⟨.refl k s, rfl⟩

theorem untouched_added {k : Nat} (hne : k ≠ srv) (s : Life) :
    Untouched k s { s.addServer srv with added := s.added ++ [srv] } where
  count := count_addToServerpool_ne hne _
  added := by
    rw [List.mem_append, List.mem_singleton, or_iff_left hne]
  tries record hrecord := ⟨record, hrecord, Or.inl rfl⟩

/-- The servers that `load_servers` has not come to. -/
theorem relies_loadNext {rest : List Nat} {step : LoadStep}
    (hsound : ∀ k ∈ rest, Sound s (.load srv step rest) k) (hsrv : srv ∉ rest) :
    Relies Thread.servers (Sound s) (loadNext rest) := by
  intro t ht k hk
  cases rest with
  | nil => cases ht
  | cons next rest =>
      obtain rfl := List.mem_singleton.mp ht
      have hne : (k == srv) = false := by
        simpa using fun heq : k = srv => hsrv (heq ▸ hk)
      have hbefore : (step.added && k == srv) = false := by
        rw [hne]
        exact Bool.and_false _
      exact (hsound k hk).next (.refl k s) hbefore.symm hbefore.symm (fun h => h) nofun

theorem servers_loadNext (rest : List Nat) : (loadNext rest).flatMap Thread.servers = rest := by
  cases rest with
  | nil => rfl
  | cons srv rest => exact List.append_nil _

theorem not_owned_loadNext {rest : List Nat} {k : Nat}
    (hnone : ∀ t ∈ loadNext rest, k ∉ t.servers) : k ∉ rest := by
  rw [← servers_loadNext rest]
  intro hk
  obtain ⟨t, ht, hkt⟩ := List.mem_flatMap.mp hk
  exact hnone t ht hkt

theorem start_hasAdded (srv : Nat) (rest : List Nat) :
    (Thread.load srv .start rest).hasAdded srv = true :=
  beq_self_eq_true srv

theorem start_hasAdded_ne {k : Nat} (hne : k ≠ srv) :
    (LoadStep.start.added && k == srv) = false := by
  simpa [LoadStep.added] using hne

theorem handover_add {rest : List Nat} (hwired : Wired s.bot.reg)
    (hsound : ∀ k ∈ srv :: rest, Sound s (.load srv .add rest) k) :
    Handover s (.load srv .add rest) [.load srv .start rest]
      { s.addServer srv with added := s.added ++ [srv] } := by
  refine handover_on hwired rfl (fun k hk => ?_) fun k hk => ?_
  · by_cases hne : k = srv
    · subst hne
      have hself := hsound k List.mem_cons_self
      exact
        { pool := by
            show (addToServerpool s.serverList k).count k = _
            rw [count_addToServerpool_self, hself.pool]
            exact (if_pos (start_hasAdded k rest)).symm
          added := iff_of_true (List.mem_append_right _ List.mem_cons_self)
            (start_hasAdded k rest)
          tries := hself.tries
          fresh := nofun }
    · exact (hsound k hk).next (untouched_added hne s) (start_hasAdded_ne hne)
        (start_hasAdded_ne hne) (fun h => h) nofun
  · have hne : k ≠ srv := fun heq => hk (heq ▸ List.mem_cons_self)
    exact ⟨untouched_added hne s, rfl⟩

section Start

variable {rest : List Nat} (hwired : Wired s.bot.reg) (hsrv : srv ∉ rest)
  (hsound : ∀ k ∈ srv :: rest, Sound s (.load srv .start rest) k)

include hwired hsrv hsound

theorem handover_started :
    Handover s (.load srv .start rest) (.recv srv :: loadNext rest) s where
  wired := hwired
  owners := by
    rw [List.flatMap_cons, servers_loadNext]
    exact List.Subperm.refl _
  sound := by
    intro t ht k hk
    rcases List.mem_cons.mp ht with rfl | ht
    · obtain rfl := List.mem_singleton.mp hk
      exact (hsound k List.mem_cons_self).next (.refl k s) (start_hasAdded k rest).symm
        (start_hasAdded k rest).symm (fun h => h) nofun
    · exact relies_loadNext (fun k hk => hsound k (List.mem_cons_of_mem _ hk)) hsrv t ht k hk
  left := by
    intro k hk hnone
    obtain ⟨hne, hloop⟩ := List.forall_mem_cons.mp hnone
    rcases List.mem_cons.mp hk with rfl | hk
    · exact absurd (List.mem_singleton.mpr rfl) hne
    · exact absurd hk (not_owned_loadNext hloop)
  others k _ := ⟨.refl k s, rfl⟩

/-- `pthread_create` has failed: the server stays in the pool, with nobody to receive. -/
theorem handover_unstarted : Handover s (.load srv .start rest) (loadNext rest) s where
  wired := hwired
  owners := by
    rw [servers_loadNext]
    exact (List.sublist_cons_self srv rest).subperm
  sound := relies_loadNext (fun k hk => hsound k (List.mem_cons_of_mem _ hk)) hsrv
  left := by
    intro k hk hloop _
    rcases List.mem_cons.mp hk with rfl | hk
    · rw [(hsound k List.mem_cons_self).pool]
      exact if_pos (start_hasAdded k rest)
    · exact absurd hk (not_owned_loadNext hloop)
  others k _ := ⟨.refl k s, rfl⟩

end Start

theorem handover_loadServers {step : LoadStep} {rest : List Nat} (hwired : Wired s.bot.reg)
    (hnodup : (srv :: rest).Nodup)
    (hsound : ∀ k ∈ srv :: rest, Sound s (.load srv step rest) k)
    (h : Thread.Steps lib depth s (.load srv step rest) o new s') :
    Handover s (.load srv step rest) new s' := by
  have hsrv : srv ∉ rest := (List.nodup_cons.mp hnodup).1
  cases h with
  | loadFails =>
      refine handover_end hwired (fun k hk hadded => ?_) fun k _ => ⟨.refl k s, rfl⟩
      exact absurd ((hsound k hk).added.mp hadded) Bool.false_ne_true
  | loaded hconnected =>
      refine handover_on (wired_connected hwired hconnected) rfl (fun k hk => ?_) fun k hk =>
        ⟨untouched_connected hconnected k,
          (conns_connected hconnected).2 k fun heq => hk (heq ▸ List.mem_cons_self)⟩
      exact (hsound k hk).next (untouched_connected hconnected k) rfl rfl (fun h => h) nofun
  | loadRegister h =>
      obtain ⟨hraised, rfl⟩ := step_register hwired h
      refine handover_on hraised.wired rfl (fun k hk => ?_) fun k _ => hraised.others k
      exact (hsound k hk).next (hraised.untouched k) rfl rfl (fun h => h) nofun
  | add => exact handover_add hwired hsound
  | start => exact handover_started hwired hsrv hsound
  | startFails => exact handover_unstarted hwired hsrv hsound

theorem handover_step {t : Thread} (hwired : Wired s.bot.reg) (hnodup : t.servers.Nodup)
    (hsound : ∀ k ∈ t.servers, Sound s t k) (h : t.step lib depth o s = some (new, s')) :
    Handover s t new s' := by
  have hsteps := steps_of_step h
  cases t with
  | recv srv => exact handover_serverRecv hwired (hsound srv List.mem_cons_self) hsteps
  | leave srv reason => exact handover_leave hwired (hsound srv List.mem_cons_self) hsteps
  | rejoin srv step => exact handover_tryRejoin hwired (hsound srv List.mem_cons_self) hsteps
  | load srv step rest => exact handover_loadServers hwired hnodup hsound hsteps

end Steps

/-! ## Every run -/

structure Life.Inv (s : Life) : Prop where
  wired : Wired s.bot.reg
  excl : Exclusive Thread.servers s.threads
  sound : Relies Thread.servers (Sound s) s.threads
  left : ∀ k ∈ s.added, (∀ t ∈ s.threads, k ∉ t.servers) → s.serverList.count k = 1

theorem Life.Inv.boot {loads : List Load} {w : World} {servers : List Nat}
    (h : Boots loads w servers) : Life.Inv (Life.boot loads w servers) where
  wired := wired_loadPlugins h.core
  excl := by
    show ((loadNext servers).flatMap Thread.servers).Nodup
    rw [servers_loadNext]
    exact h.nodup
  sound := by
    intro t ht k hk
    cases servers with
    | nil => cases ht
    | cons srv rest =>
        obtain rfl := List.mem_singleton.mp ht
        exact
          { pool := rfl
            added := by simp [Life.boot, Thread.hasAdded, LoadStep.added]
            tries := fun _ record hrecord => h.tries record (List.mem_of_getElem? hrecord)
            fresh := nofun }
  left k hk := absurd hk List.not_mem_nil

theorem Sound.threads {s : Life} {t : Thread} {k : Nat} (h : Sound s t k)
    (threads : List Thread) : Sound { s with threads := threads } t k :=
  ⟨h.pool, h.added, h.tries, h.fresh⟩

theorem Untouched.threads {k : Nat} {s s' : Life} (h : Untouched k s s')
    (threads : List Thread) : Untouched k s { s' with threads := threads } :=
  ⟨h.count, h.added, h.tries⟩

theorem Life.Inv.handover {s s' : Life} {t : Thread} {new : List Thread} (h : Life.Inv s)
    (ht : t ∈ s.threads) (hstep : Handover s t new s') :
    Life.Inv { s' with threads := new ++ s.threads.erase t } where
  wired := hstep.wired
  excl := h.excl.replace ht hstep.owners
  sound := by
    have hnew : Relies Thread.servers
        (Sound { s' with threads := new ++ s.threads.erase t }) new :=
      fun t' ht' k hk => (hstep.sound t' ht' k hk).threads _
    refine h.sound.replace h.excl ht hnew fun t' k hk hsound => ?_
    obtain ⟨huntouched, hconn⟩ := hstep.others k hk
    exact hsound.next (huntouched.threads _) rfl rfl (fun h => h) fun hfresh =>
      hconn ▸ hsound.fresh hfresh
  left := by
    intro k hadded hnone
    obtain ⟨hnew, hold⟩ := List.forall_mem_append.mp hnone
    by_cases hk : k ∈ t.servers
    · exact hstep.left k hk hnew hadded
    · obtain ⟨huntouched, -⟩ := hstep.others k hk
      refine huntouched.count.trans (h.left k (huntouched.added.mp hadded) fun t' ht' => ?_)
      by_cases heq : t' = t
      · exact heq ▸ hk
      · exact hold t' ((List.mem_erase_of_ne heq).mpr ht')

theorem Life.Inv.next {lib : TitleLib} {depth : Nat} {s s' : Life} {e : LifeEvent}
    (h : Life.Inv s) (hnext : s.next lib depth e = some s') : Life.Inv s' := by
  cases e with
  | tick seconds =>
      cases hnext
      exact ⟨h.wired, h.excl, fun t ht k hk => (h.sound t ht k hk).next
        ⟨rfl, Iff.rfl, fun r hr => ⟨r, hr, Or.inl rfl⟩⟩ rfl rfl (fun h => h)
        (h.sound t ht k hk).fresh, h.left⟩
  | act t o =>
      obtain ⟨ht, new, s₁, hstep, rfl⟩ := next_act hnext
      exact h.handover ht (handover_step h.wired (h.excl.nodup_owns ht) (h.sound t ht) hstep)

theorem Life.Inv.initial {s : Life} (h : s.Initial) : Life.Inv s := by
  obtain ⟨loads, w, servers, hboots, rfl⟩ := h
  exact Life.Inv.boot hboots

theorem Life.Inv.reach {lib : TitleLib} {depth : Nat} {s : Life}
    (h : Reach Life.Initial (someEvent (Life.next lib depth)) s) : Life.Inv s := by
  refine h.invariant (fun s hs => .initial hs) fun s s' hs hstep => ?_
  obtain ⟨e, hnext⟩ := hstep
  exact hs.next hnext

/-- A loop that receives from `srv`, or a pending `try_rejoin` for it. -/
def Thread.works (srv : Nat) : Thread → Bool
  | .recv s => s == srv
  | .rejoin s _ => s == srv
  | _ => false

theorem Thread.works_servers {srv : Nat} {t : Thread} (h : t.works srv = true) :
    srv ∈ t.servers := by
  cases t with
  | recv s => exact List.mem_singleton.mpr (beq_iff_eq.mp h).symm
  | rejoin s step => exact List.mem_singleton.mpr (beq_iff_eq.mp h).symm
  | leave s reason => cases h
  | load s step rest => cases h

/-- A server that was added has one thread at work at most, and its place in
the pool is empty only while its `try_rejoin` keeps it out. -/
theorem one_owner (lib : TitleLib) (depth : Nat) {s : Life}
    (h : Reach Life.Initial (someEvent (Life.next lib depth)) s) (srv : Nat) :
    s.threads.countP (·.works srv) ≤ 1 ∧
      (srv ∈ s.added →
        (∀ step, .rejoin srv step ∈ s.threads → step.away = true → s.serverList.count srv = 0) ∧
        ((∀ step, .rejoin srv step ∈ s.threads → step.away = false) →
          s.serverList.count srv = 1)) := by
  have hinv := Life.Inv.reach h
  refine ⟨hinv.excl.countP_le_one fun t _ ht => Thread.works_servers ht, fun hadded => ⟨?_, ?_⟩⟩
  · intro step hstep haway
    rw [(hinv.sound _ hstep srv List.mem_cons_self).pool]
    simp [Thread.pooled, haway]
  · intro hnone
    by_cases howner : ∃ t ∈ s.threads, srv ∈ t.servers
    · obtain ⟨t, ht, hsrv⟩ := howner
      have hsound := hinv.sound t ht srv hsrv
      rw [hsound.pool]
      have hpooled : t.pooled srv = true := by
        cases t with
        | recv k => rfl
        | leave k reason => rfl
        | rejoin k step =>
            obtain rfl := List.mem_singleton.mp hsrv
            simp [Thread.pooled, hnone step ht]
        | load k step rest => exact hsound.added.mp hadded
      exact if_pos hpooled
    · exact hinv.left srv hadded fun t ht hsrv => howner ⟨t, ht, hsrv⟩

theorem one_owner_sample :
    let s := sampleLife (sampleLoading ++ sampleLoss ++ sampleRejoin.take 3)
    0 ∈ s.added ∧ s.threads = [.rejoin 0 .connect] ∧ s.threads.countP (·.works 0) ≤ 1 ∧
      s.serverList.count 0 = 0 := by
  intro s
  have hadded : 0 ∈ s.added := by decide +kernel
  have hthreads : s.threads = [.rejoin 0 .connect] := by decide +kernel
  have hreach : Reach Life.Initial (someEvent (Life.next sampleLib 3)) s :=
    sampleLife_reach (by decide +kernel)
  obtain ⟨hone, hpool⟩ := one_owner sampleLib 3 hreach 0
  refine ⟨hadded, hthreads, hone, (hpool hadded).1 .connect ?_ rfl⟩
  show Thread.rejoin 0 .connect ∈ s.threads
  rw [hthreads]
  exact List.mem_cons_self

end Bcirc
