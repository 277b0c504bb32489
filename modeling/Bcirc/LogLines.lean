import Bcirc.ChanEvents
import Bcirc.LogEvents

/-!
# From a received line to the log

A line is escaped as a whole when it is received, and what is cut out of it
at bytes other than `%` is escaped text again (`evenRunsFrom_cut`). So a JOIN or
a PART as it was sent can be followed to the log: through the escape, the
tokens of `get_chan_event` and the callback of the logger.
-/

namespace Bcirc

open CProg CStr CFormat KeyedList

/-! ## Pieces of an escaped line -/

/-- A byte that is not escaped cuts the text where it cut the raw text. -/
theorem evenRunsFrom_cut {k : Nat} {s a b : Str} {c : UInt8} (hc : c ≠ percent)
    (h : evenRunsFrom k s = a ++ c :: b) :
    ∃ s₁ s₂, s = s₁ ++ c :: s₂ ∧ a = evenRunsFrom k s₁ ∧ b = evenRuns s₂ := by
  have hrun : ∀ {n : Nat} {t t' : Str}, List.replicate n percent ≠ t ++ c :: t' := by
    intro n t t' heq
    have hmem : c ∈ List.replicate n percent := by
      rw [heq]
      exact List.mem_append_right t List.mem_cons_self
    exact hc (List.mem_replicate.mp hmem).2
  induction s generalizing k a with
  | nil => exact absurd h hrun
  | cons d s ih =>
      by_cases hd : d = percent
      · rw [evenRunsFrom, if_pos hd] at h
        obtain ⟨s₁, s₂, rfl, rfl, rfl⟩ := ih h
        exact ⟨d :: s₁, s₂, rfl, by rw [evenRunsFrom, if_pos hd], rfl⟩
      · rw [evenRunsFrom, if_neg hd] at h
        rcases List.append_eq_append_iff.mp h with ⟨a', rfl, hrest⟩ | ⟨c', hreplicate, hrest⟩
        · cases a' with
          | nil =>
              obtain ⟨rfl, rfl⟩ := List.cons.inj hrest
              exact ⟨[], s, rfl, List.append_nil _, rfl⟩
          | cons e a' =>
              obtain ⟨rfl, hs⟩ := List.cons.inj hrest
              obtain ⟨s₁, s₂, rfl, rfl, rfl⟩ := ih hs
              exact ⟨d :: s₁, s₂, rfl, by rw [evenRunsFrom, if_neg hd], rfl⟩
        · cases c' with
          | nil =>
              obtain ⟨rfl, rfl⟩ := List.cons.inj hrest
              rw [List.append_nil] at hreplicate
              exact ⟨[], s, rfl, hreplicate.symm, rfl⟩
          | cons e c' =>
              obtain ⟨rfl, -⟩ := List.cons.inj hrest
              exact absurd hreplicate hrun

theorem mem_evenRuns_iff {c : UInt8} (hc : c ≠ percent) (s : Str) : c ∈ evenRuns s ↔ c ∈ s := by
  have hkept : ∀ t : Str, c ∈ t.filter (· ≠ percent) ↔ c ∈ t := fun t => by
    simpa using fun _ => hc
  rw [← hkept, filter_evenRuns, hkept]

/-- The reason loses its last blank before or after the escape. -/
theorem deliveredReason_evenRuns (reason : Str) :
    deliveredReason (evenRuns reason) = evenRuns (deliveredReason reason) := by
  have h32 : (32 : UInt8) ≠ percent := by decide
  by_cases hreason : reason.getLast? = some 32 ∧ 32 ∉ reason.dropLast
  · have hcut : evenRuns reason = evenRuns reason.dropLast ++ [32] := by
      conv_lhs => rw [← List.dropLast_append_getLast? _ hreason.1]
      rw [evenRuns_append_cons _ h32, evenRuns_nil]
    have hdrop : (evenRuns reason).dropLast = evenRuns reason.dropLast := by
      rw [hcut, List.dropLast_concat]
    have hescaped : (evenRuns reason).getLast? = some 32 ∧ 32 ∉ (evenRuns reason).dropLast := by
      rw [hdrop, mem_evenRuns_iff h32]
      exact ⟨by rw [hcut, List.getLast?_concat], hreason.2⟩
    unfold deliveredReason
    rw [if_pos hreason, if_pos hescaped, hdrop]
  · unfold deliveredReason
    rw [if_neg hreason, if_neg]
    rintro ⟨hlast, hfree⟩
    obtain ⟨s₁, s₂, rfl, hbefore, hafter⟩ :=
      evenRunsFrom_cut h32 (List.dropLast_append_getLast? _ hlast).symm
    obtain rfl : s₂ = [] := by
      by_contra hne
      exact evenRuns_ne_nil hne hafter.symm
    refine hreason ⟨List.getLast?_concat, ?_⟩
    rw [List.dropLast_concat, ← mem_evenRuns_iff h32]
    rw [hbefore] at hfree
    exact hfree

/-! ## JOIN and PART -/

/-- The line in the log for what somebody does with the channel `c`, with
the runs of `%` halved. -/
def Membership.logText (network nick c : Str) : Membership → Str
  | .join => ascii "User " ++ (halfRuns nick ++ (ascii " joined channel " ++
      (halfRuns network ++ (ascii "." ++ (halfRuns c ++ ascii "\n")))))
  | .part reason => ascii "User " ++ (halfRuns nick ++ (ascii " left channel " ++
      (halfRuns network ++ (ascii "." ++ (halfRuns c ++ (ascii "(" ++
        (halfRuns (deliveredReason reason) ++ ascii ")\n")))))))
  | .invite _ => []

/-- The logger has no callback for an INVITE. -/
def Membership.callback (records : World) (depth : Nat) (params : List Arg) :
    Membership → Prog LogWorld Int
  | .join => logJoin records depth params
  | .part _ => logPart records depth params
  | .invite _ => pure bcircPluginOk

/-- The same with every text escaped. -/
def Membership.escaped : Membership → Membership
  | .join => .join
  | .part reason => .part (evenRuns reason)
  | .invite invited => .invite (evenRuns invited)

theorem evenRuns_sourcedLine (nick mask c : Str) (m : Membership) :
    evenRuns (sourcedLine nick mask m.event (m.params c)) =
      sourcedLine (evenRuns nick) (evenRuns mask) m.escaped.event
        (m.escaped.params (evenRuns c)) := by
  have hword : ∀ event : ChanEvent, percent ∉ event.word := by
    intro event
    cases event <;> decide
  have h32 : (32 : UInt8) ≠ percent := by decide
  have h33 : (33 : UInt8) ≠ percent := by decide
  have h58 : (58 : UInt8) ≠ percent := by decide
  have hparams : evenRuns (m.params c) = m.escaped.params (evenRuns c) := by
    cases m with
    | join => rfl
    | part reason =>
        simp only [Membership.params, Membership.escaped]
        rw [evenRuns_append_cons c h32, evenRuns_cons_ne h58]
    | invite invited =>
        simp only [Membership.params, Membership.escaped]
        rw [evenRuns_append_cons invited h32]
  have hevent : m.escaped.event = m.event := by cases m <;> rfl
  unfold sourcedLine
  rw [hevent, ← hparams, List.append_assoc, List.cons_append, evenRuns_cons_ne h58,
    List.cons_append, evenRuns_append_cons nick h33, evenRuns_append_cons mask h32,
    evenRuns_append_of_not_mem (hword _), evenRuns_cons_ne h32]
  simp

theorem getOrCreateChannel_record (name : Str) (srv : Nat) (w : World) :
    ∃ chan w' c, getOrCreateChannel name srv w = .ok chan w' ∧ w'.servers = w.servers ∧
      w'.channelList[chan]? = some c ∧ c.name = name ∧ c.srv = srv := by
  unfold getOrCreateChannel
  rw [bind_ok (getChannel_run name srv w)]
  cases hfind : lookup channelKey (name, srv) w.channelList with
  | some chan =>
      obtain ⟨c, hc, hkey⟩ := lookup_some hfind
      exact ⟨chan, w, c, rfl, rfl, hc, congrArg Prod.fst hkey, congrArg Prod.snd hkey⟩
  | none => exact ⟨w.channelList.length, _, _, rfl, rfl, List.getElem?_concat_length, rfl, rfl⟩

section Logged

variable {w : World} {srv : Nat} {record : Server} {network nick mask c : Str}

theorem logged_fillIn (head : Str) (fields : List (Str × Str)) :
    (⟨head, fields.map fun f => (evenRuns f.1, f.2)⟩ : LogEvent.Line).logged =
      fillIn head (fields.map fun f => (halfRuns f.1, f.2)) := by
  unfold LogEvent.Line.logged
  rw [List.map_map]
  refine congrArg (fillIn head) (List.map_congr_left fun f _ => ?_)
  show (unescape (evenRuns f.1), f.2) = _
  unfold unescape
  rw [vsnprintf_evenRuns]

/-- What a callback appends for an event whose texts were escaped. -/
theorem run_raw {records : World} {lw : LogWorld} (hready : lw.Ready) (depth : Nat)
    (event : LogEvent) (hfound : event.Found records) (head : Str) (fields : List (Str × Str))
    (hl : event.line records = some ⟨head, fields.map fun f => (evenRuns f.1, f.2)⟩)
    (hhead : percent ∉ head) (htexts : ∀ f ∈ fields, percent ∉ f.2) :
    ∃ lw', event.run records (depth + 1) lw = .ok bcircPluginOk lw' ∧
      lw'.files = lw.files ++ [(logPath (lw.logDir.getD []) (ascii "mainlog")
        (lw.clock (lw.ticks + 1)),
        lw.stamp ++ fillIn head (fields.map fun f => (halfRuns f.1, f.2)))] := by
  have hok : (⟨head, fields.map fun f => (evenRuns f.1, f.2)⟩ : LogEvent.Line).Ok := by
    refine ⟨hhead, fun f hf => ?_, fun f hf => ?_⟩
    · obtain ⟨g, hg, rfl⟩ := List.mem_map.mp hf
      exact htexts g hg
    · obtain ⟨g, -, rfl⟩ := List.mem_map.mp hf
      exact ⟨g.1, rfl⟩
  refine ⟨_, LogEvent.run_line hready depth hfound hl hok, ?_⟩
  rw [← logged_fillIn]
  rfl

/-- A JOIN or a PART as it was sent: once the line has been escaped, its
event makes the logger append one line, with the texts that were sent. -/
theorem membership_logged (hsrv : w.servers[srv]? = some record) (hwelcome : record.motdSent ≠ 0)
    (hnetwork : record.networkName = evenRuns network) (hbang : 33 ∉ nick) (hnick : 32 ∉ nick)
    (hmask : 32 ∉ mask) (hc : c ≠ []) (hblank : 32 ∉ c) {m : Membership}
    (hm : ∀ invited, m ≠ .invite invited)
    (hlong : 20 ≤ (evenRuns (sourcedLine nick mask m.event (m.params c))).length)
    (hfits : (evenRuns (sourcedLine nick mask m.event (m.params c))).length < 1024)
    {lw : LogWorld} (hready : lw.Ready) (depth : Nat) :
    ∃ args w' lw',
      ChanRaises w w' srv (evenRuns (sourcedLine nick mask m.event (m.params c))) m.event args ∧
      m.callback w' (depth + 1) args lw = .ok bcircPluginOk lw' ∧
      lw'.files = lw.files ++ [(logPath (lw.logDir.getD []) (ascii "mainlog")
        (lw.clock (lw.ticks + 1)), lw.stamp ++ m.logText network nick c)] := by
  have h32 : (32 : UInt8) ≠ percent := by decide
  have hfree : ∀ {t : Str}, 32 ∉ t → 32 ∉ evenRuns t := fun h => by
    rwa [mem_evenRuns_iff h32]
  have hbang' : 33 ∉ evenRuns nick := by rwa [mem_evenRuns_iff (by decide)]
  obtain ⟨chan, w', ch, hrun, hservers, hchan, hname, hchansrv⟩ :=
    getOrCreateChannel_record (evenRuns c) srv w
  have hserver : w'.servers[ch.srv]? = some record := by rw [hservers, hchansrv, hsrv]
  have hplace := LogEvent.place_eq hchan hserver
  rw [hnetwork, hname] at hplace
  have hplaced : LogEvent.Placed w' chan := ⟨ch, record, hchan, hserver⟩
  have hvalid : m.escaped.Valid := by
    cases m with
    | invite invited => exact absurd rfl (hm invited)
    | join | part _ => trivial
  rw [evenRuns_sourcedLine] at hlong hfits ⊢
  have hraises := sourcedLine_raises hsrv hwelcome hbang' (hfree hnick) (hfree hmask) hlong hfits
    (membership_target (evenRuns_ne_nil hc) (hfree hblank) hvalid hrun)
  cases m with
  | invite invited => exact absurd rfl (hm invited)
  | join =>
      obtain ⟨lw', hlogged, hfiles⟩ := run_raw hready depth
        (.join (some chan) (some (evenRuns nick)) (some (evenRuns mask)) none)
        (by rintro _ ⟨⟩; exact hplaced) (ascii "User ")
        [(nick, ascii " joined channel "), (network, ascii "."), (c, ascii "\n")]
        (by
          show some (LogEvent.chanLine _ _ _ _ _) = _
          rw [LogEvent.chanLine, Option.elim_none, hplace]
          rfl)
        (by decide)
        (by simp only [List.forall_mem_cons]; decide)
      refine ⟨_, w', lw', hraises, hlogged, ?_⟩
      rw [hfiles]
      simp [fillIn, Membership.logText]
  | part reason =>
      have hdelivered : (Membership.part reason).escaped.reason =
          some (evenRuns (deliveredReason reason)) :=
        congrArg some (deliveredReason_evenRuns reason)
      rw [hdelivered] at hraises
      obtain ⟨lw', hlogged, hfiles⟩ := run_raw hready depth
        (.part (some chan) (some (evenRuns nick)) (some (evenRuns mask))
          (some (evenRuns (deliveredReason reason))))
        (fun _ => ⟨chan, rfl, hplaced⟩) (ascii "User ")
        [(nick, ascii " left channel "), (network, ascii "."), (c, ascii "("),
          (deliveredReason reason, ascii ")\n")]
        (by
          show some (LogEvent.chanLine _ _ _ _ _) = _
          rw [LogEvent.chanLine, Option.elim_some, hplace]
          rfl)
        (by decide)
        (by simp only [List.forall_mem_cons]; decide)
      refine ⟨_, w', lw', hraises, hlogged, ?_⟩
      rw [hfiles]
      simp [fillIn, Membership.logText]

end Logged

/-- `100%` of the reason is logged as it was sent. -/
theorem membership_logged_sample :
    ∃ args w' lw',
      ChanRaises welcomedWorld w' 0
        (evenRuns (sourcedLine (ascii "ann") (ascii "a@b.org") .part
          ((Membership.part (ascii "100% bored")).params (ascii "#chan")))) .part args ∧
      (Membership.part (ascii "100% bored")).callback w' 1 args sampleLogWorld =
        .ok bcircPluginOk lw' ∧
      lw'.files = sampleLogWorld.files ++ [(logPath (sampleLogWorld.logDir.getD [])
        (ascii "mainlog") (sampleLogWorld.clock (sampleLogWorld.ticks + 1)),
        sampleLogWorld.stamp ++
          (Membership.part (ascii "100% bored")).logText (ascii "net") (ascii "ann")
            (ascii "#chan"))] :=
  membership_logged (m := .part (ascii "100% bored"))
    (rfl : welcomedWorld.servers[0]? = some welcomedServer) (by decide) (by decide) (by decide)
    (by decide) (by decide) (by decide) (by decide) (by rintro _ ⟨⟩) (by decide +kernel)
    (by decide +kernel) ⟨rfl, Or.inl rfl, rfl⟩ 0

end Bcirc
