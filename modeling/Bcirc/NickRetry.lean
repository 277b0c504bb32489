import Bcirc.Core

/-!
# Retrying a refused nick

What the bot asks the server for when its nick is refused again and again.
The next nick depends on the last one and `alt_nick` only: from the third
refusal on, nicks are asked for a second time.
-/

namespace Bcirc

open CProg CStr

/-! ## Requests -/

/-- The nicks asked for in a list of `send` calls. -/
def requestedNicks (srv : Nat) (sends : List SendCall) : List Str :=
  sends.filterMap fun call => if call.srv = srv then nickRequest? call.buf else none

/-- The record of `srv` has this nick and this alternative nick. -/
def HasNicks (srv : Nat) (nick altNick : Str) (w : World) : Prop :=
  ∃ record, w.servers[srv]? = some record ∧ record.nick = nick ∧ record.altNick = altNick

/-- `w'` is `w` after calls of `send` that asked for `nicks`; as long as the
sockets take everything, they have taken these calls whole. -/
def Requested (srv : Nat) (nicks : List Str) (w w' : World) : Prop :=
  ∃ calls, w'.sends = w.sends ++ calls ∧ requestedNicks srv calls = nicks ∧
    (w.sendResults = [] → w'.sendResults = [] ∧
      ∀ call ∈ calls, call.srv = srv ∧ call.res = call.buf.length)

theorem Requested.refl (srv : Nat) (w : World) : Requested srv [] w w :=
  ⟨[], (List.append_nil _).symm, rfl, fun h => ⟨h, fun _ hcall => nomatch hcall⟩⟩

theorem Requested.trans {srv : Nat} {nicks₁ nicks₂ : List Str} {w₁ w₂ w₃ : World}
    (h₁ : Requested srv nicks₁ w₁ w₂) (h₂ : Requested srv nicks₂ w₂ w₃) :
    Requested srv (nicks₁ ++ nicks₂) w₁ w₃ := by
  obtain ⟨calls₁, hsends₁, rfl, hwhole₁⟩ := h₁
  obtain ⟨calls₂, hsends₂, rfl, hwhole₂⟩ := h₂
  refine ⟨calls₁ ++ calls₂, ?_, List.filterMap_append, ?_⟩
  · rw [hsends₂, hsends₁, List.append_assoc]
  · intro h
    obtain ⟨h', hcalls₁⟩ := hwhole₁ h
    obtain ⟨h'', hcalls₂⟩ := hwhole₂ h'
    exact ⟨h'', fun call hcall =>
      (List.mem_append.mp hcall).elim (hcalls₁ call) (hcalls₂ call)⟩

theorem Requested.drop {srv : Nat} {nicks : List Str} {w w' : World}
    (h : Requested srv nicks w w') :
    requestedNicks srv (w'.sends.drop w.sends.length) = nicks := by
  obtain ⟨calls, hsends, rfl, -⟩ := h
  rw [hsends, List.drop_left]

theorem afterSend_sends (srv : Nat) (buf : Str) (w : World) :
    (afterSend srv buf w).sends =
      w.sends ++ [⟨srv, buf, w.sendResults.headD buf.length⟩] ∧
    (afterSend srv buf w).sendResults = w.sendResults.tail := by
  unfold afterSend
  split
  · exact ⟨rfl, rfl⟩
  · exact ⟨rfl, rfl⟩

theorem afterSend_requested (srv : Nat) (buf : Str) (w : World) :
    Requested srv (nickRequest? buf).toList w (afterSend srv buf w) := by
  obtain ⟨hsends, hresults⟩ := afterSend_sends srv buf w
  refine ⟨_, hsends, ?_, fun h => ?_⟩
  · cases h : nickRequest? buf with
    | none => simp [requestedNicks, h]
    | some nick => simp [requestedNicks, h]
  · rw [hresults, h]
    exact ⟨rfl, by simp⟩

theorem HasNicks.afterSend {srv : Nat} {nick altNick : Str} {w : World}
    (h : HasNicks srv nick altNick w) (buf : Str) :
    HasNicks srv nick altNick (afterSend srv buf w) := by
  obtain ⟨record, hsrv, hnick, halt⟩ := h
  unfold Bcirc.afterSend
  split
  · exact ⟨record, hsrv, hnick, halt⟩
  · refine ⟨{ record with
      sentLen := record.sentLen + w.sendResults.headD buf.length }, ?_, hnick, halt⟩
    simp [hsrv]

theorem afterNick_requested (srv : Nat) (nick : Str) (w : World) :
    Requested srv [nick] w (afterNick srv nick w) := by
  have h := afterSend_requested srv (nickLine nick)
    { w with servers := w.servers.modify srv fun s => { s with nick } }
  rw [nickRequest?_nickLine] at h
  exact h

theorem HasNicks.afterNick {srv : Nat} {nick altNick : Str} {w : World}
    (h : HasNicks srv nick altNick w) (newNick : Str) :
    HasNicks srv newNick altNick (afterNick srv newNick w) := by
  obtain ⟨record, hsrv, -, halt⟩ := h
  refine HasNicks.afterSend ?_ _
  refine ⟨{ record with nick := newNick }, ?_, rfl, halt⟩
  simp [hsrv]

/-! ## Registration and refusals -/

variable {φ : Type} {raise : Str → List Arg → Prog (Bot φ World) Int}

theorem handleNick_ok (hraise : KeepsWorld raise) {srv : Nat} {nick altNick : Str}
    {bot : Bot φ World} (h : HasNicks srv nick altNick bot.world) {numeric : Int}
    (hnumeric : numeric ∈ nickNumerics) (buf : Str) :
    ∃ reg, handleNick raise [.server srv, .int numeric, .str buf] bot =
      .ok bcircPluginOk ⟨reg, afterNick srv (nextNick nick altNick) bot.world⟩ := by
  obtain ⟨record, hsrv, rfl, rfl⟩ := h
  obtain ⟨code, reg, hnick⟩ :=
    nick_ok raise hraise (nextNick record.nick record.altNick) hsrv
  have hget : onWorld (getServer srv) bot = .ok record bot := onWorld_ok (getServer_ok hsrv)
  refine ⟨reg, ?_⟩
  show (if numeric ∉ nickNumerics then pure bcircPluginOk
    else (do
      let record ← onWorld (getServer srv)
      let _ ← nick raise (nextNick record.nick record.altNick) srv
      pure bcircPluginOk) : Prog (Bot φ World) Int) bot = _
  rw [if_neg (not_not.mpr hnumeric), bind_ok hget]
  exact bind_ok hnick

/-- The numerics of a run of refusals, each handled by `handle_nick`. -/
def answerErrors (raise : Str → List Arg → Prog (Bot φ World) Int) (srv : Nat) :
    List (Int × Str) → Prog (Bot φ World) Unit
  | [] => pure ()
  | e :: errs => do
      let _ ← handleNick raise [.server srv, .int e.1, .str e.2]
      answerErrors raise srv errs

/-- What is asked for in `k` refusals, the last nick asked for being `nick`. -/
def retryNicks (altNick : Str) : Nat → Str → List Str
  | 0, _ => []
  | k + 1, nick => nextNick nick altNick :: retryNicks altNick k (nextNick nick altNick)

theorem answerErrors_ok (hraise : KeepsWorld raise) {srv : Nat} {nick altNick : Str}
    {errs : List (Int × Str)} (herrs : ∀ e ∈ errs, e.1 ∈ nickNumerics) {bot : Bot φ World}
    (h : HasNicks srv nick altNick bot.world) :
    ∃ bot', answerErrors raise srv errs bot = .ok () bot' ∧
      Requested srv (retryNicks altNick errs.length nick) bot.world bot'.world := by
  induction errs generalizing nick bot with
  | nil => exact ⟨bot, rfl, Requested.refl srv bot.world⟩
  | cons e errs ih =>
      obtain ⟨reg, hstep⟩ := handleNick_ok hraise h (herrs e List.mem_cons_self) e.2
      have hnext : HasNicks srv (nextNick nick altNick) altNick
          (⟨reg, afterNick srv (nextNick nick altNick) bot.world⟩ : Bot φ World).world :=
        h.afterNick _
      obtain ⟨bot', hrun, hreq⟩ := ih
        (fun e' he' => herrs e' (List.mem_cons_of_mem e he')) hnext
      refine ⟨bot', (bind_ok hstep).trans hrun, ?_⟩
      exact (afterNick_requested srv (nextNick nick altNick) bot.world).trans hreq

theorem registrationLines_no_nick {record : Server} {lines : Str × Str}
    (h : registrationLines record = .ok lines) :
    nickRequest? lines.1 = none ∧ nickRequest? lines.2 = none := by
  unfold registrationLines at h
  simp only at h
  split at h
  · cases h
  · cases h
    exact ⟨rfl, rfl⟩

/-- A line that asks for no nick. -/
theorem serverSend_silent (hraise : KeepsWorld raise) {srv : Nat} {nick altNick buf : Str}
    {bot bot' : Bot φ World} {code : Int} (h : HasNicks srv nick altNick bot.world)
    (hbuf : nickRequest? buf = none)
    (hrun : serverSend raise (some buf) srv bot = .ok code bot') :
    HasNicks srv nick altNick bot'.world ∧ Requested srv [] bot.world bot'.world := by
  obtain ⟨record, hsrv, -, -⟩ := id h
  obtain ⟨code', reg, hok⟩ := serverSend_ok raise hraise buf hsrv
  rw [hok] at hrun
  cases hrun
  refine ⟨h.afterSend buf, ?_⟩
  have hreq := afterSend_requested srv buf bot.world
  rwa [hbuf] at hreq

theorem markConnected_ok {srv : Nat} {nick altNick : Str} {bot : Bot φ World}
    (h : HasNicks srv nick altNick bot.world) :
    ∃ bot', onWorld (markConnected srv) bot = .ok () bot' ∧
      HasNicks srv nick altNick bot'.world ∧ Requested srv [] bot.world bot'.world := by
  obtain ⟨record, hsrv, hnick, halt⟩ := h
  let connected : World := { bot.world with
    servers := bot.world.servers.modify srv fun s =>
      { s with timeConnected := bot.world.clock } }
  refine ⟨{ bot with world := connected }, rfl, ?_, Requested.refl srv bot.world⟩
  exact ⟨{ record with timeConnected := bot.world.clock }, by simp [connected, hsrv], hnick, halt⟩

theorem handleRegisteration_ok (hraise : KeepsWorld raise) {srv : Nat} {nick altNick : Str}
    {bot bot' : Bot φ World} {code : Int} (h : HasNicks srv nick altNick bot.world)
    (hrun : handleRegisteration raise [.server srv] bot = .ok code bot') :
    HasNicks srv nick altNick bot'.world ∧ Requested srv [nick] bot.world bot'.world := by
  have hrun : (do
      let _ ← onWorld (getServer srv)
      onWorld (markConnected srv)
      let record ← onWorld (getServer srv)
      let lines ← liftExcept (registrationLines record)
      let _ ← serverSend raise (some lines.1) srv
      let _ ← serverSend raise (some lines.2) srv
      let record ← onWorld (getServer srv)
      let _ ← Bcirc.nick raise record.nick srv
      pure bcircPluginOk : Prog (Bot φ World) Int) bot = .ok code bot' := hrun
  obtain ⟨record, hsrv, -, -⟩ := id h
  obtain ⟨bot₁, hmark, h₁, hreq₁⟩ := markConnected_ok h
  obtain ⟨record₁, hsrv₁, -, -⟩ := id h₁
  rw [bind_ok (onWorld_ok (getServer_ok hsrv)), bind_ok hmark,
    bind_ok (onWorld_ok (getServer_ok hsrv₁))] at hrun
  obtain ⟨lines, hlines, hrun⟩ := of_liftExcept_bind_ok hrun
  obtain ⟨hpass, huser⟩ := registrationLines_no_nick hlines
  obtain ⟨_, bot₂, hsend₂, hrun⟩ := of_bind_ok hrun
  obtain ⟨h₂, hreq₂⟩ := serverSend_silent hraise h₁ hpass hsend₂
  obtain ⟨_, bot₃, hsend₃, hrun⟩ := of_bind_ok hrun
  obtain ⟨h₃, hreq₃⟩ := serverSend_silent hraise h₂ huser hsend₃
  obtain ⟨record₃, hsrv₃, hnick₃, -⟩ := id h₃
  obtain ⟨_, reg, hok⟩ := nick_ok raise hraise nick hsrv₃
  rw [bind_ok (onWorld_ok (getServer_ok hsrv₃)), hnick₃, bind_ok hok] at hrun
  cases hrun
  refine ⟨h₃.afterNick nick, ?_⟩
  exact ((hreq₁.trans hreq₂).trans hreq₃).trans (afterNick_requested srv nick bot₃.world)

/-! ## The nicks of a run -/

theorem nextNick_of_ne {nick altNick : Str} (h : nick ≠ altNick) :
    nextNick nick altNick = altNick := if_pos h

theorem nextNick_self (altNick : Str) : nextNick altNick altNick = altNick ++ ascii "_" :=
  if_neg (not_not.mpr rfl)

theorem append_underscore_ne (s : Str) : s ++ ascii "_" ≠ s := by
  intro h
  have hlen := congrArg List.length h
  rw [List.length_append] at hlen
  have : (ascii "_").length = 1 := rfl
  omega

theorem nodup_retryNicks_iff {nick altNick : Str} (hne : nick ≠ altNick) (k : Nat) :
    (nick :: retryNicks altNick k nick).Nodup ↔
      k ≤ 1 ∨ k = 2 ∧ nick ≠ altNick ++ ascii "_" := by
  have hsuffix := append_underscore_ne altNick
  rcases k with _ | _ | _ | k
  · simp [retryNicks]
  · simp [retryNicks, nextNick_of_ne hne, hne]
  · simp [retryNicks, nextNick_of_ne hne, nextNick_self, hne, hsuffix.symm]
  · simp [retryNicks, nextNick_of_ne hne, nextNick_self, nextNick_of_ne hsuffix]

/-- After registration and `k` refusals the nicks asked for are pairwise
distinct if and only if there was at most one refusal, or there were two
and the configured nick is not the alternative one with an underscore. -/
theorem requestedNicks_nodup_iff (hraise : KeepsWorld raise) {srv : Nat} {nick altNick : Str}
    (hne : nick ≠ altNick) {errs : List (Int × Str)} (herrs : ∀ e ∈ errs, e.1 ∈ nickNumerics)
    {bot bot' : Bot φ World} (h : HasNicks srv nick altNick bot.world)
    (hrun : (do
      let _ ← handleRegisteration raise [.server srv]
      answerErrors raise srv errs) bot = .ok () bot') :
    (requestedNicks srv (bot'.world.sends.drop bot.world.sends.length)).Nodup ↔
      errs.length ≤ 1 ∨ errs.length = 2 ∧ nick ≠ altNick ++ ascii "_" := by
  obtain ⟨_, bot₁, hreg, hrun⟩ := of_bind_ok hrun
  obtain ⟨h₁, hreq₁⟩ := handleRegisteration_ok hraise h hreg
  obtain ⟨_, hok, hreq₂⟩ := answerErrors_ok hraise herrs h₁
  rw [hok] at hrun
  cases hrun
  rw [(hreq₁.trans hreq₂).drop]
  exact nodup_retryNicks_iff hne errs.length

/-- Registration and a run of refusals on the sample network. -/
abbrev sampleRun (errs : List (Int × Str)) : EStateM.Result Fault (Bot Unit World) Unit :=
  (do
    let _ ← handleRegisteration idleRaise [.server 0]
    answerErrors idleRaise 0 errs) ⟨initIndex, sampleWorld⟩

/-- Two refusals: `bot`, `alt`, `alt_`. -/
theorem requestedNicks_nodup_iff_sample :
    (requestedNicks 0 ((endState (sampleRun [(433, []), (432, [])])).world.sends.drop
        sampleWorld.sends.length)).Nodup ↔
      2 ≤ 1 ∨ 2 = 2 ∧ ascii "bot" ≠ ascii "alt" ++ ascii "_" := by
  have hnicks : HasNicks 0 (ascii "bot") (ascii "alt")
      (⟨initIndex, sampleWorld⟩ : Bot Unit World).world :=
    ⟨sampleServer, rfl, rfl, rfl⟩
  have herrs : ∀ e ∈ [((433 : Int), ([] : Str)), (432, [])], e.1 ∈ nickNumerics := by decide
  obtain ⟨_, hrun⟩ : ∃ a, sampleRun [(433, []), (432, [])] =
      .ok a (endState (sampleRun [(433, []), (432, [])])) :=
    eq_ok_of_returned (by decide +kernel)
  have hne : ascii "bot" ≠ ascii "alt" := by decide
  have hiff := requestedNicks_nodup_iff keepsWorld_idleRaise hne herrs hnicks hrun
  exact hiff

/-- A third refusal makes the bot ask for `alt` again. -/
theorem requestedNicks_repeat :
    ¬ ∀ errs : List (Int × Str), (∀ e ∈ errs, e.1 ∈ nickNumerics) →
      sampleServer.nick ≠ sampleServer.altNick →
      (requestedNicks 0 (endState (sampleRun errs)).world.sends).Nodup := by
  intro h
  have hthree := h [(433, []), (433, []), (433, [])] (by decide) (by decide)
  revert hthree
  decide +kernel

end Bcirc
