import Bcirc.Events
import Bcirc.Fragmentation

/-!
# From the wire to the callbacks of `got_privmsg`

A message that arrives in one `recv` result is cut out of it as one line
and taken apart at its separators, none of which is a `%`. Its fields
reach the callbacks as they were sent, except that `bcirc_escape_buf` has
made every run of `%` in them even.
-/

namespace Bcirc

open CProg CStr

/-! ## Message lines -/

/-- `:nick!mask PRIVMSG target :text`. -/
def privmsgLine (nick mask target text : Str) : Str :=
  58 :: nick ++ 33 :: mask ++ 32 :: ascii "PRIVMSG" ++ 32 :: target ++ 32 :: 58 :: text

structure PrivmsgFields (nick mask target : Str) : Prop where
  nick : ∀ c ∈ nick, c ≠ 32 ∧ c ≠ 33
  mask : mask ≠ [] ∧ ∀ c ∈ mask, c ≠ 32
  target : target ≠ [] ∧ ∀ c ∈ target, c ≠ 32

theorem parsePrivmsg_line {nick mask target : Str} (h : PrivmsgFields nick mask target)
    (text : Str) :
    parsePrivmsg (privmsgLine nick mask target text) =
      .message (some nick) (some mask) (some target) (58 :: text) := by
  have hword₁ : ∀ c ∈ 58 :: nick ++ 33 :: mask, isSpace c = false := by
    intro c hc
    rcases List.mem_append.mp hc with hc | hc
    · rcases List.mem_cons.mp hc with rfl | hc
      · rfl
      · exact isSpace_eq_false.mpr (h.nick c hc).1
    · rcases List.mem_cons.mp hc with rfl | hc
      · rfl
      · exact isSpace_eq_false.mpr (h.mask.2 c hc)
  have hfirst : strtokR isSpace (privmsgLine nick mask target text) =
      (some (58 :: nick ++ 33 :: mask),
        ascii "PRIVMSG" ++ 32 :: target ++ 32 :: 58 :: text) := by
    have happ : privmsgLine nick mask target text =
        (58 :: nick ++ 33 :: mask) ++
          32 :: (ascii "PRIVMSG" ++ 32 :: target ++ 32 :: 58 :: text) := by
      simp [privmsgLine]
    rw [happ, strtokR_append_cons (by simp) hword₁ rfl]
  have hsecond : strtokR isSpace (ascii "PRIVMSG" ++ 32 :: target ++ 32 :: 58 :: text) =
      (some (ascii "PRIVMSG"), target ++ 32 :: 58 :: text) := by
    rw [List.append_assoc, List.cons_append]
    exact strtokR_append_cons (by decide) (by decide +kernel) rfl
  have hthird : strtokR isSpace (target ++ 32 :: 58 :: text) = (some target, 58 :: text) :=
    strtokR_append_cons h.target.1 (fun c hc => isSpace_eq_false.mpr (h.target.2 c hc)) rfl
  have hbang : ∀ c ∈ 58 :: nick, isBang c = false := by
    intro c hc
    rcases List.mem_cons.mp hc with rfl | hc
    · rfl
    · simpa [isBang] using (h.nick c hc).2
  have hsource : nickAndMask (58 :: nick ++ 33 :: mask) = .ok (nick, mask) := by
    have hlen : mask.length ≠ 0 := fun h0 => h.mask.1 (List.length_eq_zero_iff.mp h0)
    unfold nickAndMask
    rw [strtokR_append_cons (by simp) hbang rfl]
    simp only [if_neg hlen, List.tail_cons]
  unfold parsePrivmsg
  simp only [hfirst, hsource, hsecond, hthird, ne_eq, not_true_eq_false, if_false]

theorem getPrivmsg_line {σ : Type} (raise : Str → List Arg → Prog σ Int) (srv : Nat)
    {nick mask target : Str} (h : PrivmsgFields nick mask target) (text : Str) :
    getPrivmsg raise [.server srv, .str (privmsgLine nick mask target text)] = (do
      let _ ← raise callbackGotPrivmsg
        [.server srv, .str nick, .str mask, .str target, .str text]
      pure bcircPluginOk) := by
  have hfound : (strstr (privmsgLine nick mask target text) (ascii "PRIVMSG")).isSome := by
    have happ : privmsgLine nick mask target text =
        (58 :: nick ++ 33 :: mask ++ [32]) ++ ascii "PRIVMSG" ++
          (32 :: target ++ 32 :: 58 :: text) := by
      simp [privmsgLine]
    rw [happ]
    exact strstr_append_isSome _ _ _
  obtain ⟨i, hi⟩ := Option.isSome_iff_exists.mp hfound
  rw [getPrivmsg_str, hi, parsePrivmsg_line h]
  rfl

/-! ## Escaping the fields -/

theorem evenRuns_privmsgLine (nick mask target text : Str) :
    evenRuns (privmsgLine nick mask target text) =
      privmsgLine (evenRuns nick) (evenRuns mask) (evenRuns target) (evenRuns text) := by
  have h58 : (58 : UInt8) ≠ percent := by decide
  have h33 : (33 : UInt8) ≠ percent := by decide
  have h32 : (32 : UInt8) ≠ percent := by decide
  have hcommand : evenRuns (ascii "PRIVMSG") = ascii "PRIVMSG" :=
    evenRuns_of_not_mem (by decide)
  simp only [privmsgLine, evenRuns_append_cons _ h32, evenRuns_append_cons _ h33,
    List.cons_append, evenRuns_cons_ne h58, hcommand]

theorem PrivmsgFields.evenRuns {nick mask target : Str}
    (h : PrivmsgFields nick mask target) :
    PrivmsgFields (evenRuns nick) (evenRuns mask) (evenRuns target) where
  nick c hc := by
    rcases mem_evenRuns hc with rfl | hc
    · decide
    · exact h.nick c hc
  mask := by
    refine ⟨evenRuns_ne_nil h.mask.1, fun c hc => ?_⟩
    rcases mem_evenRuns hc with rfl | hc
    · decide
    · exact h.mask.2 c hc
  target := by
    refine ⟨evenRuns_ne_nil h.target.1, fun c hc => ?_⟩
    rcases mem_evenRuns hc with rfl | hc
    · decide
    · exact h.target.2 c hc

/-! ## Delivery -/

variable {ρ : Type}

/-- The callbacks of an event: they return `(handle cbName args r).1` and
leave `(handle cbName args r).2`. The events are written down. -/
def recordRaise (handle : Str → List Arg → ρ → Int × ρ) (cbName : Str) (args : List Arg) :
    Prog (ρ × List (Str × List Arg)) Int :=
  fun s => .ok (handle cbName args s.1).1 ((handle cbName args s.1).2, s.2 ++ [(cbName, args)])

/-- The events `get_privmsg` raises for a line. -/
def raisedBy (srv : Nat) (line : Str) : List (Str × List Arg) :=
  (endState (getPrivmsg (recordRaise fun _ _ (u : Unit) => (bcircPluginOk, u))
    [.server srv, .str line] ((), []))).2

/-- The events it raises for the lines of one `recv` result. -/
def raisedPrivmsgs (count : Nat → ρ → ρ) (handle : Str → List Arg → ρ → Int × ρ) (srv : Nat)
    (buf : List UInt8) (r : ρ) : List (Str × List Arg) :=
  (endState (serverRecv (fun n => modify fun s => (count n s.1, s.2))
    (fun line => getPrivmsg (recordRaise handle) [.server srv, .str line])
    (fun _ => pure 0) [.data buf] (r, []))).2

theorem getPrivmsg_record (handle : Str → List Arg → ρ → Int × ρ) (srv : Nat) (line : Str)
    (r : ρ) (log : List (Str × List Arg)) :
    ∃ code r', getPrivmsg (recordRaise handle) [.server srv, .str line] (r, log) =
      .ok code (r', log ++ raisedBy srv line) := by
  rw [raisedBy, getPrivmsg_str, getPrivmsg_str]
  cases strstr line (ascii "PRIVMSG") with
  | none => exact ⟨bcircPluginOk, r, by simp⟩
  | some i =>
      cases parsePrivmsg line with
      | ret code => exact ⟨code, r, by simp⟩
      | message nick hostmask target save => exact ⟨bcircPluginOk, _, rfl⟩

theorem handleLines_getPrivmsg (handle : Str → List Arg → ρ → Int × ρ) (srv : Nat)
    (lines : List Str) (r : ρ) (log : List (Str × List Arg)) :
    ∃ r', handleLines (fun line => getPrivmsg (recordRaise handle) [.server srv, .str line])
      lines (r, log) = .ok () (r', log ++ lines.flatMap (raisedBy srv)) := by
  induction lines generalizing r log with
  | nil => exact ⟨r, by simp [handleLines]⟩
  | cons line lines ih =>
      obtain ⟨code, r₁, hr₁⟩ := getPrivmsg_record handle srv line r log
      obtain ⟨r₂, hr₂⟩ := ih r₁ (log ++ raisedBy srv line)
      refine ⟨r₂, ?_⟩
      rw [handleLines, bind_ok hr₁, hr₂, List.flatMap_cons, List.append_assoc]

theorem raisedPrivmsgs_eq (count : Nat → ρ → ρ) (handle : Str → List Arg → ρ → Int × ρ)
    (srv : Nat) {buf : List UInt8} {lines : List Str} (hlines : recvLines buf = .ok lines)
    (r : ρ) :
    raisedPrivmsgs count handle srv buf r = lines.flatMap (raisedBy srv) := by
  obtain ⟨r', hr'⟩ := handleLines_getPrivmsg handle srv lines (count buf.length r) []
  unfold raisedPrivmsgs
  rw [serverRecv, modify_bind_run, hlines, liftExcept_ok, pure_bind_run]
  show (endState ((handleLines (fun line => getPrivmsg (recordRaise handle)
    [.server srv, .str line]) lines >>= _) _)).2 = _
  rw [bind_ok hr']
  rfl

theorem raisedBy_line (srv : Nat) {nick mask target : Str}
    (h : PrivmsgFields nick mask target) (text : Str) :
    raisedBy srv (privmsgLine nick mask target text) =
      [(callbackGotPrivmsg, [.server srv, .str nick, .str mask, .str target, .str text])] := by
  rw [raisedBy, getPrivmsg_line _ srv h]
  rfl

/-- A message line that arrives within one `recv` result is dispatched as
one line and raises `got_privmsg` once, with the fields it was sent with,
their runs of `%` made even. -/
theorem raisedPrivmsgs_of_line (count : Nat → ρ → ρ) (handle : Str → List Arg → ρ → Int × ρ)
    (srv : Nat) {nick mask target text pre : Str} (post : List UInt8)
    (h : PrivmsgFields nick mask target)
    (hline : ∀ c ∈ privmsgLine nick mask target text, isCrLf c = false)
    (hpre : pre = [] ∨ EndsLine pre) (hnul : 0 ∉ pre ++ privmsgLine nick mask target text)
    (hlen : (pre ++ privmsgLine nick mask target text ++ crlf ++ post).length ≤ 511) (r : ρ) :
    ∃ after, recvLines (pre ++ privmsgLine nick mask target text ++ crlf ++ post) =
        .ok (linesOf pre ++ evenRuns (privmsgLine nick mask target text) :: after) ∧
      raisedPrivmsgs count handle srv
          (pre ++ privmsgLine nick mask target text ++ crlf ++ post) r =
        (linesOf pre).flatMap (raisedBy srv) ++
          (callbackGotPrivmsg, [.server srv, .str (evenRuns nick), .str (evenRuns mask),
            .str (evenRuns target), .str (evenRuns text)]) :: after.flatMap (raisedBy srv) := by
  obtain ⟨after, hafter⟩ :=
    recvLines_line post hpre (by simp [privmsgLine]) hline hnul hlen
  refine ⟨after, hafter, ?_⟩
  rw [raisedPrivmsgs_eq count handle srv hafter, List.flatMap_append, List.flatMap_cons,
    evenRuns_privmsgLine, raisedBy_line srv h.evenRuns, List.singleton_append]

theorem sampleFields : PrivmsgFields (ascii "joona") (ascii "~j@host") (ascii "#chan") :=
  ⟨by decide +kernel, by decide +kernel, by decide +kernel⟩

/-- After a PING in the same result, `50% a%%b` reaches the callbacks as
`50%% a%%b`. -/
theorem raisedPrivmsgs_of_line_sample :
    ∃ after,
      recvLines (ascii "PING x\r\n:joona!~j@host PRIVMSG #chan :50% a%%b\r\n") =
        .ok (linesOf (ascii "PING x\r\n") ++
          evenRuns (ascii ":joona!~j@host PRIVMSG #chan :50% a%%b") :: after) ∧
      raisedPrivmsgs (fun _ (u : Unit) => u) (fun _ _ u => (bcircPluginOk, u)) 3
          (ascii "PING x\r\n:joona!~j@host PRIVMSG #chan :50% a%%b\r\n") () =
        (linesOf (ascii "PING x\r\n")).flatMap (raisedBy 3) ++
          (callbackGotPrivmsg, [.server 3, .str (ascii "joona"), .str (ascii "~j@host"),
            .str (ascii "#chan"), .str (ascii "50%% a%%b")]) :: after.flatMap (raisedBy 3) := by
  have hline : ∀ c ∈ privmsgLine (ascii "joona") (ascii "~j@host") (ascii "#chan")
      (ascii "50% a%%b"), isCrLf c = false := by decide +kernel
  have hpre : ascii "PING x\r\n" = [] ∨ EndsLine (ascii "PING x\r\n") :=
    Or.inr ⟨ascii "PING x\r", 10, rfl, rfl⟩
  exact raisedPrivmsgs_of_line (fun _ (u : Unit) => u) (fun _ _ u => (bcircPluginOk, u)) 3 []
    sampleFields hline hpre (by decide) (by decide) ()

/-- Not the bytes on the wire: `50%` is delivered as `50%%`. -/
theorem raisedPrivmsgs_not_verbatim :
    ¬ ∀ nick mask target text, PrivmsgFields nick mask target →
      (∀ c ∈ privmsgLine nick mask target text, c ≠ 0 ∧ isCrLf c = false) →
      (privmsgLine nick mask target text ++ crlf).length ≤ 511 →
      raisedPrivmsgs (fun _ (u : Unit) => u) (fun _ _ u => (bcircPluginOk, u)) 0
          (privmsgLine nick mask target text ++ crlf) () =
        [(callbackGotPrivmsg, [.server 0, .str nick, .str mask, .str target, .str text])] := by
  intro h
  have hverbatim := h _ _ _ (ascii "50%") sampleFields (by decide +kernel) (by decide)
  revert hverbatim
  decide +kernel

end Bcirc
