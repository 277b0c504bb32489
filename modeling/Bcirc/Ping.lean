import Bcirc.Core

/-!
# The answer to PING

`handle_ping` sees the line after `bcirc_escape_buf`, compares its first
word and sends the line back with one byte patched. The token comes back
as it was escaped, not as it was sent.
-/

namespace Bcirc

open CProg CStr

/-- `PING p`, without the line end. -/
def pingLine (p : Str) : Str := ascii "PING" ++ 32 :: p

/-- The command of a message: its first word, or the second one when the
first is a prefix. -/
def commandWord (line : Str) : Option Str :=
  match strtokR isSpace line with
  | (none, _) => none
  | (some word, save) => if word.head? = some 58 then (strtokR isSpace save).1 else some word

theorem strtokR_pingLine (p : Str) :
    strtokR isSpace (pingLine p) = (some (ascii "PING"), p) :=
  strtokR_append_cons (by decide) (by decide +kernel) rfl

theorem evenRuns_pingLine (p : Str) : evenRuns (pingLine p) = pingLine (evenRuns p) := by
  have h32 : (32 : UInt8) ≠ percent := by decide
  have hcommand : evenRuns (ascii "PING") = ascii "PING" := evenRuns_of_not_mem (by decide)
  rw [pingLine, evenRuns_append_cons _ h32, hcommand]
  rfl

theorem pongLine_pingLine (p : Str) :
    pongLine (pingLine p) = ascii "PONG " ++ p ++ crlf := rfl

section HandlePing

variable {φ : Type} (raise : Str → List Arg → Prog (Bot φ World) Int) (srv : Nat)

theorem handlePing_str (line : Str) :
    handlePing raise [.server srv, .str line] =
      if line.length < 7 then pure bcircPluginContinue
      else if (strtokR isSpace line).1 = some (ascii "PING") then do
        let _ ← serverSend raise (some (pongLine line)) srv
        pure bcircPluginOk
      else pure bcircPluginContinue := by
  show (if line.length < 7 then (pure bcircPluginContinue : Prog (Bot φ World) Int) else _) = _
  split
  · rfl
  · rcases strtokR isSpace line with ⟨word, save⟩
    cases word with
    | none => rfl
    | some word =>
        by_cases hword : word = ascii "PING"
        · subst hword
          rfl
        · have hsome : ¬ some word = some (ascii "PING") := fun h => hword (Option.some.inj h)
          rw [if_neg hsome]
          exact if_pos hword

/-- A PING with a token of two bytes or more is sent back with one call. -/
theorem handlePing_pingLine {p : Str} (hp : 2 ≤ p.length) :
    handlePing raise [.server srv, .str (pingLine p)] = (do
      let _ ← serverSend raise (some (ascii "PONG " ++ p ++ crlf)) srv
      pure bcircPluginOk) := by
  have hlen : ¬ (pingLine p).length < 7 := by
    have h5 : (pingLine p).length = 5 + p.length := by
      simp only [pingLine, List.length_append, List.length_cons]
      show 4 + (p.length + 1) = _
      omega
    omega
  rw [handlePing_str, if_neg hlen, strtokR_pingLine, if_pos rfl, pongLine_pingLine]

theorem commandWord_of_first {line : Str}
    (h : (strtokR isSpace line).1 = some (ascii "PING")) :
    commandWord line = some (ascii "PING") := by
  rcases hfirst : strtokR isSpace line with ⟨word, save⟩
  rw [hfirst] at h
  obtain rfl : word = some (ascii "PING") := h
  unfold commandWord
  rw [hfirst]
  rfl

theorem handlePing_other {line : Str} (h : commandWord line ≠ some (ascii "PING")) :
    handlePing raise [.server srv, .str line] = pure bcircPluginContinue := by
  have hfirst : ¬ (strtokR isSpace line).1 = some (ascii "PING") := fun hping =>
    h (commandWord_of_first hping)
  rw [handlePing_str, if_neg hfirst, ite_self]

/-- A PING that arrives within one `recv` result is dispatched as one line
and answered with one PONG that carries its token, the runs of `%` made
even; a line with another command gets no answer. -/
theorem handlePing_recv {p pre : Str} (post : List UInt8)
    (hline : ∀ c ∈ p, isCrLf c = false) (hnul : 0 ∉ pre ++ p) (hpre : pre = [] ∨ EndsLine pre)
    (hlen : (pre ++ pingLine p ++ crlf ++ post).length ≤ 511)
    (htoken : 2 ≤ (evenRuns p).length) :
    (∃ after, recvLines (pre ++ pingLine p ++ crlf ++ post) =
      .ok (linesOf pre ++ pingLine (evenRuns p) :: after)) ∧
    handlePing raise [.server srv, .str (pingLine (evenRuns p))] = (do
      let _ ← serverSend raise (some (ascii "PONG " ++ evenRuns p ++ crlf)) srv
      pure bcircPluginOk) ∧
    ∀ line, commandWord line ≠ some (ascii "PING") →
      handlePing raise [.server srv, .str line] = pure bcircPluginContinue := by
  have hword : ∀ c ∈ ascii "PING", c ≠ 0 ∧ isCrLf c = false := by decide +kernel
  have hping : ∀ c ∈ pingLine p, isCrLf c = false := by
    intro c hc
    rcases List.mem_append.mp hc with hc | hc
    · exact (hword c hc).2
    · rcases List.mem_cons.mp hc with rfl | hc
      · rfl
      · exact hline c hc
  have hzero : 0 ∉ pre ++ pingLine p := by
    intro h0
    rcases List.mem_append.mp h0 with h0 | h0
    · exact hnul (List.mem_append_left _ h0)
    · rcases List.mem_append.mp h0 with h0 | h0
      · exact (hword 0 h0).1 rfl
      · rcases List.mem_cons.mp h0 with h0 | h0
        · cases h0
        · exact hnul (List.mem_append_right _ h0)
  obtain ⟨after, hafter⟩ := recvLines_line post hpre (by simp [pingLine]) hping hzero hlen
  rw [evenRuns_pingLine] at hafter
  exact ⟨⟨after, hafter⟩, handlePing_pingLine raise srv htoken,
    fun line hother => handlePing_other raise srv hother⟩

/-- `PING a%b` between two other lines. -/
theorem handlePing_recv_sample :
    (∃ after, recvLines (ascii "X\r\n" ++ pingLine (ascii "a%b") ++ crlf ++ ascii "Y\r\n") =
      .ok (linesOf (ascii "X\r\n") ++ pingLine (evenRuns (ascii "a%b")) :: after)) ∧
    handlePing (φ := Unit) idleRaise [.server 3, .str (pingLine (evenRuns (ascii "a%b")))] = (do
      let _ ← serverSend idleRaise (some (ascii "PONG " ++ evenRuns (ascii "a%b") ++ crlf)) 3
      pure bcircPluginOk) ∧
    ∀ line, commandWord line ≠ some (ascii "PING") →
      handlePing (φ := Unit) idleRaise [.server 3, .str line] = pure bcircPluginContinue := by
  have hline : ∀ c ∈ ascii "a%b", isCrLf c = false := by decide +kernel
  have hpre : ascii "X\r\n" = [] ∨ EndsLine (ascii "X\r\n") :=
    Or.inr ⟨ascii "X\r", 10, rfl, rfl⟩
  exact handlePing_recv idleRaise 3 (ascii "Y\r\n") hline (by decide) hpre (by decide) (by decide)

end HandlePing

/-- What a single server is sent while one `recv` result is handled and no
callback is registered for `server_send`. -/
def pongsSent (buf : List UInt8) : List Str :=
  (endState (serverRecv (σ := Bot Unit World) (fun _ => pure ⟨⟩)
    (fun line => handlePing idleRaise [.server 0, .str line]) (fun _ => pure 0) [.data buf]
    ⟨⟨[], [], 0⟩, sampleWorld⟩)).world.sends.map (·.buf)

/-- Not the token of the line: `a%b` comes back as `a%%b`. -/
theorem pongsSent_not_verbatim :
    ¬ ∀ p, p ≠ [] → (∀ c ∈ p, c ≠ 0 ∧ isCrLf c = false) →
      (pingLine p ++ crlf).length ≤ 511 →
      pongsSent (pingLine p ++ crlf) = [ascii "PONG " ++ p ++ crlf] := by
  intro h
  have hsent : pongsSent (pingLine (ascii "a%b") ++ crlf) =
      [ascii "PONG " ++ ascii "a%%b" ++ crlf] := by decide +kernel
  have hverbatim := h (ascii "a%b") (by decide) (by decide +kernel) (by decide)
  rw [hsent] at hverbatim
  revert hverbatim
  decide +kernel

end Bcirc
