import Bcirc.Log

/-!
# Receiving (`server_recv` in `src/server.c`)

Every `recv` result is escaped, cut at CR and LF and handed line by line
to the callbacks of `server_recv`. Nothing is carried over from one result
to the next, and `bcirc_escape_buf` drops the last byte of each: a result
is read as the stream has it exactly when that byte ends a line.
-/

namespace Bcirc

open CProg CStr

def isCrLf (c : UInt8) : Bool := c == 13 || c == 10

def crlf : Str := [13, 10]

def serverIntentionalDc : Int := 0
def serverClosedConnection : Int := 1
def serverTimeout : Int := 2

/-- `sizeof tmpbuf`. -/
def tmpbufSize : Nat := 512

/-- The size of `escaped` and of `to_tokenized`. -/
def escapedSize : Nat := 1024

/-- What `select`, and `recv` after it, report in one round. -/
inductive RecvEvent where
  | selectFails
  | timeout
  | closed
  | data (buf : List UInt8)

/-- The lines cut from one `recv` result. The terminator goes to
`tmpbuf[res]`; a refused escape leaves `escaped` as `malloc` returned it. -/
def recvLines (buf : List UInt8) : Except Fault (List Str) := do
  if tmpbufSize ≤ buf.length then throw .outOfBounds
  match ← bcircEscapeBuf escapedSize (untilNul buf) with
  | none => throw .uninitialized
  | some toTokenized => pure (tokens isCrLf toTokenized)

section Loop

variable {σ : Type} (addRecvdLen : Nat → Prog σ Unit) (executeRecv : Str → Prog σ Int)
  (serverDisconnect : Int → Prog σ Int)

/-- `execute_callbacks(CALLBACK_SERVER_RECV, ..)`, line by line. -/
def handleLines : List Str → Prog σ Unit
  | [] => pure ()
  | line :: lines => do
      let _ ← executeRecv line
      handleLines lines

/-- The `for` loop of `server_recv`, which waits in `select` when there is
nothing more to report. -/
def serverRecv : List RecvEvent → Prog σ Unit
  | [] => pure ()
  | .selectFails :: _ => pure ()
  | .timeout :: _ => do
      let _ ← serverDisconnect serverTimeout
  | .closed :: _ => do
      let _ ← serverDisconnect serverClosedConnection
  | .data buf :: events => do
      addRecvdLen buf.length
      let lines ← liftExcept (recvLines buf)
      handleLines executeRecv lines
      serverRecv events

end Loop

/-! ## The lines of one result -/

/-- A `recv` result, or a stream, after whose last byte no line is open. -/
def EndsLine (buf : List UInt8) : Prop := ∃ a c, isCrLf c ∧ buf = a ++ [c]

/-- The lines a byte string is made of, as plugins are to see them. -/
def linesOf (stream : List UInt8) : List Str := (tokens isCrLf stream).map evenRuns

theorem percent_not_crLf {c : UInt8} (h : isCrLf c) : c ≠ percent := by
  rintro rfl
  cases h

theorem tokens_evenRuns (s : Str) : tokens isCrLf (evenRuns s) = linesOf s := by
  refine tokens_of_cut ?_ ?_ ?_ s
  · intro a d b hd
    exact evenRuns_append_cons a (percent_not_crLf hd) b
  · intro s hs c hc
    rcases mem_evenRuns hc with rfl | hc
    · rfl
    · exact hs c hc
  · intro s
    refine ⟨fun h => ?_, fun h => by rw [h, evenRuns_nil]⟩
    by_contra hne
    exact evenRuns_ne_nil hne h

theorem linesOf_append {a : Str} (ha : a = [] ∨ EndsLine a) (b : Str) :
    linesOf (a ++ b) = linesOf a ++ linesOf b := by
  rcases ha with rfl | ⟨a, c, hc, rfl⟩
  · simp [linesOf]
  · have hb : a ++ [c] ++ b = a ++ c :: b := by simp
    unfold linesOf
    rw [hb, tokens_append_cons a b hc, tokens_concat_delim a hc, List.map_append]

/-- A `recv` result that fits its buffer and holds no NUL. -/
structure Fits (buf : List UInt8) : Prop where
  nonempty : buf ≠ []
  short : buf.length < tmpbufSize
  noNul : 0 ∉ buf

theorem recvLines_eq {buf : List UInt8} (h : Fits buf) :
    recvLines buf = .ok (tokens isCrLf (evenRuns buf).dropLast) := by
  have hnul : untilNul buf = buf := untilNul_of_not_mem h.noNul
  have hlen := length_evenRuns_le buf
  have hshort := h.short
  unfold tmpbufSize at hshort
  have hesc : bcircEscapeBuf escapedSize buf = .ok (some (evenRuns buf).dropLast) :=
    bcircEscapeBuf_eq h.nonempty (by unfold maxLen; omega) (by unfold escapedSize; omega)
  unfold recvLines
  rw [if_neg (Nat.not_le.mpr h.short), hnul, hesc]
  rfl

/-- A line that is handed on is shorter than `to_tokenized`. -/
theorem length_lt_of_recvLines {buf : List UInt8} {lines : List Str}
    (h : recvLines buf = .ok lines) {line : Str} (hline : line ∈ lines) :
    line.length < escapedSize := by
  have hcut : ∃ toTokenized, bcircEscapeBuf escapedSize (untilNul buf) = .ok (some toTokenized) ∧
      lines = tokens isCrLf toTokenized := by
    unfold recvLines at h
    split at h
    · cases h
    · cases hesc : bcircEscapeBuf escapedSize (untilNul buf) with
      | error e =>
          rw [hesc] at h
          cases h
      | ok escaped =>
          rw [hesc] at h
          cases escaped with
          | none => cases h
          | some toTokenized => exact ⟨toTokenized, rfl, (Except.ok.inj h).symm⟩
  obtain ⟨toTokenized, hesc, rfl⟩ := hcut
  have hshort : toTokenized.length < escapedSize := by
    unfold bcircEscapeBuf at hesc
    cases hloop : escapeLoop (untilNul buf) [] with
    | error e =>
        rw [hloop] at hesc
        cases hesc
    | ok out =>
        rw [hloop] at hesc
        rcases out with _ | _ | ⟨c, strCopy⟩
        · cases hesc
        · cases hesc
        · have hrun : (if escapedSize ≤ strCopy.length then throw Fault.outOfBounds
              else pure (some (c :: strCopy).dropLast)) = Except.ok (some toTokenized) := hesc
          split at hrun
          · cases hrun
          · rename_i hfits
            obtain rfl := Option.some.inj (Except.ok.inj hrun)
            rw [List.length_dropLast, List.length_cons]
            omega
  exact (of_mem_tokens hline).2.2.length_le.trans_lt hshort

/-! ## A line among others in one `recv` result -/

theorem linesOf_line {line : Str} (hne : line ≠ []) (hline : ∀ c ∈ line, isCrLf c = false) :
    linesOf line = [evenRuns line] := by
  rw [linesOf, tokens_of_forall_not hline, if_neg hne, List.map_singleton]

theorem tokens_dropLast {delim : UInt8 → Bool} (a b : Str) {d : UInt8} (hd : delim d) :
    tokens delim (a ++ d :: b).dropLast = tokens delim a ++ tokens delim b.dropLast := by
  cases b with
  | nil => rw [List.dropLast_concat, List.dropLast_nil, tokens_nil, List.append_nil]
  | cons c b =>
      rw [List.dropLast_append_of_ne_nil (List.cons_ne_nil _ _),
        List.dropLast_cons_of_ne_nil (List.cons_ne_nil _ _), tokens_append_cons _ _ hd]

/-- A line and the byte that ends it, among others. -/
theorem recvLines_ended {pre line : Str} {d : UInt8} (post : List UInt8) (hd : isCrLf d)
    (hpre : pre = [] ∨ EndsLine pre) (hne : line ≠ []) (hline : ∀ c ∈ line, isCrLf c = false)
    (hnul : 0 ∉ pre ++ line) (hlen : (pre ++ line ++ d :: post).length ≤ 511) :
    ∃ after, recvLines (pre ++ line ++ d :: post) =
      .ok (linesOf pre ++ evenRuns line :: after) := by
  have hd0 : d ≠ 0 := by
    rintro rfl
    cases hd
  have hbuf : untilNul (pre ++ line ++ d :: post) = (pre ++ line) ++ d :: untilNul post := by
    rw [untilNul_append hnul, untilNul, List.takeWhile_cons_of_pos (by simpa using hd0)]
    rfl
  have hnulBuf := zero_not_mem_untilNul (pre ++ line ++ d :: post)
  have hle : (untilNul (pre ++ line ++ d :: post)).length ≤ 511 :=
    (List.Sublist.length_le (List.takeWhile_sublist _)).trans hlen
  have hfits : Fits (untilNul (pre ++ line ++ d :: post)) :=
    ⟨by rw [hbuf]; simp, by unfold tmpbufSize; omega, hnulBuf⟩
  have hsame : recvLines (pre ++ line ++ d :: post) =
      recvLines (untilNul (pre ++ line ++ d :: post)) := by
    have hlong : ¬ tmpbufSize ≤ (pre ++ line ++ d :: post).length := by
      unfold tmpbufSize
      omega
    unfold recvLines
    rw [if_neg hlong, if_neg (Nat.not_le.mpr hfits.short), untilNul_of_not_mem hnulBuf]
  refine ⟨tokens isCrLf (evenRuns (untilNul post)).dropLast, ?_⟩
  rw [hsame, recvLines_eq hfits, hbuf, evenRuns_append_cons _ (percent_not_crLf hd),
    tokens_dropLast _ _ hd, tokens_evenRuns, linesOf_append hpre, linesOf_line hne hline,
    List.append_assoc]
  rfl

theorem recvLines_line {pre line : Str} (post : List UInt8) (hpre : pre = [] ∨ EndsLine pre)
    (hne : line ≠ []) (hline : ∀ c ∈ line, isCrLf c = false) (hnul : 0 ∉ pre ++ line)
    (hlen : (pre ++ line ++ crlf ++ post).length ≤ 511) :
    ∃ after, recvLines (pre ++ line ++ crlf ++ post) =
      .ok (linesOf pre ++ evenRuns line :: after) := by
  have hcut : pre ++ line ++ crlf ++ post = pre ++ line ++ 13 :: 10 :: post := by simp [crlf]
  rw [hcut] at hlen ⊢
  exact recvLines_ended (10 :: post) rfl hpre hne hline hnul hlen

end Bcirc
