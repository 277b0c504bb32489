import Bcirc.CArray
import Bcirc.ServerRecv

/-!
# The arrays a `recv` result passes through (`src/server.c`, `src/log.c`)

`server_recv` writes the bytes to `tmpbuf`, a terminator behind them, the
escaped text to `str_copy`, a terminator over its last byte, and copies the
rest to `escaped` and to `to_tokenized`. `ServerRecv` says what lines come
of it; here every write has its array and its index (`recvStores`), and both
say the same (`recvLines_eq_recvStores`).
-/

namespace Bcirc

open CProg CStr CArray

/-- The arrays of one round, with whatever they hold before it. -/
structure RecvMemory where
  tmpbuf : List UInt8
  strCopy : List UInt8
  escaped : List UInt8
  toTokenized : List UInt8
  length_tmpbuf : tmpbuf.length = tmpbufSize
  length_strCopy : strCopy.length = maxLen
  length_escaped : escaped.length = escapedSize
  length_toTokenized : toTokenized.length = escapedSize

/-! ## The writes -/

/-- The `while` loop of `bcirc_escape_buf` with `str_copy` and
`str_copy_len`; `none` is its `return -1`. -/
def escapeStores : Str → List UInt8 → Nat → Except Fault (Option (List UInt8 × Nat))
  | [], strCopy, strCopyLen => .ok (some (strCopy, strCopyLen))
  | c :: str, strCopy, strCopyLen =>
      if maxLen ≤ strCopyLen then .ok none
      else do
        let strCopy ← store strCopy strCopyLen c
        if c ≠ percent then escapeStores str strCopy (strCopyLen + 1)
        else do
          let strCopy ← store strCopy (strCopyLen + 1 : Nat) percent
          match str with
          | [] => .ok (some (strCopy, strCopyLen + 2))
          | d :: rest =>
              if d = percent then escapeStores rest strCopy (strCopyLen + 2)
              else escapeStores (d :: rest) strCopy (strCopyLen + 2)

/-- `bcirc_escape_buf(str, escaped)`: the buffer `escaped` after it. -/
def escapeInto (strCopy : List UInt8) (str : Str) (escaped : List UInt8) :
    Except Fault (List UInt8) := do
  match ← escapeStores str strCopy 0 with
  | none => pure escaped
  | some (strCopy, strCopyLen) =>
      let strCopy ← store strCopy (strCopyLen - 1 : Int) 0
      storeAll escaped 0 (untilNul strCopy ++ [0])

/-- The bytes `strncpy(_, src, n)` writes. -/
def strncpyBytes (n : Nat) (src : List UInt8) : List UInt8 :=
  (untilNul src ++ List.replicate n 0).take n

/-- From `recv` to `strtok_r`: the array `to_tokenized`. -/
def recvStores (m : RecvMemory) (buf : List UInt8) : Except Fault (List UInt8) := do
  let tmpbuf ← storeAll m.tmpbuf 0 buf
  let tmpbuf ← store tmpbuf buf.length 0
  let escaped ← escapeInto m.strCopy (untilNul tmpbuf) m.escaped
  storeAll m.toTokenized 0 (strncpyBytes escapedSize escaped)

/-! ## What the escape leaves in its arrays -/

/-- `str_copy` holds what `escapeLoop` has collected. -/
theorem escapeStores_filled {junk : List UInt8} (hjunk : junk.length = maxLen) (str : Str)
    (strCopy : Str) :
    escapeStores str (filled junk strCopy) strCopy.length =
      (escapeLoop str strCopy).map
        (·.map fun strCopy => (filled junk strCopy, strCopy.length)) := by
  have hpair : ∀ {c : UInt8} {strCopy : Str}, ¬maxLen ≤ strCopy.length →
      ¬maxLen ≤ strCopy.length + 1 →
      store (filled junk (strCopy ++ [c])) (strCopy.length + 1 : Nat) percent =
        .ok (filled junk (strCopy ++ [c, percent])) := by
    intro c strCopy hlt hlt2
    have hsecond : store (filled junk (strCopy ++ [c])) (strCopy ++ [c]).length percent =
        .ok (filled junk (strCopy ++ [c] ++ [percent])) :=
      store_filled (by rw [List.length_append, List.length_singleton]; omega) percent
    rwa [List.length_append, List.length_singleton, List.append_assoc] at hsecond
  induction str, strCopy using escapeLoop.induct with
  | case1 strCopy => rfl
  | case2 c str strCopy hfull =>
      rw [escapeStores, if_pos hfull, escapeLoop.eq_def]
      simp only [if_pos hfull]
      rfl
  | case3 c str strCopy hlt hc ih =>
      rw [List.length_append, List.length_singleton] at ih
      rw [escapeStores, if_neg hlt, store_filled (by omega), escapeLoop.eq_def]
      simp only [if_neg hlt, if_pos hc]
      exact ih
  | case4 c str strCopy hlt hc hfull =>
      have hstore : store (filled junk (strCopy ++ [c])) (strCopy.length + 1 : Nat) percent =
          .error .outOfBounds := by
        have hlast : store (filled junk (strCopy ++ [c])) (strCopy ++ [c]).length percent =
            .error .outOfBounds :=
          store_full (by rw [List.length_append, List.length_singleton]; omega) percent
        rwa [List.length_append, List.length_singleton] at hlast
      rw [escapeStores.eq_def, escapeLoop.eq_def]
      simp only [if_neg hlt, if_neg hc, if_pos hfull]
      rw [store_filled (by omega), ok_bind, hstore]
      rfl
  | case5 c strCopy hlt hc hlt2 =>
      obtain rfl : c = percent := not_not.mp hc
      rw [escapeStores.eq_def, escapeLoop.eq_def]
      simp only [if_neg hlt, if_neg hc, if_neg hlt2]
      rw [store_filled (by omega), ok_bind, hpair hlt hlt2, ok_bind]
      simp only [Except.map, Option.map_some, List.length_append]
      rfl
  | case6 c strCopy hlt hc hlt2 rest ih =>
      obtain rfl : c = percent := not_not.mp hc
      rw [List.length_append] at ih
      rw [escapeStores.eq_def, escapeLoop.eq_def]
      simp only [if_neg hlt, if_neg hc, if_neg hlt2, if_true]
      rw [store_filled (by omega), ok_bind, hpair hlt hlt2, ok_bind]
      exact ih
  | case7 c strCopy hlt hc hlt2 d rest hd ih =>
      obtain rfl : c = percent := not_not.mp hc
      rw [List.length_append] at ih
      rw [escapeStores.eq_def, escapeLoop.eq_def]
      simp only [if_neg hlt, if_neg hc, if_neg hlt2, if_neg hd]
      rw [store_filled (by omega), ok_bind, hpair hlt hlt2, ok_bind]
      exact ih

/-! ## The whole way -/

theorem untilNul_filled {junk s : List UInt8} : untilNul (filled junk (s ++ [0])) = untilNul s := by
  have hcut : ∀ rest : List UInt8, untilNul (s ++ 0 :: rest) = untilNul s := by
    intro rest
    induction s with
    | nil => rfl
    | cons c s ih =>
        by_cases hc : c = 0
        · rw [hc]
          rfl
        · simpa [untilNul, hc] using ih
  rw [filled, List.append_assoc]
  exact hcut _

/-- What `strtok_r` is given: the text, and NUL bytes up to the end. -/
def tokenized (buf : List UInt8) : List UInt8 :=
  strncpyBytes escapedSize (evenRuns (untilNul buf)).dropLast

theorem zero_not_mem_escaped (buf : List UInt8) : 0 ∉ (evenRuns (untilNul buf)).dropLast := by
  intro h0
  rcases mem_evenRuns (List.dropLast_subset _ h0) with hpercent | hbuf
  · exact absurd hpercent (by decide)
  · exact zero_not_mem_untilNul buf hbuf

theorem length_escaped_lt {buf : List UInt8} (hshort : buf.length < tmpbufSize) :
    (evenRuns (untilNul buf)).length < escapedSize := by
  have hle := length_evenRuns_le (untilNul buf)
  have hcut : (untilNul buf).length ≤ buf.length := (List.takeWhile_sublist _).length_le
  unfold tmpbufSize at hshort
  unfold escapedSize
  omega

section Receive

variable (m : RecvMemory) {buf : List UInt8}

theorem recv_tmpbuf (hle : buf.length ≤ tmpbufSize) :
    storeAll m.tmpbuf 0 buf = .ok (filled m.tmpbuf buf) :=
  storeAll_start (by rwa [m.length_tmpbuf])

theorem store_terminator (hshort : buf.length < tmpbufSize) :
    store (filled m.tmpbuf buf) buf.length 0 = .ok (filled m.tmpbuf (buf ++ [0])) :=
  store_filled (by rw [m.length_tmpbuf]; exact hshort) 0

/-- The escaped text, its last byte cut off, when it fits. -/
theorem escapeInto_eq (hne : untilNul buf ≠ [])
    (hlen : (evenRuns (untilNul buf)).length ≤ escapedSize) :
    escapeInto m.strCopy (untilNul buf) m.escaped =
      .ok (filled m.escaped ((evenRuns (untilNul buf)).dropLast ++ [0])) := by
  have hfits : ([] : Str).length + (evenRuns (untilNul buf)).length ≤ maxLen := by
    unfold maxLen
    unfold escapedSize at hlen
    rw [List.length_nil]
    omega
  have hloop := escapeStores_filled m.length_strCopy (untilNul buf) []
  rw [escapeLoop_eq hfits, List.nil_append, filled_nil, List.length_nil] at hloop
  obtain ⟨text, c, htext⟩ : ∃ text c, evenRuns (untilNul buf) = text ++ [c] :=
    ⟨_, _, (List.dropLast_concat_getLast (evenRuns_ne_nil hne)).symm⟩
  have hnul := zero_not_mem_escaped buf
  rw [htext] at hlen hloop hnul ⊢
  rw [List.dropLast_concat] at hnul ⊢
  rw [List.length_append, List.length_singleton] at hlen
  have hshort : text.length < m.strCopy.length := by
    rw [m.length_strCopy]
    unfold maxLen
    unfold escapedSize at hlen
    omega
  have hcopied : storeAll m.escaped 0 (text ++ [0]) = .ok (filled m.escaped (text ++ [0])) :=
    storeAll_start (by rwa [m.length_escaped, List.length_append, List.length_singleton])
  unfold escapeInto
  rw [hloop]
  simp only [Except.map, Option.map_some, ok_bind]
  rw [store_last hshort, ok_bind, untilNul_filled, untilNul_of_not_mem hnul, hcopied]

theorem length_strncpyBytes (n : Nat) (src : List UInt8) : (strncpyBytes n src).length = n := by
  rw [strncpyBytes, List.length_take, List.length_append, List.length_replicate]
  omega

/-- There is a NUL behind a text that is shorter than `n`. -/
theorem strncpyBytes_ended {n : Nat} {text : Str} (hnul : 0 ∉ text) (hlen : text.length < n) :
    ∃ rest, strncpyBytes n text = text ++ 0 :: rest := by
  obtain ⟨room, hroom⟩ : ∃ room, n = text.length + (room + 1) :=
    ⟨n - text.length - 1, by omega⟩
  refine ⟨List.replicate room 0, ?_⟩
  have hmin : min (n - text.length) n = room + 1 := by omega
  rw [strncpyBytes, untilNul_of_not_mem hnul, List.take_append,
    List.take_of_length_le hlen.le, List.take_replicate, hmin, List.replicate_succ]

theorem length_tokenized (buf : List UInt8) : (tokenized buf).length = escapedSize :=
  length_strncpyBytes escapedSize _

theorem tokenized_ended (hshort : buf.length < tmpbufSize) :
    ∃ rest, tokenized buf = (evenRuns (untilNul buf)).dropLast ++ 0 :: rest := by
  refine strncpyBytes_ended (zero_not_mem_escaped buf) ?_
  have hlen := length_escaped_lt hshort
  rw [List.length_dropLast]
  omega

theorem recvStores_eq (hshort : buf.length < tmpbufSize) (hne : untilNul buf ≠ []) :
    recvStores m buf = .ok (tokenized buf) := by
  have hcopy : strncpyBytes escapedSize
      (filled m.escaped ((evenRuns (untilNul buf)).dropLast ++ [0])) = tokenized buf := by
    rw [tokenized, strncpyBytes, untilNul_filled]
    rfl
  have hlast : storeAll m.toTokenized 0 (tokenized buf) = .ok (tokenized buf) :=
    storeAll_whole (by rw [length_tokenized, m.length_toTokenized])
  unfold recvStores
  rw [recv_tmpbuf m (Nat.le_of_lt hshort), ok_bind, store_terminator m hshort, ok_bind,
    untilNul_filled, escapeInto_eq m hne (length_escaped_lt hshort).le,
    ok_bind, hcopy, hlast]

/-- The terminator has no place behind a full buffer. -/
theorem recvStores_full (hfull : buf.length = tmpbufSize) :
    recvStores m buf = .error .outOfBounds := by
  have hend : store (filled m.tmpbuf buf) buf.length 0 = .error .outOfBounds :=
    store_full (by rw [m.length_tmpbuf]; exact hfull) 0
  unfold recvStores
  rw [recv_tmpbuf m (Nat.le_of_eq hfull), ok_bind, hend, error_bind]

/-- The last byte of an empty text is in front of `str_copy`. -/
theorem recvStores_empty (hshort : buf.length < tmpbufSize) (hempty : untilNul buf = []) :
    recvStores m buf = .error .outOfBounds := by
  have hescape : escapeInto m.strCopy [] m.escaped = .error .outOfBounds := by
    unfold escapeInto
    rw [escapeStores, ok_bind]
    exact congrArg (· >>= _) (store_before m.strCopy 0)
  unfold recvStores
  rw [recv_tmpbuf m (Nat.le_of_lt hshort), ok_bind, store_terminator m hshort, ok_bind,
    untilNul_filled, hempty, hescape, error_bind]

/-- The writes come to the lines of `recvLines`, for all that `recv` can
return. -/
theorem recvLines_eq_recvStores (hle : buf.length ≤ tmpbufSize) :
    recvLines buf = (recvStores m buf).map fun toTokenized =>
      tokens isCrLf (untilNul toTokenized) := by
  rcases Nat.lt_or_eq_of_le hle with hshort | hfull
  · refine (if_neg (Nat.not_le.mpr hshort)).trans ?_
    by_cases hempty : untilNul buf = []
    · rw [hempty, recvStores_empty m hshort hempty]
      rfl
    · obtain ⟨rest, hrest⟩ := tokenized_ended hshort
      have hlen := length_escaped_lt hshort
      have hescape := bcircEscapeBuf_eq hempty (by unfold maxLen; unfold escapedSize at hlen; omega)
        hlen.le
      rw [hescape, recvStores_eq m hshort hempty, hrest]
      simp only [Except.map, ok_bind]
      have hend : untilNul (0 :: rest) = [] := rfl
      rw [untilNul_append (zero_not_mem_escaped buf), hend, List.append_nil]
      rfl
  · rw [recvStores_full m hfull]
    unfold recvLines
    rw [if_pos hfull.ge]
    rfl

end Receive

/-! ## Every write inside its array -/

/-- No write of a round misses its array, and `strtok_r` finds an end. -/
def WritesInside (m : RecvMemory) (buf : List UInt8) : Prop :=
  ∃ toTokenized, recvStores m buf = .ok toTokenized ∧ 0 ∈ toTokenized

theorem untilNul_eq_nil_iff {buf : List UInt8} (hne : buf ≠ []) :
    untilNul buf = [] ↔ buf.head? = some 0 := by
  cases buf with
  | nil => exact absurd rfl hne
  | cons c buf =>
      by_cases hc : c = 0
      · simp [untilNul, hc]
      · simp [untilNul, hc]

/-- They do unless the result fills `tmpbuf` or starts with a NUL. -/
theorem writesInside_iff (m : RecvMemory) {buf : List UInt8} (hne : buf ≠ [])
    (hle : buf.length ≤ tmpbufSize) :
    WritesInside m buf ↔ buf.length < tmpbufSize ∧ buf.head? ≠ some 0 := by
  constructor
  · rintro ⟨toTokenized, hstores, -⟩
    have hshort : buf.length < tmpbufSize := by
      refine lt_of_le_of_ne hle fun hfull => ?_
      rw [recvStores_full m hfull] at hstores
      cases hstores
    refine ⟨hshort, fun hnul => ?_⟩
    rw [recvStores_empty m hshort ((untilNul_eq_nil_iff hne).mpr hnul)] at hstores
    cases hstores
  · rintro ⟨hshort, hnul⟩
    have htext : untilNul buf ≠ [] := fun hempty => hnul ((untilNul_eq_nil_iff hne).mp hempty)
    obtain ⟨rest, hrest⟩ := tokenized_ended hshort
    refine ⟨tokenized buf, recvStores_eq m hshort htext, ?_⟩
    rw [hrest]
    exact List.mem_append_right _ List.mem_cons_self

/-- Arrays that hold NUL bytes only. -/
def zeroed : RecvMemory where
  tmpbuf := List.replicate tmpbufSize 0
  strCopy := List.replicate maxLen 0
  escaped := List.replicate escapedSize 0
  toTokenized := List.replicate escapedSize 0
  length_tmpbuf := List.length_replicate
  length_strCopy := List.length_replicate
  length_escaped := List.length_replicate
  length_toTokenized := List.length_replicate

theorem writesInside_iff_ping : WritesInside zeroed (ascii "PING :irc\r\n") :=
  (writesInside_iff zeroed (by decide +kernel) (by decide +kernel)).mpr
    ⟨by decide +kernel, by decide +kernel⟩

/-- A result of 512 bytes, and one NUL byte. -/
theorem not_writesInside :
    ¬ WritesInside zeroed (List.replicate tmpbufSize 97) ∧ ¬ WritesInside zeroed [0] := by
  constructor
  · rintro ⟨toTokenized, hstores, -⟩
    rw [recvStores_full zeroed List.length_replicate] at hstores
    cases hstores
  · rintro ⟨toTokenized, hstores, -⟩
    rw [recvStores_empty zeroed (by decide) rfl] at hstores
    cases hstores

end Bcirc
