import Bcirc.PluginHandler
import Bcirc.ServerRecv

/-!
# Fragmentation of the stream

What the plugins see of a stream, for every way `recv` may cut it. A cut
after CR or LF loses nothing, and such cuts all give the lines of the
stream. Any other cut shows: a dropped byte that is not a `%` is missing
from all the lines together (`plainCount`), and a dropped `%` leaves a
line shorter than the one it stands for.
-/

namespace Bcirc

open CProg CStr

variable {ρ : Type}

/-! ## The lines dispatched -/

/-- The callbacks of one line: they return `(handle line r).1` and leave
`(handle line r).2`. The lines are written down as they come. -/
def recordLine (handle : Str → ρ → Int × ρ) (line : Str) : Prog (ρ × List Str) Int :=
  fun s => .ok (handle line s.1).1 ((handle line s.1).2, s.2 ++ [line])

/-- The lines `server_recv` dispatches when `recv` returns `cut`. -/
def dispatchedLines (count : Nat → ρ → ρ) (handle : Str → ρ → Int × ρ)
    (cut : List (List UInt8)) (r : ρ) : List Str :=
  (endState (serverRecv (fun n => modify fun s => (count n s.1, s.2)) (recordLine handle)
    (fun _ => pure 0) (cut.map .data) (r, []))).2

/-- A way to cut `stream` into `recv` results of 1 to 511 bytes. -/
structure IsCut (stream : List UInt8) (cut : List (List UInt8)) : Prop where
  flatten : cut.flatten = stream
  sizes : ∀ buf ∈ cut, 1 ≤ buf.length ∧ buf.length ≤ 511

/-- A stream of CRLF-terminated lines. -/
structure WireStream (stream : List UInt8) : Prop where
  noNul : 0 ∉ stream
  ends : stream = [] ∨ ∃ s, stream = s ++ crlf

/-- The lines of one `recv` result, its last byte dropped. -/
def linesIn (buf : List UInt8) : List Str := tokens isCrLf (evenRuns buf).dropLast

theorem IsCut.fits {stream : List UInt8} {cut : List (List UInt8)} (h : IsCut stream cut)
    (hstream : WireStream stream) : ∀ buf ∈ cut, Fits buf := by
  intro buf hbuf
  obtain ⟨hpos, hle⟩ := h.sizes buf hbuf
  refine ⟨List.length_pos_iff.mp hpos, ?_, fun h0 => hstream.noNul ?_⟩
  · unfold tmpbufSize
    omega
  · rw [← h.flatten]
    exact List.mem_flatten.mpr ⟨buf, hbuf, h0⟩

theorem handleLines_record (handle : Str → ρ → Int × ρ) (lines : List Str) (r : ρ)
    (log : List Str) :
    ∃ r', handleLines (recordLine handle) lines (r, log) = .ok () (r', log ++ lines) := by
  induction lines generalizing r log with
  | nil => exact ⟨r, by simp [handleLines]⟩
  | cons line lines ih =>
      obtain ⟨r', hr'⟩ := ih (handle line r).2 (log ++ [line])
      refine ⟨r', ?_⟩
      rw [List.append_assoc, List.singleton_append] at hr'
      have hline : recordLine handle line (r, log) =
          .ok (handle line r).1 ((handle line r).2, log ++ [line]) := rfl
      rw [handleLines, bind_ok hline]
      exact hr'

theorem dispatchedLines_eq (count : Nat → ρ → ρ) (handle : Str → ρ → Int × ρ)
    {cut : List (List UInt8)} (hfits : ∀ buf ∈ cut, Fits buf) (r : ρ) :
    dispatchedLines count handle cut r = cut.flatMap linesIn := by
  have hrun : ∀ r log, (endState (serverRecv (fun n => modify fun s => (count n s.1, s.2))
      (recordLine handle) (fun _ => pure 0) (cut.map .data) (r, log))).2 =
      log ++ cut.flatMap linesIn := by
    induction cut with
    | nil =>
        intro r log
        simp [serverRecv]
    | cons buf cut ih =>
        intro r log
        obtain ⟨r', hr'⟩ :=
          handleLines_record handle (linesIn buf) (count buf.length r) log
        rw [List.map_cons, serverRecv, modify_bind_run,
          recvLines_eq (hfits buf List.mem_cons_self), liftExcept_ok, pure_bind_run]
        show (endState ((handleLines (recordLine handle) (linesIn buf) >>= _) _)).2 = _
        rw [bind_ok hr', ih (fun b hb => hfits b (List.mem_cons_of_mem buf hb)),
          List.flatMap_cons, List.append_assoc]
  exact hrun r []

/-! ## Cuts at the end of a line -/

theorem linesIn_of_endsLine {buf : List UInt8} (hend : EndsLine buf) :
    linesIn buf = linesOf buf := by
  obtain ⟨a, c, hc, rfl⟩ := hend
  have hrun : evenRuns (a ++ [c]) = evenRuns a ++ [c] := by
    rw [evenRuns_append_cons a (percent_not_crLf hc), evenRuns_nil]
  unfold linesIn linesOf
  rw [hrun, List.dropLast_concat, tokens_evenRuns, tokens_concat_delim a hc]
  rfl

theorem flatMap_linesIn_of_endsLine {cut : List (List UInt8)}
    (hend : ∀ buf ∈ cut, EndsLine buf) :
    cut.flatMap linesIn = linesOf cut.flatten := by
  induction cut with
  | nil => simp [linesOf]
  | cons buf cut ih =>
      have hbuf := hend buf List.mem_cons_self
      rw [List.flatMap_cons, List.flatten_cons, linesOf_append (Or.inr hbuf),
        linesIn_of_endsLine hbuf, ih fun b hb => hend b (List.mem_cons_of_mem buf hb)]

/-! ## A dropped byte that is no `%` -/

def isPlain (c : UInt8) : Bool := c != percent && !isCrLf c

def plainCount (lines : List Str) : Nat := lines.flatten.countP isPlain

theorem countP_evenRuns (s : Str) : (evenRuns s).countP isPlain = s.countP isPlain := by
  have hcount : ∀ s : Str, s.countP isPlain = (s.filter (· ≠ percent)).countP isPlain := by
    intro s
    rw [List.countP_filter]
    refine List.countP_congr fun c _ => ?_
    simp +contextual [isPlain]
  rw [hcount (evenRuns s), filter_evenRuns, ← hcount s]

theorem countP_flatten_tokens (s : Str) :
    plainCount (tokens isCrLf s) = s.countP isPlain := by
  rw [plainCount, flatten_tokens, List.countP_filter]
  refine List.countP_congr fun c _ => ?_
  simp [isPlain]

theorem plainCount_linesOf (s : Str) : plainCount (linesOf s) = s.countP isPlain := by
  rw [← tokens_evenRuns, countP_flatten_tokens, countP_evenRuns]

theorem plainCount_linesIn_le (buf : List UInt8) :
    plainCount (linesIn buf) ≤ buf.countP isPlain := by
  rw [linesIn, countP_flatten_tokens, ← countP_evenRuns buf]
  exact List.Sublist.countP_le (List.dropLast_sublist _)

theorem plainCount_linesIn_lt {a : Str} {c : UInt8} (hc : isPlain c) :
    plainCount (linesIn (a ++ [c])) < (a ++ [c]).countP isPlain := by
  have hne : c ≠ percent := by
    rintro rfl
    cases hc
  rw [linesIn, countP_flatten_tokens, ← countP_evenRuns (a ++ [c]),
    evenRuns_append_cons a hne, evenRuns_nil, List.dropLast_concat, List.countP_append]
  simp [hc]

theorem plainCount_append (l₁ l₂ : List Str) :
    plainCount (l₁ ++ l₂) = plainCount l₁ + plainCount l₂ := by
  rw [plainCount, List.flatten_append, List.countP_append]
  rfl

theorem plainCount_flatMap_le (cut : List (List UInt8)) :
    plainCount (cut.flatMap linesIn) ≤ cut.flatten.countP isPlain := by
  induction cut with
  | nil => simp [plainCount]
  | cons buf cut ih =>
      have hbuf := plainCount_linesIn_le buf
      rw [List.flatMap_cons, plainCount_append, List.flatten_cons, List.countP_append]
      omega

theorem plainCount_flatMap_lt {cut : List (List UInt8)} {a : Str} {c : UInt8}
    (hmem : a ++ [c] ∈ cut) (hc : isPlain c) :
    plainCount (cut.flatMap linesIn) < cut.flatten.countP isPlain := by
  obtain ⟨before, after, rfl⟩ := List.append_of_mem hmem
  have hbuf := plainCount_linesIn_lt (a := a) hc
  have hbefore := plainCount_flatMap_le before
  have hafter := plainCount_flatMap_le after
  rw [List.flatMap_append, List.flatMap_cons, plainCount_append, plainCount_append,
    List.flatten_append, List.flatten_cons, List.countP_append, List.countP_append]
  omega

/-! ## A dropped `%` -/

/-- Every string is a part without open line and the line left open. -/
theorem exists_open_line (s : Str) :
    ∃ pre t, s = pre ++ t ∧ (pre = [] ∨ EndsLine pre) ∧ ∀ c ∈ t, isCrLf c = false := by
  induction s using delim_induction isCrLf with
  | free s hs => exact ⟨[], s, rfl, Or.inl rfl, hs⟩
  | cut u d r hu hd ih =>
      obtain ⟨pre, t, rfl, hpre, ht⟩ := ih
      refine ⟨u ++ d :: pre, t, by simp, Or.inr ?_, ht⟩
      rcases hpre with rfl | ⟨a, c, hc, rfl⟩
      · exact ⟨u, d, hd, rfl⟩
      · exact ⟨u ++ d :: a, c, hc, by simp⟩

theorem linesIn_open {pre t : Str} (hpre : pre = [] ∨ EndsLine pre)
    (ht : ∀ c ∈ t, isCrLf c = false) (hlen : 2 ≤ (evenRuns t).length) :
    linesIn (pre ++ t) = linesOf pre ++ [(evenRuns t).dropLast] := by
  have hne : evenRuns t ≠ [] := List.length_pos_iff.mp (by omega)
  have hnd : ∀ c ∈ (evenRuns t).dropLast, isCrLf c = false := by
    intro c hc
    rcases mem_evenRuns (List.dropLast_subset _ hc) with rfl | hmem
    · rfl
    · exact ht c hmem
  have htail : tokens isCrLf (evenRuns t).dropLast = [(evenRuns t).dropLast] := by
    rw [tokens_of_forall_not hnd, if_neg]
    refine List.length_pos_iff.mp ?_
    rw [List.length_dropLast]
    omega
  rcases hpre with rfl | ⟨a, c, hc, rfl⟩
  · simpa [linesIn, linesOf] using htail
  · have happ : a ++ [c] ++ t = a ++ c :: t := by simp
    unfold linesIn
    rw [happ, evenRuns_append_cons a (percent_not_crLf hc),
      List.dropLast_append_of_ne_nil (List.cons_ne_nil _ _),
      List.dropLast_cons_of_ne_nil hne, tokens_append_cons _ _ hc, htail, tokens_evenRuns]
    unfold linesOf
    rw [tokens_concat_delim a hc]

/-- The line of the stream that begins with `t`. -/
theorem linesOf_open {t : Str} (hne : t ≠ []) (ht : ∀ c ∈ t, isCrLf c = false) (rest : Str) :
    ∃ u lines, linesOf (t ++ rest) = evenRuns (t ++ u) :: lines := by
  have hline : ∀ u : Str, (∀ c ∈ u, isCrLf c = false) → tokens isCrLf (t ++ u) = [t ++ u] := by
    intro u hu
    have hnd : ∀ c ∈ t ++ u, isCrLf c = false := fun c hc =>
      (List.mem_append.mp hc).elim (ht c) (hu c)
    rw [tokens_of_forall_not hnd, if_neg (by simp [hne])]
  have hu := takeWhile_not_delim isCrLf rest
  rcases takeWhile_append_tail isCrLf rest with ⟨hall, -⟩ | ⟨d, hd, hcut⟩
  · rw [← hall] at hu
    refine ⟨rest, [], ?_⟩
    rw [linesOf, hline rest hu]
    rfl
  · refine ⟨rest.takeWhile (!isCrLf ·), linesOf (rest.dropWhile (!isCrLf ·)).tail, ?_⟩
    have happ : t ++ rest = (t ++ rest.takeWhile (!isCrLf ·)) ++
        d :: (rest.dropWhile (!isCrLf ·)).tail := by
      rw [List.append_assoc, ← hcut]
    unfold linesOf
    rw [happ, tokens_append_cons _ _ hd, hline _ hu]
    rfl

theorem two_le_length_evenRuns_concat (t : Str) :
    2 ≤ (evenRuns (t ++ [percent])).length := by
  have hlen := length_evenRuns_ge (t ++ [percent])
  cases t with
  | nil => exact two_le_length_evenRuns []
  | cons c t =>
      simp only [List.length_append, List.length_cons] at hlen
      omega

theorem flatMap_ne_of_open {pre t : Str} {c : UInt8} (hpre : pre = [] ∨ EndsLine pre)
    (ht : ∀ d ∈ t ++ [c], isCrLf d = false) (hc : ¬ isPlain c) (cut : List (List UInt8)) :
    ((pre ++ (t ++ [c])) :: cut).flatMap linesIn ≠
      linesOf ((pre ++ (t ++ [c])) :: cut).flatten := by
  obtain rfl : c = percent := by
    have hcr := ht c (by simp)
    simpa [isPlain, hcr] using hc
  have hlen := two_le_length_evenRuns_concat t
  obtain ⟨u, lines, hline⟩ := linesOf_open (by simp) ht cut.flatten
  intro heq
  rw [List.flatMap_cons, List.flatten_cons, List.append_assoc, linesOf_append hpre, hline,
    linesIn_open hpre ht hlen, List.append_assoc] at heq
  have hhead := (List.cons.inj (List.append_cancel_left heq)).1
  have hge := length_evenRuns_append_ge (t ++ [percent]) u
  have := congrArg List.length hhead
  rw [List.length_dropLast] at this
  omega

theorem endsLine_of_flatMap_eq {cut : List (List UInt8)} (hne : ∀ buf ∈ cut, buf ≠ [])
    (heq : cut.flatMap linesIn = linesOf cut.flatten) :
    ∀ buf ∈ cut, EndsLine buf := by
  have hplain : ∀ a c, a ++ [c] ∈ cut → ¬ isPlain c := by
    intro a c hmem hc
    have hlt := plainCount_flatMap_lt hmem hc
    rw [heq, plainCount_linesOf] at hlt
    omega
  induction cut with
  | nil => simp
  | cons buf cut ih =>
      have hbuf : EndsLine buf := by
        obtain ⟨pre, t, rfl, hpre, ht⟩ := exists_open_line buf
        rcases List.eq_nil_or_concat t with rfl | ⟨t, c, rfl⟩
        · rw [List.append_nil]
          refine hpre.resolve_left fun h => hne _ List.mem_cons_self ?_
          rw [h, List.append_nil]
        · rw [List.concat_eq_append] at heq ht hplain
          exact absurd heq (flatMap_ne_of_open hpre ht (hplain (pre ++ t) c (by simp)) cut)
      rw [List.flatMap_cons, List.flatten_cons, linesOf_append (Or.inr hbuf),
        linesIn_of_endsLine hbuf] at heq
      have hrest := ih (fun b hb => hne b (List.mem_cons_of_mem buf hb))
        (List.append_cancel_left heq)
        (fun a c hmem => hplain a c (List.mem_cons_of_mem buf hmem))
      intro b hb
      rcases List.mem_cons.mp hb with rfl | hb
      · exact hbuf
      · exact hrest b hb

/-! ## Fragmentation -/

/-- Two cuts of a stream, the first only at ends of lines: `server_recv`
dispatches the same lines for both if and only if the second is such a cut
too. -/
theorem dispatchedLines_eq_iff (count : Nat → ρ → ρ) (handle : Str → ρ → Int × ρ)
    {stream : List UInt8} {cut₁ cut₂ : List (List UInt8)} (hstream : WireStream stream)
    (h₁ : IsCut stream cut₁) (h₂ : IsCut stream cut₂) (hend₁ : ∀ buf ∈ cut₁, EndsLine buf)
    (r₁ r₂ : ρ) :
    dispatchedLines count handle cut₂ r₂ = dispatchedLines count handle cut₁ r₁ ↔
      ∀ buf ∈ cut₂, EndsLine buf := by
  have hfits₂ := h₂.fits hstream
  rw [dispatchedLines_eq count handle (h₁.fits hstream),
    dispatchedLines_eq count handle hfits₂, flatMap_linesIn_of_endsLine hend₁, h₁.flatten,
    ← h₂.flatten]
  refine ⟨?_, flatMap_linesIn_of_endsLine⟩
  exact endsLine_of_flatMap_eq fun buf hbuf => (hfits₂ buf hbuf).nonempty

/-- `PING x` and `100%`, in one result and in one result each. -/
theorem dispatchedLines_eq_iff_sample :
    dispatchedLines (fun n k => n + k) (fun _ k => (bcircPluginOk, k + 1))
        [ascii "PING x\r\n", ascii "100%\r\n"] 0 =
      dispatchedLines (fun n k => n + k) (fun _ k => (bcircPluginOk, k + 1))
        [ascii "PING x\r\n100%\r\n"] 7 := by
  have hstream : WireStream (ascii "PING x\r\n100%\r\n") :=
    ⟨by decide, Or.inr ⟨ascii "PING x\r\n100%", rfl⟩⟩
  refine (dispatchedLines_eq_iff _ _ hstream ⟨rfl, by decide⟩ ⟨rfl, by decide⟩ ?_ 7 0).mpr ?_
  · rw [List.forall_mem_singleton]
    exact ⟨ascii "PING x\r\n100%\r", 10, rfl, rfl⟩
  · rw [List.forall_mem_cons, List.forall_mem_singleton]
    exact ⟨⟨ascii "PING x\r", 10, rfl, rfl⟩, ⟨ascii "100%\r", 10, rfl, rfl⟩⟩

/-- A cut inside a line: `abc` arrives as `a` and `c`. -/
theorem dispatchedLines_fragmented :
    ¬ ∀ stream cut₁ cut₂, WireStream stream → IsCut stream cut₁ → IsCut stream cut₂ →
      dispatchedLines (fun _ (u : Unit) => u) (fun _ u => (bcircPluginOk, u)) cut₁ () =
        dispatchedLines (fun _ (u : Unit) => u) (fun _ u => (bcircPluginOk, u)) cut₂ () := by
  intro h
  have habc := h (ascii "abc\r\n") [ascii "ab", ascii "c\r\n"] [ascii "abc\r\n"]
    ⟨by decide, Or.inr ⟨ascii "abc", rfl⟩⟩ ⟨rfl, by decide⟩ ⟨rfl, by decide⟩
  have hab : dispatchedLines (fun _ (u : Unit) => u) (fun _ u => (bcircPluginOk, u))
      [ascii "ab", ascii "c\r\n"] () = [ascii "a", ascii "c"] := by decide +kernel
  rw [hab] at habc
  revert habc
  decide +kernel

/-! ## Whole lines in one result -/

/-- `lines`, each ended by CRLF. -/
def wire (lines : List Str) : List UInt8 := lines.flatMap (· ++ crlf)

/-- A `recv` that returned these bytes: none are the end of the stream. -/
def recvResult (buf : List UInt8) : RecvEvent := if buf = [] then .closed else .data buf

/-- `server_disconnect` beside the record of lines. -/
def besideLines (disconnect : Int → ρ → Int × ρ) (reason : Int) : Prog (ρ × List Str) Int :=
  fun s => .ok (disconnect reason s.1).1 ((disconnect reason s.1).2, s.2)

theorem wire_concat (lines : List Str) (line : Str) :
    wire (lines ++ [line]) = wire lines ++ line ++ crlf := by
  simp [wire]

theorem endsLine_wire {lines : List Str} (hne : lines ≠ []) : EndsLine (wire lines) := by
  rcases List.eq_nil_or_concat lines with rfl | ⟨init, line, rfl⟩
  · exact absurd rfl hne
  · rw [List.concat_eq_append, wire_concat]
    exact ⟨wire init ++ line ++ [13], 10, rfl, by simp [crlf]⟩

theorem not_mem_wire {c : UInt8} (hc : c ∉ crlf) {lines : List Str}
    (hlines : ∀ line ∈ lines, c ∉ line) : c ∉ wire lines := by
  intro hmem
  obtain ⟨line, hline, hin⟩ := List.mem_flatMap.mp hmem
  rcases List.mem_append.mp hin with hin | hin
  · exact hlines line hline hin
  · exact hc hin

theorem linesOf_wire {lines : List Str} (hne : ∀ line ∈ lines, line ≠ [])
    (hline : ∀ line ∈ lines, ∀ c ∈ line, isCrLf c = false) :
    linesOf (wire lines) = lines.map evenRuns := by
  induction lines with
  | nil => simp [wire, linesOf]
  | cons line lines ih =>
      have hcut : wire (line :: lines) = (line ++ 13 :: [10]) ++ wire lines := by
        simp [wire, crlf]
      have hends : EndsLine (line ++ 13 :: [10]) := ⟨line ++ [13], 10, rfl, by simp⟩
      have hone : linesOf (line ++ 13 :: [10]) = [evenRuns line] := by
        have hrest : linesOf [10] = [] := by
          simpa [linesOf] using tokens_cons_delim [] (d := 10) rfl
        have happ : linesOf (line ++ 13 :: [10]) = linesOf line ++ linesOf [10] := by
          rw [linesOf, tokens_append_cons line [10] rfl, List.map_append]
          rfl
        rw [happ, hrest, List.append_nil, linesOf_line (hne line List.mem_cons_self)
          (hline line List.mem_cons_self)]
      rw [hcut, linesOf_append (Or.inr hends), hone,
        ih (fun l hl => hne l (List.mem_cons_of_mem line hl))
          (fun l hl => hline l (List.mem_cons_of_mem line hl))]
      rfl

/-- The run of `server_recv` on one result: `r'` is what the callbacks have
made of `r`, and the lines dispatched are written down beside it. -/
theorem serverRecv_wire (count : Nat → ρ → ρ) (handle : Str → ρ → Int × ρ)
    (disconnect : Int → ρ → Int × ρ) {lines : List Str} (hne : ∀ line ∈ lines, line ≠ [])
    (hbytes : ∀ line ∈ lines, ∀ c ∈ line, c ≠ 0 ∧ c ≠ 13 ∧ c ≠ 10)
    (hlen : (wire lines).length ≤ 511) (r : ρ) :
    ∃ r', serverRecv (fun n => modify fun s => (count n s.1, s.2)) (recordLine handle)
        (besideLines disconnect) [recvResult (wire lines)] (r, []) =
      .ok () (r', lines.map evenRuns) := by
  by_cases hnil : lines = []
  · subst hnil
    exact ⟨(disconnect serverClosedConnection r).2, rfl⟩
  · have hends := endsLine_wire hnil
    have hline : ∀ line ∈ lines, ∀ c ∈ line, isCrLf c = false := by
      intro line hmem c hc
      obtain ⟨-, h13, h10⟩ := hbytes line hmem c hc
      simp [isCrLf, h13, h10]
    have hbuf : wire lines ≠ [] := by
      obtain ⟨a, c, -, hac⟩ := hends
      rw [hac]
      simp
    have hfits : Fits (wire lines) := by
      refine ⟨hbuf, by unfold tmpbufSize; omega, not_mem_wire (by decide) ?_⟩
      intro line hmem h0
      exact (hbytes line hmem 0 h0).1 rfl
    have hcut : tokens isCrLf (evenRuns (wire lines)).dropLast = lines.map evenRuns :=
      (linesIn_of_endsLine hends).trans (linesOf_wire hne hline)
    obtain ⟨r', hr'⟩ := handleLines_record handle (lines.map evenRuns)
      (count (wire lines).length r) []
    have hevent : recvResult (wire lines) = .data (wire lines) := if_neg hbuf
    refine ⟨r', ?_⟩
    rw [hevent, serverRecv, modify_bind_run, recvLines_eq hfits, hcut, liftExcept_ok,
      pure_bind_run, bind_ok hr']
    rfl

/-- `50%` and `a%%b%`: both runs of one are doubled, the pair is kept. -/
theorem serverRecv_wire_sample :
    ∃ r', serverRecv (fun n => modify fun s => (s.1 + n, s.2))
        (recordLine fun _ k => (bcircPluginOk, k + 1)) (besideLines fun _ k => (0, k))
        [recvResult (wire [ascii "50%", ascii "a%%b%"])] (0, []) =
      .ok () (r', [ascii "50%", ascii "a%%b%"].map evenRuns) :=
  serverRecv_wire (fun n k => k + n) (fun _ k => (bcircPluginOk, k + 1)) (fun _ k => (0, k))
    (by decide +kernel) (by decide +kernel) (by decide +kernel) 0

end Bcirc
