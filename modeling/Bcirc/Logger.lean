import Bcirc.CFormat
import Bcirc.ServerRecv
import Bcirc.World

/-!
# Printing and logging (`bcirc_printf`, `bcirc_log` in `src/log.c`)

`bcirc_printf` formats its arguments, prints the text and hands it to
`bcirc_log` as a format without arguments: the log gets the text with
every pair of `%` halved, if it gets it at all. On received lines, whose
runs of `%` are even, this halves the runs.
-/

namespace Bcirc

open CProg CStr CFormat

/-! ## The functions -/

/-- The fields of `struct tm` that are printed. -/
structure Tm where
  hour : Fin 24
  min : Fin 60
  sec : Fin 61
  mday : Fin 32
  mon : Fin 12
  year : Nat
  deriving DecidableEq, Repr

def twoDigits (n : Nat) : Str := [48 + (n / 10).toUInt8, 48 + (n % 10).toUInt8]

/-- `strftime` with `"%H:%M:%S"`. -/
def Tm.timePrefix (tm : Tm) : Str :=
  twoDigits tm.hour ++ ascii ":" ++ twoDigits tm.min ++ ascii ":" ++ twoDigits tm.sec

/-- `strftime` with `"%d-%m-%Y"`. -/
def Tm.logNameTime (tm : Tm) : Str :=
  twoDigits tm.mday ++ ascii "-" ++ twoDigits (tm.mon + 1) ++ ascii "-" ++ ascii (toString tm.year)

/-- What the functions find outside: `$BCIRC_LOG_DIR`, whether it exists, the
`errno` of a `mkdir` that fails, whether `fopen` succeeds, and the time at
each call of `time`. `files` are the texts appended to files, each with
the name of its file. -/
structure LogWorld where
  logDir : Option Str
  dirExists : Bool
  mkdirErrno : Option Int
  fopenOk : Bool
  clock : Nat → Tm
  ticks : Nat
  files : List (Str × Str)
  stdout : Str

def time : Prog LogWorld Tm := do
  let w ← get
  modify fun w => { w with ticks := w.ticks + 1 }
  pure (w.clock w.ticks)

def printf (text : Str) : Prog LogWorld Unit :=
  modify fun w => { w with stdout := w.stdout ++ text }

/-- The name of the file: `"%s/%s.%s.log"`. -/
def logPath (logDir file : Str) (tm : Tm) : Str :=
  logDir ++ ascii "/" ++ file ++ ascii "." ++ tm.logNameTime ++ ascii ".log"

/-- The directory of the log, which is made if it is not there. -/
def makeLogDir (logDir : Str) : Prog LogWorld Unit := do
  let w ← get
  if w.dirExists then pure ()
  else
    match w.mkdirErrno with
    | none => modify fun w => { w with dirExists := true }
    | some errno => do
        printf (ascii "failed to create dir " ++ logDir ++ ascii ", errno: " ++
          ascii (toString errno) ++ ascii "\n")
        throw .diverges -- `exit`

def bcircLogWith (bcircPrintf : Str → List FormatArg → Prog LogWorld Int) (str : Str)
    (file : Option Str) (args : List FormatArg) : Prog LogWorld Int := do
  let output ← liftExcept (vsnprintf str args)
  let timeinfo ← time
  let w ← get
  match w.logDir with
  | none => do
      let _ ← bcircPrintf (ascii "BCIRC_LOG_DIR is not set!\n") []
      pure (-1)
  | some logDir => do
      makeLogDir logDir
      if !w.fopenOk then throw .nullPointer -- `fprintf(NULL, ..)`
      modify fun w => { w with
        files := w.files ++ [(logPath logDir (file.getD (ascii "mainlog")) timeinfo, output)] }
      pure 1

/-- `bcirc_printf` on a stack that has room for so many calls of it. -/
def bcircPrintf : Nat → Str → List FormatArg → Prog LogWorld Int
  | 0, _, _ => throw .tooDeep
  | depth + 1, str, args => do
      let output ← liftExcept (vsnprintf str args)
      let timeinfo ← time
      let output := timeinfo.timePrefix ++ ascii " | " ++ output
      let _ ← bcircLogWith (bcircPrintf depth) output none []
      printf output
      pure 1

def bcircLog (depth : Nat) (str : Str) (file : Option Str) (args : List FormatArg) :
    Prog LogWorld Int :=
  bcircLogWith (bcircPrintf depth) str file args

/-- `on_recv` of the logger. -/
def loggerOnRecv (depth : Nat) (params : List Arg) : Prog LogWorld Int := do
  let srv ← (← param params 0).toServer
  let buffer ← (← param params 1).toStr
  match srv, buffer with
  | some _, some buffer => do
      let _ ← bcircPrintf depth (ascii "%s\n") [.str buffer]
      pure bcircPluginOk
  | _, _ => pure bcircPluginContinue

/-! ## A log that can be written to -/

structure LogWorld.Ready (w : LogWorld) : Prop where
  dir : w.logDir.isSome
  made : w.dirExists ∨ w.mkdirErrno = none
  opens : w.fopenOk

/-- One more text in the file of the log. -/
def LogWorld.append (w : LogWorld) (file text : Str) : LogWorld :=
  { w with
    dirExists := true
    ticks := w.ticks + 1
    files := w.files ++ [(logPath (w.logDir.getD []) file (w.clock w.ticks), text)] }

theorem makeLogDir_ok {w : LogWorld} (h : w.dirExists ∨ w.mkdirErrno = none) (logDir : Str) :
    makeLogDir logDir w = .ok () { w with dirExists := true } := by
  obtain ⟨_, dirExists, mkdirErrno⟩ := w
  cases dirExists with
  | true => rfl
  | false =>
      obtain rfl : mkdirErrno = none := h.resolve_left Bool.false_ne_true
      rfl

theorem makeLogDir_not_ok {w w' : LogWorld} {logDir : Str}
    (h : ¬ (w.dirExists ∨ w.mkdirErrno = none)) : makeLogDir logDir w ≠ .ok () w' := by
  obtain ⟨hexists, herrno⟩ := not_or.mp h
  intro hrun
  unfold makeLogDir at hrun
  rw [get_bind_run, if_neg hexists] at hrun
  cases hm : w.mkdirErrno with
  | none => exact herrno hm
  | some errno =>
      rw [hm] at hrun
      cases hrun

theorem bcircLogWith_ok {w : LogWorld} (h : w.Ready) {str output : Str} {args : List FormatArg}
    (hout : vsnprintf str args = .ok output) (file : Option Str)
    (bcircPrintf : Str → List FormatArg → Prog LogWorld Int) :
    bcircLogWith bcircPrintf str file args w =
      .ok 1 (w.append (file.getD (ascii "mainlog")) output) := by
  obtain ⟨hdir, hmade, hopens⟩ := h
  obtain ⟨logDir, dirExists, mkdirErrno, fopenOk, clock, ticks, files, stdout⟩ := w
  obtain ⟨logDir, rfl⟩ := Option.isSome_iff_exists.mp hdir
  obtain rfl : fopenOk = true := hopens
  have hmake := makeLogDir_ok
    (w := ⟨some logDir, dirExists, mkdirErrno, true, clock, ticks + 1, files, stdout⟩) hmade logDir
  unfold bcircLogWith
  rw [hout, liftExcept_ok, pure_bind_run]
  show ((makeLogDir logDir >>= _) _) = _
  rw [bind_ok hmake]
  rfl

theorem of_bcircLogWith_ok {w w' : LogWorld} {str : Str} {args : List FormatArg}
    {file : Option Str} {bcircPrintf : Str → List FormatArg → Prog LogWorld Int} {r : Int}
    (h : bcircLogWith bcircPrintf str file args w = .ok r w') :
    (∃ output, vsnprintf str args = .ok output) ∧
      (w.Ready ∨ ∃ r₁ w₁ w₂, w₁.logDir = none ∧
        bcircPrintf (ascii "BCIRC_LOG_DIR is not set!\n") [] w₁ = .ok r₁ w₂) := by
  unfold bcircLogWith at h
  obtain ⟨output, hout, h⟩ := of_liftExcept_bind_ok h
  refine ⟨⟨output, hout⟩, ?_⟩
  obtain ⟨logDir, dirExists, mkdirErrno, fopenOk, clock, ticks, files, stdout⟩ := w
  cases logDir with
  | none =>
      obtain ⟨r₁, w₂, hprintf, -⟩ := of_bind_ok
        (m := bcircPrintf (ascii "BCIRC_LOG_DIR is not set!\n") []) h
      exact Or.inr ⟨r₁, _, w₂, rfl, hprintf⟩
  | some logDir =>
      obtain ⟨_, w₁, hmake, hopen⟩ := of_bind_ok (m := makeLogDir logDir) h
      have hmade := not_not.mp fun hnot => makeLogDir_not_ok hnot hmake
      rw [makeLogDir_ok hmade] at hmake
      obtain rfl := (EStateM.Result.ok.inj hmake).2
      refine Or.inl ⟨rfl, hmade, ?_⟩
      cases fopenOk with
      | true => rfl
      | false => cases hopen

/-! ## One call of `bcirc_printf` -/

/-- The time and the bar before a text. -/
def LogWorld.stamp (w : LogWorld) : Str := (w.clock w.ticks).timePrefix ++ ascii " | "

def LogWorld.tick (w : LogWorld) : LogWorld := { w with ticks := w.ticks + 1 }

def LogWorld.print (w : LogWorld) (text : Str) : LogWorld := { w with stdout := w.stdout ++ text }

theorem percent_not_mem_stamp (w : LogWorld) : percent ∉ w.stamp := by
  have htwo : ∀ n : Fin 61, percent ∉ twoDigits n := by decide
  have hhour := htwo ((w.clock w.ticks).hour.castLE (by omega))
  have hmin := htwo ((w.clock w.ticks).min.castLE (by omega))
  have hsec := htwo (w.clock w.ticks).sec
  have hcolon : percent ∉ ascii ":" := by decide
  have hbar : percent ∉ ascii " | " := by decide
  unfold LogWorld.stamp Tm.timePrefix
  simp only [List.mem_append, not_or]
  exact ⟨⟨⟨⟨⟨hhour, hcolon⟩, hmin⟩, hcolon⟩, hsec⟩, hbar⟩

theorem of_bcircPrintf_ok {depth : Nat} {w w' : LogWorld} {str : Str} {args : List FormatArg}
    {r : Int} (h : bcircPrintf (depth + 1) str args w = .ok r w') :
    ∃ text r₁ w₁, vsnprintf str args = .ok text ∧
      bcircLogWith (bcircPrintf depth) (w.stamp ++ text) none [] w.tick = .ok r₁ w₁ := by
  rw [bcircPrintf] at h
  obtain ⟨text, htext, h⟩ := of_liftExcept_bind_ok h
  obtain ⟨r₁, w₁, hlog, -⟩ := of_bind_ok
    (m := bcircLogWith (bcircPrintf depth) (w.stamp ++ text) none []) (s := w.tick) h
  exact ⟨text, r₁, w₁, htext, hlog⟩

/-- Without `BCIRC_LOG_DIR` the two functions call each other without end. -/
theorem bcircPrintf_no_dir {depth : Nat} {w w' : LogWorld} (h : w.logDir = none) {str : Str}
    {args : List FormatArg} {r : Int} : bcircPrintf depth str args w ≠ .ok r w' := by
  induction depth generalizing str args w r w' with
  | zero =>
      intro hrun
      cases hrun
  | succ depth ih =>
      intro hrun
      obtain ⟨text, r₁, w₁, -, hlog⟩ := of_bcircPrintf_ok hrun
      rcases (of_bcircLogWith_ok hlog).2 with hready | ⟨r₂, w₂, w₃, hnone, hagain⟩
      · have hdir := hready.dir
        rw [LogWorld.tick, h] at hdir
        cases hdir
      · exact ih hnone hagain

theorem ready_of_bcircPrintf_ok {depth : Nat} {w w' : LogWorld} {str : Str}
    {args : List FormatArg} {r : Int} (h : bcircPrintf depth str args w = .ok r w') : w.Ready := by
  cases depth with
  | zero => cases h
  | succ depth =>
      obtain ⟨text, r₁, w₁, -, hlog⟩ := of_bcircPrintf_ok h
      rcases (of_bcircLogWith_ok hlog).2 with ⟨hdir, hmade, hopens⟩ | ⟨r₂, w₂, w₃, hnone, hagain⟩
      · exact ⟨hdir, hmade, hopens⟩
      · exact absurd hagain (bcircPrintf_no_dir hnone)

/-- The text is printed, the log gets what is left of it as a format. -/
theorem bcircPrintf_ok {w : LogWorld} (h : w.Ready) {str text record : Str}
    {args : List FormatArg} (htext : vsnprintf str args = .ok text)
    (hrecord : vsnprintf text [] = .ok record) (depth : Nat) :
    bcircPrintf (depth + 1) str args w =
      .ok 1 ((w.tick.append (ascii "mainlog") (w.stamp ++ record)).print (w.stamp ++ text)) := by
  have hready : w.tick.Ready := ⟨h.dir, h.made, h.opens⟩
  have hstamped : vsnprintf (w.stamp ++ text) [] = .ok (w.stamp ++ record) := by
    rw [vsnprintf_append (percent_not_mem_stamp w), hrecord]
    rfl
  have hlog := bcircLogWith_ok hready hstamped none (bcircPrintf depth)
  rw [bcircPrintf, htext, liftExcept_ok, pure_bind_run]
  show ((bcircLogWith (bcircPrintf depth) (w.stamp ++ text) none [] >>= _) w.tick) = _
  rw [bind_ok hlog]
  rfl

theorem vsnprintf_line (t : Str) (args : List FormatArg) :
    vsnprintf (ascii "%s\n") (.str t :: args) = .ok (t ++ ascii "\n") := by
  have hconvert : convert 115 (.str t :: args) = some (t, args) := rfl
  show vsnprintf (37 :: 115 :: ascii "\n") (.str t :: args) = _
  rw [vsnprintf_directive hconvert, vsnprintf_of_not_mem (by decide)]
  rfl

/-! ## The log and standard output -/

/-- The call that takes `w` to `w'` prints what it appends to the log. -/
def SameOutput (w w' : LogWorld) : Prop :=
  ∃ text, w'.files = w.files ++
      [(logPath (w.logDir.getD []) (ascii "mainlog") (w.clock (w.ticks + 1)), text)] ∧
    w'.stdout = w.stdout ++ text

theorem percent_not_mem_of_same {depth : Nat} {w w' : LogWorld} {t : Str} {r : Int}
    (hrun : bcircPrintf (depth + 1) (ascii "%s\n") [.str t] w = .ok r w')
    (hsame : SameOutput w w') : percent ∉ t := by
  have htext := vsnprintf_line t []
  have hready := ready_of_bcircPrintf_ok hrun
  obtain ⟨out, hfiles, hstdout⟩ := hsame
  obtain ⟨text, r₁, w₁, htext₁, hlog⟩ := of_bcircPrintf_ok hrun
  obtain rfl : text = t ++ ascii "\n" := Except.ok.inj (htext₁.symm.trans htext)
  obtain ⟨output, hstamped⟩ := (of_bcircLogWith_ok hlog).1
  rw [vsnprintf_append (percent_not_mem_stamp w)] at hstamped
  obtain ⟨record, hrecord, -⟩ := of_map_ok hstamped
  rw [bcircPrintf_ok hready htext hrecord] at hrun
  obtain rfl := (EStateM.Result.ok.inj hrun).2
  have hlogged : w.stamp ++ record = out :=
    (Prod.mk.inj (List.cons.inj (List.append_cancel_left hfiles)).1).2
  have hprinted : w.stamp ++ (t ++ ascii "\n") = out := List.append_cancel_left hstdout
  have hrest := List.append_cancel_left (hlogged.trans hprinted.symm)
  rw [hrest] at hrecord
  have hnot := (vsnprintf_eq_self_iff (t ++ ascii "\n")).mp hrecord
  exact fun hmem => hnot (List.mem_append_left _ hmem)

/-- `bcirc_printf("%s\n", t)` prints what it logs if and only if no `%` is
in `t` (and the log can be written to). -/
theorem bcircPrintf_same_iff (depth : Nat) (w : LogWorld) (t : Str) :
    (∃ r w', bcircPrintf (depth + 1) (ascii "%s\n") [.str t] w = .ok r w' ∧ SameOutput w w') ↔
      percent ∉ t ∧ w.Ready := by
  constructor
  · rintro ⟨r, w', hrun, hsame⟩
    exact ⟨percent_not_mem_of_same hrun hsame, ready_of_bcircPrintf_ok hrun⟩
  · rintro ⟨hnot, hready⟩
    have hmem : percent ∉ t ++ ascii "\n" := by
      rw [List.mem_append, not_or]
      exact ⟨hnot, by decide⟩
    have hrun := bcircPrintf_ok hready (vsnprintf_line t []) (vsnprintf_of_not_mem hmem []) depth
    exact ⟨1, _, hrun, w.stamp ++ (t ++ ascii "\n"), rfl, rfl⟩

/-- A log directory that exists, at midnight. -/
def sampleLogWorld : LogWorld where
  logDir := some (ascii "/var/log")
  dirExists := true
  mkdirErrno := none
  fopenOk := true
  clock := fun _ => ⟨0, 0, 0, 1, 0, 2020⟩
  ticks := 0
  files := []
  stdout := []

/-- `100%%` is printed, and `100%` is logged. -/
theorem bcircPrintf_not_same :
    ¬ ∀ (t : Str) (w : LogWorld), w.Ready →
      ∃ r w', bcircPrintf 1 (ascii "%s\n") [.str t] w = .ok r w' ∧ SameOutput w w' := by
  intro h
  have hready : sampleLogWorld.Ready := ⟨rfl, Or.inl rfl, rfl⟩
  obtain ⟨r, w', hrun, hsame⟩ := h (ascii "100%%") sampleLogWorld hready
  exact percent_not_mem_of_same hrun hsame (by decide)

/-! ## Received lines -/

/-- `s` after a run of `k` percent signs, that run and all those of `s`
halved, the half rounded up. -/
def halfRunsFrom : Nat → Str → Str
  | k, [] => List.replicate ((k + 1) / 2) percent
  | k, c :: s =>
      if c = percent then halfRunsFrom (k + 1) s
      else List.replicate ((k + 1) / 2) percent ++ c :: halfRunsFrom 0 s

def halfRuns (s : Str) : Str := halfRunsFrom 0 s

theorem halfRuns_concat (s : Str) {c : UInt8} (hc : c ≠ percent) :
    halfRuns (s ++ [c]) = halfRuns s ++ [c] := by
  have hfrom : ∀ k, halfRunsFrom k (s ++ [c]) = halfRunsFrom k s ++ [c] := by
    induction s with
    | nil =>
        intro k
        simp [halfRunsFrom, hc]
    | cons d s ih =>
        intro k
        by_cases hd : d = percent
        · simp only [List.cons_append, halfRunsFrom, if_pos hd]
          exact ih (k + 1)
        · simp only [List.cons_append, halfRunsFrom, if_neg hd, List.append_assoc, ih 0]
  exact hfrom 0

/-- An escaped text takes no arguments. -/
theorem vsnprintf_escaped (s : Str) (args : List FormatArg) :
    vsnprintf (evenRuns s) args = .ok (halfRuns s) := by
  have hfrom : ∀ k, vsnprintf (evenRunsFrom k s) args = .ok (halfRunsFrom k s) := by
    induction s with
    | nil =>
        intro k
        have hpairs := vsnprintf_pairs ((k + 1) / 2) [] args
        rw [List.append_nil] at hpairs
        rw [evenRunsFrom, percent, hpairs]
        show Except.ok (_ ++ []) = _
        rw [List.append_nil]
        rfl
    | cons c s ih =>
        intro k
        by_cases hc : c = percent
        · simp only [evenRunsFrom, halfRunsFrom, if_pos hc, ih (k + 1)]
        · simp only [evenRunsFrom, halfRunsFrom, if_neg hc]
          rw [percent, vsnprintf_pairs, vsnprintf_cons_ne hc, ih 0]
          rfl
  exact hfrom 0

/-- The escape on reception, seen through the second format. -/
theorem vsnprintf_evenRuns (s : Str) : vsnprintf (evenRuns s) [] = .ok (halfRuns s) :=
  vsnprintf_escaped s []

theorem loggerOnRecv_ok {w : LogWorld} (h : w.Ready) (depth srv : Nat) (line : Str) :
    loggerOnRecv (depth + 1) [.server srv, .str (evenRuns line)] w = .ok bcircPluginOk
      ((w.tick.append (ascii "mainlog") (w.stamp ++ (halfRuns line ++ ascii "\n"))).print
        (w.stamp ++ (evenRuns line ++ ascii "\n"))) := by
  have h10 : (10 : UInt8) ≠ percent := by decide
  have hnewline : evenRuns line ++ ascii "\n" = evenRuns (line ++ [10]) := by
    rw [evenRuns_append_cons line h10, evenRuns_nil]
    rfl
  have hrecord : vsnprintf (evenRuns line ++ ascii "\n") [] =
      .ok (halfRuns line ++ ascii "\n") := by
    rw [hnewline, vsnprintf_evenRuns, halfRuns_concat line h10]
    rfl
  have hrun := bcircPrintf_ok h (vsnprintf_line (evenRuns line) []) hrecord depth
  show ((bcircPrintf (depth + 1) (ascii "%s\n") [.str (evenRuns line)] >>= _) w) = _
  rw [bind_ok hrun]
  rfl

/-- A line that arrives whole is dispatched once, escaped; the logger
appends to the log the time and the line with its runs of `%` halved. -/
theorem loggerOnRecv_line {pre line : Str} {d : UInt8} (post : List UInt8) (hd : isCrLf d)
    (hpre : pre = [] ∨ EndsLine pre) (hne : line ≠ []) (hline : ∀ c ∈ line, isCrLf c = false)
    (hnul : 0 ∉ pre ++ line) (hlen : (pre ++ line ++ d :: post).length ≤ 511) (depth srv : Nat)
    {w : LogWorld} (hready : w.Ready) :
    (∃ after, recvLines (pre ++ line ++ d :: post) =
      .ok (linesOf pre ++ evenRuns line :: after)) ∧
    ∃ w', loggerOnRecv (depth + 1) [.server srv, .str (evenRuns line)] w = .ok bcircPluginOk w' ∧
      w'.files = w.files ++
        [(logPath (w.logDir.getD []) (ascii "mainlog") (w.clock (w.ticks + 1)),
          w.stamp ++ (halfRuns line ++ ascii "\n"))] :=
  ⟨recvLines_ended post hd hpre hne hline hnul hlen, _, loggerOnRecv_ok hready depth srv line, rfl⟩

/-- `50% off`, after another line, is logged as it came. -/
theorem loggerOnRecv_line_sample :
    (∃ after, recvLines (ascii "PING x\r\n" ++ ascii "50% off" ++ 13 :: [10]) =
      .ok (linesOf (ascii "PING x\r\n") ++ evenRuns (ascii "50% off") :: after)) ∧
    ∃ w', loggerOnRecv 1 [.server 0, .str (evenRuns (ascii "50% off"))] sampleLogWorld =
        .ok bcircPluginOk w' ∧
      w'.files = sampleLogWorld.files ++
        [(logPath (sampleLogWorld.logDir.getD []) (ascii "mainlog")
            (sampleLogWorld.clock (sampleLogWorld.ticks + 1)),
          sampleLogWorld.stamp ++ (halfRuns (ascii "50% off") ++ ascii "\n"))] :=
  loggerOnRecv_line [10] rfl (Or.inr ⟨ascii "PING x\r", 10, rfl, rfl⟩) (by decide +kernel)
    (by decide +kernel) (by decide +kernel) (by decide +kernel) 0 0 ⟨rfl, Or.inl rfl, rfl⟩

/-- `100%%` is logged as `100%`. -/
theorem loggerOnRecv_not_verbatim :
    ¬ ∀ (line : Str) (w : LogWorld), line ≠ [] → (∀ c ∈ line, isCrLf c = false) → 0 ∉ line →
      (line ++ crlf).length ≤ 511 → w.Ready →
        ∃ lines w', recvLines (line ++ crlf) = .ok lines ∧
          handleLines (fun text => loggerOnRecv 1 [.server 0, .str text]) lines w = .ok () w' ∧
          ∃ path, w'.files = w.files ++ [(path, w.stamp ++ (line ++ ascii "\n"))] := by
  intro h
  have hready : sampleLogWorld.Ready := ⟨rfl, Or.inl rfl, rfl⟩
  obtain ⟨lines, w', hrecv, hrun, path, hfiles⟩ := h (ascii "100%%") sampleLogWorld
    (by decide +kernel) (by decide +kernel) (by decide +kernel) (by decide +kernel) hready
  obtain rfl : [ascii "100%%"] = lines := by
    have hlines : recvLines (ascii "100%%" ++ crlf) = .ok [ascii "100%%"] := by decide +kernel
    exact Except.ok.inj (hlines.symm.trans hrecv)
  have heven : evenRuns (ascii "100%%") = ascii "100%%" := by decide
  have hline := loggerOnRecv_ok hready 0 0 (ascii "100%%")
  rw [heven, Nat.zero_add] at hline
  rw [handleLines, bind_ok hline] at hrun
  obtain rfl := (EStateM.Result.ok.inj hrun).2
  have hrecord := (Prod.mk.inj (List.cons.inj (List.append_cancel_left hfiles)).1).2
  exact absurd (List.append_cancel_left hrecord) (by decide)

end Bcirc
