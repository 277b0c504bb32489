import Bcirc.Logger

/-!
# Calls of the log that end (`bcirc_printf`, `bcirc_log` in `src/log.c`)

The two functions call each other: `bcirc_printf` hands every text to
`bcirc_log`, and `bcirc_log` reports an unset `BCIRC_LOG_DIR` with
`bcirc_printf`, in the same environment. With the variable set the log is
one call deep, without it no stack is deep enough.
-/

namespace Bcirc

open CProg CStr CFormat

/-- A call of one of the two functions. -/
inductive LogCall where
  | printf (str : Str) (args : List FormatArg)
  | log (str : Str) (file : Option Str) (args : List FormatArg)
  deriving DecidableEq, Repr

/-- The call, on a stack that has room for `depth` calls of `bcirc_printf`. -/
def LogCall.run (depth : Nat) : LogCall → Prog LogWorld Int
  | .printf str args => bcircPrintf depth str args
  | .log str file args => bcircLog depth str file args

/-- The arguments are those of the format. `bcirc_printf` makes a format of
its text as well. -/
def LogCall.Formats : LogCall → Prop
  | .printf str args =>
      ∃ text record, vsnprintf str args = .ok text ∧ vsnprintf text [] = .ok record
  | .log str _ args => ∃ text, vsnprintf str args = .ok text

/-- Some stack is deep enough: the call returns, or `exit` or a fault of its
own ends the process. -/
def LogCall.Ends (call : LogCall) (w : LogWorld) : Prop :=
  ∃ depth, ∀ w', call.run depth w ≠ .error .tooDeep w'

/-! ## With a directory -/

theorem of_map_error {α β : Type} {f : α → β} {x : Except Fault α} {e : Fault}
    (h : f <$> x = .error e) : x = .error e := by
  cases x with
  | error e' => rw [Except.error.inj h]
  | ok a => cases h

theorem vsnprintf_error {str : Str} {args : List FormatArg} {e : Fault}
    (h : vsnprintf str args = .error e) : e = .badFormat := by
  induction str, args using vsnprintf.induct with
  | case1 args => cases h
  | case2 c fmt args hc ih =>
      rw [vsnprintf_cons_ne hc] at h
      exact ih (of_map_error h)
  | case3 c args hc =>
      obtain rfl : c = 37 := not_not.mp hc
      exact (Except.error.inj h).symm
  | case4 c args hc d rest hnone =>
      obtain rfl : c = 37 := not_not.mp hc
      rw [vsnprintf.eq_def] at h
      simp only [ne_eq, not_true, if_false, hnone] at h
      exact (Except.error.inj h).symm
  | case5 c args hc d rest out args' hsome ih =>
      obtain rfl : c = 37 := not_not.mp hc
      rw [vsnprintf_directive hsome] at h
      exact ih (of_map_error h)

theorem makeLogDir_ne_tooDeep (logDir : Str) (w w' : LogWorld) :
    makeLogDir logDir w ≠ .error .tooDeep w' := by
  obtain ⟨_, dirExists, mkdirErrno⟩ := w
  intro h
  cases dirExists with
  | true => cases h
  | false =>
      cases mkdirErrno with
      | none => cases h
      | some errno => cases h

/-- `bcirc_printf` is not called. -/
theorem bcircLogWith_ne_tooDeep {w : LogWorld} (hdir : w.logDir.isSome)
    (bcircPrintf : Str → List FormatArg → Prog LogWorld Int) (str : Str) (file : Option Str)
    (args : List FormatArg) (w' : LogWorld) :
    bcircLogWith bcircPrintf str file args w ≠ .error .tooDeep w' := by
  intro h
  unfold bcircLogWith at h
  cases hout : vsnprintf str args with
  | error e =>
      rw [hout] at h
      obtain rfl := vsnprintf_error hout
      cases h
  | ok output =>
      rw [hout, liftExcept_ok, pure_bind_run] at h
      obtain ⟨logDir, dirExists, mkdirErrno, fopenOk, clock, ticks, files, stdout⟩ := w
      obtain ⟨logDir, rfl⟩ := Option.isSome_iff_exists.mp hdir
      rcases of_bind_error (m := makeLogDir logDir) h with hmake | ⟨_, w₁, -, hopen⟩
      · exact makeLogDir_ne_tooDeep _ _ _ hmake
      · cases fopenOk with
        | true => cases hopen
        | false => cases hopen

/-- Room for one call is enough, whatever the format. -/
theorem LogCall.ends {w : LogWorld} (hdir : w.logDir.isSome) (call : LogCall) : call.Ends w := by
  refine ⟨1, fun w' hrun => ?_⟩
  cases call with
  | log str file args => exact bcircLogWith_ne_tooDeep hdir _ _ _ _ _ hrun
  | printf str args =>
      rw [LogCall.run, bcircPrintf] at hrun
      cases htext : vsnprintf str args with
      | error e =>
          rw [htext] at hrun
          obtain rfl := vsnprintf_error htext
          cases hrun
      | ok text =>
          rw [htext, liftExcept_ok, pure_bind_run] at hrun
          rcases of_bind_error (m := bcircLogWith (bcircPrintf 0) (w.stamp ++ text) none [])
              (s := w.tick) hrun with hlog | ⟨r, w₁, -, hprint⟩
          · exact bcircLogWith_ne_tooDeep (w := w.tick) hdir _ _ _ _ _ hlog
          · cases hprint

/-! ## Without one -/

/-- `bcirc_log` reports the variable. -/
theorem bcircLogWith_unset {w : LogWorld} (hdir : w.logDir = none) {str output : Str}
    {args : List FormatArg} (hout : vsnprintf str args = .ok output) (file : Option Str)
    (bcircPrintf : Str → List FormatArg → Prog LogWorld Int) :
    bcircLogWith bcircPrintf str file args w =
      (bcircPrintf (ascii "BCIRC_LOG_DIR is not set!\n") [] >>= fun _ => pure (-1)) w.tick := by
  obtain ⟨logDir, dirExists, mkdirErrno, fopenOk, clock, ticks, files, stdout⟩ := w
  obtain rfl : logDir = none := hdir
  unfold bcircLogWith
  rw [hout]
  rfl

/-- The text and, with the time before it, the format that is made of it. -/
theorem bcircPrintf_unset {w : LogWorld} (hdir : w.logDir = none) {str text record : Str}
    {args : List FormatArg} (htext : vsnprintf str args = .ok text)
    (hrecord : vsnprintf text [] = .ok record) (depth : Nat) :
    ∃ w', bcircPrintf depth str args w = .error .tooDeep w' := by
  induction depth generalizing w str text record args with
  | zero => exact ⟨w, rfl⟩
  | succ depth ih =>
      have hnotice : vsnprintf (ascii "BCIRC_LOG_DIR is not set!\n") [] =
          .ok (ascii "BCIRC_LOG_DIR is not set!\n") := vsnprintf_of_not_mem (by decide) []
      have hstamped : vsnprintf (w.stamp ++ text) [] = .ok (w.stamp ++ record) := by
        rw [vsnprintf_append (percent_not_mem_stamp w), hrecord]
        rfl
      obtain ⟨w', hagain⟩ := ih (w := w.tick.tick) hdir hnotice hnotice
      have hlog : bcircLogWith (bcircPrintf depth) (w.stamp ++ text) none [] w.tick =
          .error .tooDeep w' := by
        rw [bcircLogWith_unset (w := w.tick) hdir hstamped]
        exact bind_error hagain
      refine ⟨w', ?_⟩
      rw [bcircPrintf, htext, liftExcept_ok, pure_bind_run]
      show ((bcircLogWith (bcircPrintf depth) (w.stamp ++ text) none [] >>= _) w.tick) = _
      exact bind_error hlog

theorem LogCall.not_ends {call : LogCall} (hcall : call.Formats) {w : LogWorld}
    (hdir : w.logDir = none) : ¬ call.Ends w := by
  rintro ⟨depth, hdepth⟩
  cases call with
  | printf str args =>
      obtain ⟨text, record, htext, hrecord⟩ := hcall
      obtain ⟨w', hrun⟩ := bcircPrintf_unset hdir htext hrecord depth
      exact hdepth w' hrun
  | log str file args =>
      obtain ⟨text, htext⟩ := hcall
      have hnotice : vsnprintf (ascii "BCIRC_LOG_DIR is not set!\n") [] =
          .ok (ascii "BCIRC_LOG_DIR is not set!\n") := vsnprintf_of_not_mem (by decide) []
      obtain ⟨w', hagain⟩ := bcircPrintf_unset (w := w.tick) hdir hnotice hnotice depth
      refine hdepth w' ?_
      rw [LogCall.run, bcircLog, bcircLogWith_unset hdir htext]
      exact bind_error hagain

/-! ## Which calls end -/

theorem LogCall.ends_iff (w : LogWorld) (call : LogCall) (hcall : call.Formats) :
    call.Ends w ↔ w.logDir.isSome := by
  refine ⟨fun hends => ?_, fun hdir => call.ends hdir⟩
  by_contra hnot
  exact LogCall.not_ends hcall (Option.not_isSome_iff_eq_none.mp hnot) hends

/-- `bcirc_printf("%s\n", "hi")`, with the log in `/var/log`. -/
theorem LogCall.ends_iff_sample :
    (LogCall.printf (ascii "%s\n") [.str (ascii "hi")]).Ends sampleLogWorld ↔
      sampleLogWorld.logDir.isSome :=
  LogCall.ends_iff sampleLogWorld (.printf (ascii "%s\n") [.str (ascii "hi")])
    ⟨ascii "hi\n", ascii "hi\n", vsnprintf_line (ascii "hi") [],
      vsnprintf_of_not_mem (by decide) []⟩

/-- The first message of a process that was started without the setup script. -/
theorem LogCall.not_all_end :
    ¬ ∀ (w : LogWorld) (call : LogCall), call.Formats → call.Ends w := by
  intro h
  have hcall : (LogCall.log (ascii "hi") none []).Formats :=
    ⟨ascii "hi", vsnprintf_of_not_mem (by decide) []⟩
  exact LogCall.not_ends hcall rfl (h { sampleLogWorld with logDir := none } _ hcall)

end Bcirc
