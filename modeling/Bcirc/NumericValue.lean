import Bcirc.Core
import Bcirc.Events

/-!
# The value of a numeric (`get_numeric` in
`plugins/src/events-handler/events.c`)

`is_fulldigit` takes digits without end and `atoi` makes an `int` of them:
a word of digits is raised with its own value when an `int` can hold that,
and with another one when it cannot.
-/

namespace Bcirc

open CProg CStr

variable {φ : Type}

/-- The second word of the line is `word`, all of it digits. -/
def Numbered (line word : Str) : Prop :=
  (tokens isSpace line)[1]? = some word ∧ isFulldigit word

/-- `got_in` is all that listens. -/
def welcomeRaise (raise : Str → List Arg → Prog (Bot φ World) Int) (_ : Str) (args : List Arg) :
    Prog (Bot φ World) Int := gotIn raise args

/-- Whoever listens: a number is raised once, with its value and the whole
line, and nothing is for any other line; and the core plugin is moved by
the number 1 only. -/
structure ValueRaised (line : Str) : Prop where
  raised : ∀ {word}, Numbered line word →
    ∀ {σ : Type} (raise : Str → List Arg → Prog σ Int) (srv : Nat),
      getNumeric raise [.server srv, .str line] = (do
        let _ ← raise callbackGotNumeric [.server srv, .int (decimal word), .str line]
        pure bcircPluginOk)
  silent : (∀ word, ¬ Numbered line word) →
    ∀ {σ : Type} (raise : Str → List Arg → Prog σ Int) (srv : Nat),
      getNumeric raise [.server srv, .str line] = pure bcircPluginOk
  welcome : ∀ {φ : Type} (raise : Str → List Arg → Prog (Bot φ World) Int) (srv : Nat)
    (bot : Bot φ World),
      getNumeric (welcomeRaise raise) [.server srv, .str line] bot ≠ .ok bcircPluginOk bot →
      ∃ word, Numbered line word ∧ decimal word = 1

/-! ## The number -/

/-- `INT_MAX`. -/
def intMax : Nat := 0x7fffffff

theorem atoi_of_digits {word : Str} (hne : word ≠ []) (hdigits : isFulldigit word) :
    atoi word = ((min (decimal word) longMax : Nat) : Int).bmod 0x100000000 := by
  obtain ⟨c, digits, rfl⟩ := List.exists_cons_of_ne_nil hne
  have hall : ∀ d ∈ c :: digits, isDigit d := List.all_eq_true.mp hdigits
  have hdigit : isDigit c := hall c List.mem_cons_self
  have hblank : isBlank c = false := by
    unfold isDigit at hdigit
    unfold isBlank
    grind
  have hstart : (c :: digits).dropWhile isBlank = c :: digits :=
    List.dropWhile_cons_of_neg (by rw [hblank]; exact Bool.false_ne_true)
  have hword : (c :: digits).takeWhile isDigit = c :: digits :=
    List.takeWhile_eq_self_iff.mpr hall
  have hminus : c ≠ 45 := by
    rintro rfl
    cases hdigit
  have hplus : c ≠ 43 := by
    rintro rfl
    cases hdigit
  unfold atoi
  rw [hstart]
  split
  · rename_i digits' heq
    exact absurd (List.cons.inj heq).1 hminus
  · rename_i digits' heq
    exact absurd (List.cons.inj heq).1 hplus
  · show (Int.ofNat (min (decimal ((c :: digits).takeWhile isDigit)) longMax)).bmod _ = _
    rw [hword]
    rfl

/-- An `int` holds the value, or `atoi` makes another one of it. -/
theorem atoi_eq_decimal_iff {word : Str} (hne : word ≠ []) (hdigits : isFulldigit word) :
    atoi word = decimal word ↔ decimal word ≤ intMax := by
  rw [atoi_of_digits hne hdigits]
  unfold intMax longMax
  rw [Int.bmod_def]
  split
  · omega
  · omega

/-- What `get_numeric` reads is the second word. -/
theorem numericOf_eq (line : Str) :
    numericOf line = ((tokens isSpace line)[1]?).bind fun word =>
      if isFulldigit word then some (atoi word) else none := by
  unfold numericOf
  cases hwords : tokens isSpace line with
  | nil =>
      rw [strtokR_of_tokens_nil hwords]
      rfl
  | cons first words =>
      obtain ⟨save, hcut, hsave⟩ := strtokR_of_tokens_cons hwords
      rw [hcut]
      cases hrest : words with
      | nil =>
          simp only
          rw [strtokR_of_tokens_nil (hsave.trans hrest)]
          rfl
      | cons second words =>
          obtain ⟨save', hcut', -⟩ := strtokR_of_tokens_cons (hsave.trans hrest)
          simp only
          rw [hcut']
          rfl

theorem numericOf_numbered {line word : Str} (h : Numbered line word) :
    numericOf line = some (atoi word) := by
  rw [numericOf_eq, h.1]
  exact if_pos h.2

theorem numericOf_eq_none {line : Str} (h : ∀ word, ¬ Numbered line word) :
    numericOf line = none := by
  rw [numericOf_eq]
  cases hword : (tokens isSpace line)[1]? with
  | none => rfl
  | some word => exact if_neg fun hdigits => h word ⟨hword, hdigits⟩

theorem Numbered.ne_nil {line word : Str} (h : Numbered line word) : word ≠ [] :=
  (of_mem_tokens (List.mem_of_getElem? h.1)).1

/-- RPL_WELCOME, whatever `atoi` makes of the word. -/
def isWelcome (line : Str) : Bool :=
  match (tokens isSpace line)[1]? with
  | some word => isFulldigit word && decimal word == 1
  | none => false

/-- A line that `got_in` is told of as RPL_WELCOME is one. -/
def WelcomeRead (line : Str) : Prop := numericOf line = some rplWelcome → isWelcome line = true

/-! ## When it has the value of the word -/

theorem gotIn_run (raise : Str → List Arg → Prog (Bot φ World) Int) (srv : Nat) {numeric : Int}
    (hnumeric : numeric ≠ rplWelcome) (line : Str) :
    gotIn raise [.server srv, .int numeric, .str line] = pure bcircPluginContinue :=
  if_pos hnumeric

/-- A callback that notes what it is given sees the value. -/
theorem ValueRaised.atoi_eq {line word : Str} (h : ValueRaised line) (hword : Numbered line word) :
    atoi word = decimal word := by
  have hraised := congrArg (fun run => endState (run []))
    (h.raised hword (fun _ args => do modify (args :: ·); pure 0) 0)
  rw [getNumeric_str, numericOf_numbered hword] at hraised
  have hvalue : [[Arg.server 0, Arg.int (atoi word), Arg.str line]] =
      [[Arg.server 0, Arg.int (decimal word), Arg.str line]] := hraised
  simpa using hvalue

/-- The value is that of the word as long as an `int` holds it. -/
theorem valueRaised_iff (line : Str) :
    ValueRaised line ↔ ∀ word, Numbered line word → decimal word ≤ intMax := by
  constructor
  · intro h word hword
    exact (atoi_eq_decimal_iff hword.ne_nil hword.2).mp (h.atoi_eq hword)
  · intro h
    refine ⟨?_, ?_, ?_⟩
    · intro word hword σ raise srv
      rw [getNumeric_str, numericOf_numbered hword,
        (atoi_eq_decimal_iff hword.ne_nil hword.2).mpr (h word hword)]
    · intro hnone σ raise srv
      rw [getNumeric_str, numericOf_eq_none hnone]
    · intro φ raise srv bot hmoved
      by_contra hother
      refine hmoved ?_
      rw [getNumeric_str]
      by_cases hnumbered : ∃ word, Numbered line word
      · obtain ⟨word, hword⟩ := hnumbered
        have hvalue := (atoi_eq_decimal_iff hword.ne_nil hword.2).mpr (h word hword)
        have hwelcome : atoi word ≠ rplWelcome := by
          rw [hvalue]
          unfold rplWelcome
          intro hone
          exact hother ⟨word, hword, by exact_mod_cast hone⟩
        rw [numericOf_numbered hword]
        simp only [welcomeRaise, gotIn_run raise srv hwelcome line]
        rfl
      · rw [numericOf_eq_none (not_exists.mp hnumbered)]
        rfl

/-- `4294967297` is raised as the welcome. -/
theorem not_valueRaised : ¬ ValueRaised (ascii ":irc 4294967297 me") := by
  intro h
  have hword : Numbered (ascii ":irc 4294967297 me") (ascii "4294967297") :=
    ⟨by decide +kernel, by decide +kernel⟩
  have hwelcome : atoi (ascii "4294967297") = rplWelcome := by decide +kernel
  have hvalue : decimal (ascii "4294967297") = 4294967297 := by decide +kernel
  have hsame := h.atoi_eq hword
  rw [hwelcome, hvalue] at hsame
  exact absurd hsame (by decide)

end Bcirc
