import Mathlib.Logic.Basic

/-!
# Loops, turn by turn

A loop is what one turn of it does to its variables: it goes on, or leaves
with a result. `Exits` and `RunsOn` are the two ways a run of it can go.
-/

namespace Loop

variable {S R : Type}

inductive Turn (S R : Type) where
  | again (s : S)
  | exit (r : R)
  deriving DecidableEq, Repr

variable {turn : S → Turn S R} {s s' : S} {r r' : R}

/-- What `n` turns come to. -/
def turns (turn : S → Turn S R) : Nat → S → Turn S R
  | 0, s => .again s
  | n + 1, s =>
    match turn s with
    | .again s' => turns turn n s'
    | .exit r => .exit r

def Exits (turn : S → Turn S R) (s : S) (r : R) : Prop := ∃ n, turns turn n s = .exit r

def RunsOn (turn : S → Turn S R) (s : S) : Prop := ∀ n, ∃ s', turns turn n s = .again s'

theorem turns_again (h : turn s = .again s') (n : Nat) :
    turns turn (n + 1) s = turns turn n s' := by
  rw [turns, h]

theorem exits_of_exit (h : turn s = .exit r) : Exits turn s r := ⟨1, by rw [turns, h]⟩

theorem Exits.again (hturn : turn s = .again s') (h : Exits turn s' r) : Exits turn s r := by
  obtain ⟨n, hn⟩ := h
  exact ⟨n + 1, (turns_again hturn n).trans hn⟩

theorem RunsOn.not_exits (h : RunsOn turn s) : ¬ Exits turn s r := by
  rintro ⟨n, hn⟩
  obtain ⟨s', hs'⟩ := h n
  rw [hn] at hs'
  cases hs'

/-- The first turn that leaves decides on the result. -/
theorem Exits.unique (h : Exits turn s r) (h' : Exits turn s r') : r = r' := by
  obtain ⟨n, hn⟩ := h
  obtain ⟨m, hm⟩ := h'
  induction n generalizing s m with
  | zero => cases hn
  | succ n ih =>
      cases m with
      | zero => cases hm
      | succ m =>
          cases hturn : turn s with
          | again s' =>
              rw [turns_again hturn] at hn hm
              exact ih hn m hm
          | exit r'' =>
              rw [turns, hturn] at hn hm
              cases hn
              cases hm
              rfl

/-- A loop that can never leave. -/
theorem runsOn_of_invariant {I : S → Prop} (hI : ∀ s, I s → ∃ s', turn s = .again s' ∧ I s')
    (hs : I s) : RunsOn turn s := by
  intro n
  induction n generalizing s with
  | zero => exact ⟨s, rfl⟩
  | succ n ih =>
      obtain ⟨s', hturn, hs'⟩ := hI s hs
      rw [turns_again hturn]
      exact ih hs'

/-- Every turn after which the loop goes on has used some of `left` up. -/
def UsesUp (turn : S → Turn S R) (left : S → Nat) (s : S) : Prop :=
  ∀ n s₁ s₂, turns turn n s = .again s₁ → turn s₁ = .again s₂ → left s₂ < left s₁

/-- A loop that leaves in its first turn. -/
theorem usesUp_of_exit (h : turn s = .exit r) (left : S → Nat) : UsesUp turn left s := by
  intro n s₁ s₂ hturns hagain
  cases n with
  | zero =>
      cases hturns
      rw [h] at hagain
      cases hagain
  | succ n =>
      rw [turns, h] at hturns
      cases hturns

end Loop
