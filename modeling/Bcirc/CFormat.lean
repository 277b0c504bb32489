import Bcirc.CProg
import Bcirc.CStr

/-!
# Formats of `printf`

`vsnprintf` with the directives `%%`, `%s` and `%d`; a directive that is
cut off, unknown or without its argument is undefined. A format that is
given no arguments comes out as it is exactly when no `%` is in it.
-/

namespace CFormat

open CProg CStr

inductive FormatArg where
  | str (s : Str)
  | int (n : Int)
  deriving DecidableEq, Repr

/-- The directive `%d`: what it prints, and the arguments left to the rest. -/
def convert (d : UInt8) (args : List FormatArg) : Option (Str × List FormatArg) :=
  if d = 37 then some ([37], args)
  else
    match args with
    | .str s :: args => if d = 115 then some (s, args) else none
    | .int n :: args => if d = 100 then some (ascii (toString n), args) else none
    | [] => none

def vsnprintf : Str → List FormatArg → Except Fault Str
  | [], _ => .ok []
  | c :: fmt, args =>
      if c ≠ 37 then (c :: ·) <$> vsnprintf fmt args
      else
        match fmt with
        | [] => .error .badFormat
        | d :: rest =>
          match convert d args with
          | none => .error .badFormat
          | some (out, args) => (out ++ ·) <$> vsnprintf rest args

theorem vsnprintf_cons_ne {c : UInt8} (hc : c ≠ 37) (fmt : Str) (args : List FormatArg) :
    vsnprintf (c :: fmt) args = (c :: ·) <$> vsnprintf fmt args := by
  rw [vsnprintf.eq_def]
  exact if_pos hc

theorem vsnprintf_directive {d : UInt8} {args args' : List FormatArg} {out : Str}
    (h : convert d args = some (out, args')) (fmt : Str) :
    vsnprintf (37 :: d :: fmt) args = (out ++ ·) <$> vsnprintf fmt args' := by
  rw [vsnprintf.eq_def]
  simp only [ne_eq, not_true, if_false, h]

theorem vsnprintf_pairs (n : Nat) (fmt : Str) (args : List FormatArg) :
    vsnprintf (List.replicate (2 * n) 37 ++ fmt) args =
      (List.replicate n 37 ++ ·) <$> vsnprintf fmt args := by
  induction n with
  | zero => simp
  | succ n ih =>
      have hpair : List.replicate (2 * (n + 1)) (37 : UInt8) =
          37 :: 37 :: List.replicate (2 * n) 37 := by
        rw [Nat.mul_succ, List.replicate_succ, List.replicate_succ]
      rw [hpair, List.cons_append, List.cons_append, vsnprintf_directive (if_pos rfl), ih,
        Functor.map_map]
      rfl

theorem vsnprintf_append {a : Str} (ha : 37 ∉ a) (fmt : Str) (args : List FormatArg) :
    vsnprintf (a ++ fmt) args = (a ++ ·) <$> vsnprintf fmt args := by
  induction a with
  | nil => simp
  | cons c a ih =>
      rw [List.mem_cons, not_or] at ha
      rw [List.cons_append, vsnprintf_cons_ne (Ne.symm ha.1), ih ha.2, Functor.map_map]
      rfl

theorem vsnprintf_of_not_mem {fmt : Str} (h : 37 ∉ fmt) (args : List FormatArg) :
    vsnprintf fmt args = .ok fmt := by
  have happ := vsnprintf_append h [] args
  rw [List.append_nil] at happ
  rw [happ]
  show Except.ok (fmt ++ []) = Except.ok fmt
  rw [List.append_nil]

theorem of_map_ok {α β : Type} {f : α → β} {x : Except Fault α} {b : β} (h : f <$> x = .ok b) :
    ∃ a, x = .ok a ∧ f a = b := by
  cases x with
  | error e => cases h
  | ok a => exact ⟨a, rfl, Except.ok.inj h⟩

/-- Without arguments nothing gets longer, and every `%` makes it shorter. -/
theorem length_vsnprintf_nil {fmt out : Str} (h : vsnprintf fmt [] = .ok out) :
    out.length ≤ fmt.length ∧ (37 ∈ fmt → out.length < fmt.length) := by
  induction hn : fmt.length using Nat.strong_induction_on generalizing fmt out with
  | _ n ih =>
      subst hn
      cases fmt with
      | nil =>
          obtain rfl : [] = out := Except.ok.inj h
          simp
      | cons c fmt =>
          by_cases hc : c = 37
          · subst hc
            cases fmt with
            | nil => cases h
            | cons d rest =>
                by_cases hd : d = 37
                · subst hd
                  rw [vsnprintf_directive (if_pos rfl)] at h
                  obtain ⟨out', hrest, rfl⟩ := of_map_ok h
                  obtain ⟨hle, -⟩ :=
                    ih rest.length (by rw [List.length_cons, List.length_cons]; omega) hrest rfl
                  simp only [List.length_append, List.length_cons, List.length_nil]
                  omega
                · have hnone : convert d [] = none := if_neg hd
                  rw [vsnprintf.eq_def] at h
                  simp only [ne_eq, not_true, if_false, hnone] at h
                  cases h
          · rw [vsnprintf_cons_ne hc] at h
            obtain ⟨out', hrest, rfl⟩ := of_map_ok h
            obtain ⟨hle, hlt⟩ := ih fmt.length (by rw [List.length_cons]; omega) hrest rfl
            simp only [List.length_cons]
            refine ⟨by omega, fun hmem => ?_⟩
            rcases List.mem_cons.mp hmem with heq | hmem
            · exact absurd heq.symm hc
            · have := hlt hmem
              omega

theorem vsnprintf_eq_self_iff (fmt : Str) : vsnprintf fmt [] = .ok fmt ↔ 37 ∉ fmt := by
  constructor
  · intro h hmem
    exact absurd ((length_vsnprintf_nil h).2 hmem) (lt_irrefl _)
  · exact fun h => vsnprintf_of_not_mem h []

end CFormat
