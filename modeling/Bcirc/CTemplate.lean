import Bcirc.CFormat

/-!
# Formats with `%s` only

`fillIn` is what a format with `%s` only comes to. Used as a format itself,
the result is read piece by piece: text that is complete on its own
(`Formats`) can stand in any place of it.
-/

namespace CFormat

open CProg CStr

/-- `head`, and before each of the texts a `%s`. -/
def template (head : Str) (texts : List Str) : Str := head ++ texts.flatMap fun t => 37 :: 115 :: t

/-- `head`, and before each of the texts its argument. -/
def fillIn (head : Str) (fields : List (Str × Str)) : Str :=
  head ++ fields.flatMap fun f => f.1 ++ f.2

theorem template_cons (head t : Str) (texts : List Str) :
    template head (t :: texts) = head ++ 37 :: 115 :: template t texts := rfl

theorem fillIn_cons (head : Str) (f : Str × Str) (fields : List (Str × Str)) :
    fillIn head (f :: fields) = head ++ (f.1 ++ fillIn f.2 fields) := by
  simp [fillIn]

theorem vsnprintf_template {head : Str} {fields : List (Str × Str)} (hhead : 37 ∉ head)
    (htexts : ∀ f ∈ fields, 37 ∉ f.2) :
    vsnprintf (template head (fields.map Prod.snd)) (fields.map fun f => .str f.1) =
      .ok (fillIn head fields) := by
  induction fields generalizing head with
  | nil =>
      have hend : template head [] = head := List.append_nil head
      rw [List.map_nil, List.map_nil, hend, vsnprintf_of_not_mem hhead, fillIn, List.flatMap_nil,
        List.append_nil]
  | cons f fields ih =>
      obtain ⟨hf, hfields⟩ := List.forall_mem_cons.mp htexts
      have hconvert : convert 115 (.str f.1 :: fields.map fun f => .str f.1) =
          some (f.1, fields.map fun f => .str f.1) := rfl
      rw [List.map_cons, List.map_cons, template_cons, vsnprintf_append hhead,
        vsnprintf_directive hconvert, ih hf hfields, fillIn_cons]
      rfl

/-- As the first part of a format `t` takes no argument and comes to `out`,
whatever follows. -/
def Formats (t out : Str) : Prop :=
  ∀ fmt args, vsnprintf (t ++ fmt) args = (out ++ ·) <$> vsnprintf fmt args

section Formats

variable {t out t' out' : Str}

theorem formats_of_not_mem (h : 37 ∉ t) : Formats t t := vsnprintf_append h

theorem Formats.append (h : Formats t out) (h' : Formats t' out') :
    Formats (t ++ t') (out ++ out') := by
  intro fmt args
  rw [List.append_assoc, h, h', Functor.map_map]
  simp only [List.append_assoc]

theorem Formats.eq_ok (h : Formats t out) (args : List FormatArg) :
    vsnprintf t args = .ok out := by
  have hrun := h [] args
  rw [List.append_nil] at hrun
  rw [hrun]
  show Except.ok (out ++ []) = _
  rw [List.append_nil]

/-- The fields of a line are read one by one. -/
theorem Formats.fillIn {head : Str} (hhead : 37 ∉ head) {fields : List (Str × Str)}
    {read : Str → Str} (htexts : ∀ f ∈ fields, 37 ∉ f.2)
    (hread : ∀ f ∈ fields, Formats f.1 (read f.1)) :
    Formats (fillIn head fields) (CFormat.fillIn head (fields.map fun f => (read f.1, f.2))) := by
  induction fields generalizing head with
  | nil =>
      rw [List.map_nil, CFormat.fillIn, List.flatMap_nil, List.append_nil]
      exact formats_of_not_mem hhead
  | cons f fields ih =>
      obtain ⟨hf, hfields⟩ := List.forall_mem_cons.mp htexts
      obtain ⟨hfirst, hrest⟩ := List.forall_mem_cons.mp hread
      rw [List.map_cons, fillIn_cons, fillIn_cons]
      exact (formats_of_not_mem hhead).append (hfirst.append (ih hf hfields hrest))

end Formats

/-- Without arguments nothing is added. -/
theorem mem_of_vsnprintf_nil {fmt out : Str} (h : vsnprintf fmt [] = .ok out) {c : UInt8}
    (hc : c ∈ out) : c ∈ fmt := by
  induction hn : fmt.length using Nat.strong_induction_on generalizing fmt out with
  | _ n ih =>
      cases fmt with
      | nil =>
          obtain rfl : [] = out := Except.ok.inj h
          exact hc
      | cons b fmt =>
          rw [List.length_cons] at hn
          by_cases hb : b = 37
          · subst hb
            cases fmt with
            | nil => cases h
            | cons d rest =>
                rw [List.length_cons] at hn
                by_cases hd : d = 37
                · subst hd
                  rw [vsnprintf_directive (if_pos rfl)] at h
                  obtain ⟨out', hrest, rfl⟩ := of_map_ok h
                  rcases List.mem_cons.mp hc with rfl | hc
                  · exact List.mem_cons_self
                  · exact List.mem_cons_of_mem _ (List.mem_cons_of_mem _
                      (ih rest.length (by omega) hrest hc rfl))
                · have hnone : convert d [] = none := if_neg hd
                  rw [vsnprintf.eq_def] at h
                  simp only [ne_eq, not_true, if_false, hnone] at h
                  cases h
          · rw [vsnprintf_cons_ne hb] at h
            obtain ⟨out', hrest, rfl⟩ := of_map_ok h
            rcases List.mem_cons.mp hc with rfl | hc
            · exact List.mem_cons_self
            · exact List.mem_cons_of_mem _ (ih fmt.length (by omega) hrest hc rfl)

end CFormat
