import Bcirc.CStr

/-!
# Words in one string

Strings that are put together from pieces, as the words in them see it: two
pieces keep their words unless the last word of one runs into the first of
the other (`tokens_append_iff`).
-/

namespace CStr

variable {delim : UInt8 → Bool}

/-! ## Seams -/

/-- The last word of `s` ends where `s` does. -/
def OpenEnd (delim : UInt8 → Bool) (s : Str) : Prop := ∃ c ∈ s.getLast?, delim c = false

/-- The first word of `s` starts where `s` does. -/
def OpenStart (delim : UInt8 → Bool) (s : Str) : Prop := ∃ c ∈ s.head?, delim c = false

theorem tokens_append_of_not_openEnd {a : Str} (ha : ¬ OpenEnd delim a) (b : Str) :
    tokens delim (a ++ b) = tokens delim a ++ tokens delim b := by
  rcases List.eq_nil_or_concat a with rfl | ⟨a, d, rfl⟩
  · simp
  · have hd : delim d := by
      simpa [OpenEnd] using ha
    rw [List.concat_eq_append, List.append_assoc, List.singleton_append, tokens_append_cons a b hd,
      tokens_concat_delim a hd]

theorem tokens_append_of_not_openStart (a : Str) {b : Str} (hb : ¬ OpenStart delim b) :
    tokens delim (a ++ b) = tokens delim a ++ tokens delim b := by
  cases b with
  | nil => simp
  | cons d b =>
      have hd : delim d := by
        simpa [OpenStart] using hb
      rw [tokens_append_cons a b hd, tokens_cons_delim b hd]

/-- The first word of `t ++ s` goes on where `s` does. -/
theorem tokens_word_append {t : Str} (ht : t ≠ []) (hnd : ∀ c ∈ t, delim c = false) (s : Str) :
    ∃ rest, tokens delim (t ++ s) = (t ++ s.takeWhile (!delim ·)) :: rest ∧
      (s.takeWhile (!delim ·) ≠ [] → tokens delim s = s.takeWhile (!delim ·) :: rest) := by
  have hword := takeWhile_not_delim delim s
  have hne : t ++ s.takeWhile (!delim ·) ≠ [] := by simp [ht]
  have hfree : ∀ c ∈ t ++ s.takeWhile (!delim ·), delim c = false := by
    intro c hc
    rcases List.mem_append.mp hc with hc | hc
    · exact hnd c hc
    · exact hword c hc
  rcases takeWhile_append_tail delim s with ⟨hall, -⟩ | ⟨d, hd, hcut⟩
  · refine ⟨[], ?_, ?_⟩
    · rw [← hall] at hne hfree ⊢
      exact tokens_word hne hfree
    · intro hs
      rw [← hall] at hs hword ⊢
      exact tokens_word hs hword
  · refine ⟨tokens delim (s.dropWhile (!delim ·)).tail, ?_, ?_⟩
    · refine (congrArg (fun s => tokens delim (t ++ s)) hcut).trans ?_
      simp only [← List.append_assoc]
      exact tokens_word_cons hne hfree hd _
    · intro hs
      exact (congrArg (tokens delim) hcut).trans (tokens_word_cons hs hword hd _)

/-- Two words become one. -/
theorem length_tokens_append_open {a b : Str} (ha : OpenEnd delim a) (hb : OpenStart delim b) :
    (tokens delim (a ++ b)).length + 1 = (tokens delim a).length + (tokens delim b).length := by
  induction a using delim_induction delim with
  | free a hnd =>
      have hne : a ≠ [] := by
        rintro rfl
        obtain ⟨c, hc, -⟩ := ha
        cases hc
      have hword : b.takeWhile (!delim ·) ≠ [] := by
        cases b with
        | nil =>
            obtain ⟨c, hc, -⟩ := hb
            cases hc
        | cons c t =>
            have hc : delim c = false := by
              simpa [OpenStart] using hb
            simp [hc]
      obtain ⟨rest, happ, hrest⟩ := tokens_word_append hne hnd b
      rw [happ, hrest hword, tokens_word hne hnd]
      simp only [List.length_cons, List.length_nil]
      omega
  | cut t d r ht hd ih =>
      have hr : OpenEnd delim r := by
        rcases List.eq_nil_or_concat r with rfl | ⟨r, e, rfl⟩
        · simp [OpenEnd, hd] at ha
        · have hcons : t ++ d :: r.concat e = (t ++ d :: r) ++ [e] := by simp
          obtain ⟨c, hc, hnot⟩ := ha
          rw [hcons, List.getLast?_concat] at hc
          exact ⟨c, by simpa using hc, hnot⟩
      have hih := ih hr
      rw [List.append_assoc, List.cons_append, tokens_append_cons t _ hd,
        tokens_append_cons t _ hd, List.length_append, List.length_append]
      omega

theorem length_tokens_append_le (a b : Str) :
    (tokens delim (a ++ b)).length ≤ (tokens delim a).length + (tokens delim b).length := by
  by_cases ha : OpenEnd delim a
  · by_cases hb : OpenStart delim b
    · have hlen := length_tokens_append_open ha hb
      omega
    · rw [tokens_append_of_not_openStart a hb, List.length_append]
  · rw [tokens_append_of_not_openEnd ha, List.length_append]

theorem tokens_append_iff (a b : Str) :
    tokens delim (a ++ b) = tokens delim a ++ tokens delim b ↔
      ¬ (OpenEnd delim a ∧ OpenStart delim b) := by
  constructor
  · rintro h ⟨ha, hb⟩
    have hlen := length_tokens_append_open ha hb
    rw [h, List.length_append] at hlen
    omega
  · intro h
    by_cases ha : OpenEnd delim a
    · exact tokens_append_of_not_openStart a fun hb => h ⟨ha, hb⟩
    · exact tokens_append_of_not_openEnd ha b

/-- No word runs over from one piece to the next, when the pieces are put
behind `s` one after the other. -/
def Seamless (delim : UInt8 → Bool) : Str → List Str → Prop
  | _, [] => True
  | s, p :: ps => ¬ (OpenEnd delim s ∧ OpenStart delim p) ∧ Seamless delim (s ++ p) ps

theorem length_tokens_flatten_le (ps : List Str) :
    (tokens delim ps.flatten).length ≤ (ps.flatMap (tokens delim)).length := by
  induction ps with
  | nil => simp
  | cons p ps ih =>
      rw [List.flatten_cons, List.flatMap_cons, List.length_append]
      exact (length_tokens_append_le p ps.flatten).trans (Nat.add_le_add_left ih _)

/-- A string that grew piece by piece. -/
theorem tokens_flatten_iff (s : Str) (ps : List Str) :
    tokens delim (s ++ ps.flatten) = tokens delim s ++ ps.flatMap (tokens delim) ↔
      Seamless delim s ps := by
  induction ps generalizing s with
  | nil => simp [Seamless]
  | cons p ps ih =>
      rw [List.flatten_cons, List.flatMap_cons, ← List.append_assoc, ← List.append_assoc,
        Seamless]
      constructor
      · intro h
        -- a word too few at the first seam is missing in the end
        have hseam : ¬ (OpenEnd delim s ∧ OpenStart delim p) := by
          rintro ⟨hs, hp⟩
          have hopen := length_tokens_append_open hs hp
          have hle : (tokens delim ((s ++ p) ++ ps.flatten)).length ≤
              (tokens delim (s ++ p)).length + (ps.flatMap (tokens delim)).length :=
            (length_tokens_append_le (s ++ p) ps.flatten).trans
              (Nat.add_le_add_left (length_tokens_flatten_le ps) _)
          rw [h] at hle
          simp only [List.length_append] at hle
          omega
        rw [← (tokens_append_iff s p).mpr hseam] at h
        exact ⟨hseam, (ih (s ++ p)).mp h⟩
      · rintro ⟨hseam, hrest⟩
        rw [(ih (s ++ p)).mpr hrest, (tokens_append_iff s p).mpr hseam]

/-! ## Joined words -/

/-- The words with one `d` between any two. -/
def joinWords (d : UInt8) : List Str → Str
  | [] => []
  | [w] => w
  | w :: ws => w ++ d :: joinWords d ws

/-- What a list of words has to be so that it can be read back. -/
def AreWords (delim : UInt8 → Bool) (ws : List Str) : Prop :=
  ∀ w ∈ ws, w ≠ [] ∧ ∀ c ∈ w, delim c = false

instance (ws : List Str) : Decidable (AreWords delim ws) :=
  inferInstanceAs (Decidable (∀ w ∈ ws, w ≠ [] ∧ ∀ c ∈ w, delim c = false))

theorem tokens_joinWords {d : UInt8} (hd : delim d) {ws : List Str} (hws : AreWords delim ws) :
    tokens delim (joinWords d ws) = ws := by
  induction ws with
  | nil => exact tokens_nil
  | cons w ws ih =>
      obtain ⟨⟨hne, hnd⟩, hrest⟩ := List.forall_mem_cons.mp hws
      cases ws with
      | nil => exact tokens_word hne hnd
      | cons w' ws =>
          show tokens delim (w ++ d :: joinWords d (w' :: ws)) = _
          rw [tokens_word_cons hne hnd hd, ih hrest]

theorem openStart_joinWords {d : UInt8} {ws : List Str} (hws : AreWords delim ws) (s : Str)
    (hs : ¬ OpenStart delim s) : OpenStart delim (joinWords d ws ++ s) ↔ ws ≠ [] := by
  cases ws with
  | nil => simpa [joinWords] using hs
  | cons w ws =>
      obtain ⟨hne, hnd⟩ := hws w List.mem_cons_self
      obtain ⟨c, t, rfl⟩ := List.exists_cons_of_ne_nil hne
      have hc : delim c = false := hnd c List.mem_cons_self
      cases ws with
      | nil => simp [joinWords, OpenStart, hc]
      | cons w' ws => simp [joinWords, OpenStart, hc]

theorem openEnd_joinWords {d : UInt8} {w : Str} {ws : List Str}
    (hws : AreWords delim (w :: ws)) : OpenEnd delim (joinWords d (w :: ws)) := by
  induction ws generalizing w with
  | nil =>
      obtain ⟨hne, hnd⟩ := hws w List.mem_cons_self
      exact ⟨w.getLast hne, List.getLast?_eq_some_getLast hne,
        hnd _ (List.getLast_mem hne)⟩
  | cons w' ws ih =>
      obtain ⟨c, hc, hnd⟩ := ih fun x hx => hws x (List.mem_cons_of_mem _ hx)
      refine ⟨c, ?_, hnd⟩
      show c ∈ (w ++ d :: joinWords d (w' :: ws)).getLast?
      rw [Option.mem_def] at hc ⊢
      rw [List.getLast?_append, List.getLast?_cons, hc]
      rfl

end CStr
