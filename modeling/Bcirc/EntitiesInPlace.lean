import Bcirc.EntityText

/-!
# Decoding in place (`decode_html_entities_utf8` in
`plugins/src/title/entities.c`)

The loop writes at `to` while it still reads at `from`, and in place both
are in the same buffer. What has been written is never longer than what has
been read (`parseEntity_bounds`), so `to` does not overtake `from`, and the
text behind `from` is still the one that was passed in. With a buffer of
its own for the result the same holds because the text is elsewhere
(`Clear`). Either way the run does nothing but write the decoded text and
its terminator at `dest`.
-/

namespace Bcirc

open CProg CStr CMem

/-- The result ends up in the text itself, in front of it, or behind it. -/
def Clear (dest src : Nat) (s : Str) : Prop := dest ≤ src ∨ src + s.length + 1 ≤ dest

section Run

variable {mem : Mem} {dest src : Nat} {s : Str}

/-- No more has been written than was read: the rest can still be read. -/
theorem HoldsAt.ahead (hs : HoldsAt mem src s) (hroom : dest + s.length + 1 ≤ mem.length)
    (hclear : Clear dest src s) (out : Str) (i : Nat) (hout : out.length ≤ i)
    (hi : i ≤ s.length) : HoldsAt (overwrite mem dest out) (src + i) (s.drop i) := by
  rcases hclear with hle | hle
  · exact (hs.advance hi).overwrite_below (by omega)
  · exact (hs.overwrite_above hle (by omega)).advance hi

theorem decodeLoop_stop (hs : HoldsAt mem src s) (hroom : dest + s.length + 1 ≤ mem.length)
    (hclear : Clear dest src s) {n i : Nat} {out : Str} (hout : out.length ≤ i)
    (hi : i ≤ s.length) (hamp : 38 ∉ s.drop i) :
    decodeLoop (n + 1) (dest + out.length) (src + i) (overwrite mem dest out) =
      .ok (dest + out.length, src + i) (overwrite mem dest out) := by
  have hahead := HoldsAt.ahead hs hroom hclear out i hout hi
  rw [decodeLoop, bind_ok (stringAt_run hahead), memchr_eq_none.mpr hamp]
  rfl

/-- A turn of the loop, from `i` bytes read and `out` written: it goes on
with more of both, and what the text comes to is the same. -/
theorem decodeLoop_turn (hs : HoldsAt mem src s) (hroom : dest + s.length + 1 ≤ mem.length)
    (hclear : Clear dest src s) {i : Nat} {out : Str} (hout : out.length ≤ i)
    (hi : i ≤ s.length) (hamp : 38 ∈ s.drop i) :
    ∃ i' out', i < i' ∧ out'.length ≤ i' ∧ i' ≤ s.length ∧
      out ++ decoded (s.drop i) = out' ++ decoded (s.drop i') ∧
      ∀ n, decodeLoop (n + 1) (dest + out.length) (src + i) (overwrite mem dest out) =
        decodeLoop n (dest + out'.length) (src + i') (overwrite mem dest out') := by
  obtain ⟨a, b, hcut, ha⟩ := List.eq_append_cons_of_mem hamp
  have hsize := congrArg List.length hcut
  rw [List.length_drop, List.length_append, List.length_cons] at hsize
  have hrest : s.drop (i + a.length) = 38 :: b := by
    rw [← List.drop_drop, hcut, List.drop_left]
  have hahead := HoldsAt.ahead hs hroom hclear out i hout hi
  have hmove := memmove_next (n := a.length) hahead
    (by rw [hcut, List.length_append]; omega) (by omega)
  rw [hcut, List.take_left] at hmove
  have hcurrent := HoldsAt.ahead hs hroom hclear (out ++ a) (i + a.length)
    (by rw [List.length_append]; omega) (by omega)
  rw [hrest] at hcurrent
  have hat := memchr_append ha b
  cases hparse : parseEntity (38 :: b) with
  | some r =>
      obtain ⟨bytes, len⟩ := r
      obtain ⟨hshort, hin⟩ := parseEntity_bounds hparse
      rw [List.length_cons] at hin
      have hwrite := writeBytes_next mem dest (out ++ a) bytes
        (by rw [List.length_append]; omega)
      rw [List.length_append, ← Nat.add_assoc] at hwrite
      refine ⟨i + a.length + len, out ++ a ++ bytes, by omega, ?_, by omega, ?_, fun n => ?_⟩
      · rw [List.length_append, List.length_append]
        omega
      · rw [hcut, decoded_append_plain ha, decoded_reference hparse, ← hrest, List.drop_drop]
        simp only [List.append_assoc]
      · rw [decodeLoop, bind_ok (stringAt_run hahead), hcut, hat]
        simp only
        rw [bind_ok hmove, Nat.add_assoc src i, bind_ok (stringAt_run hcurrent), hparse]
        simp only
        rw [bind_ok hwrite]
        simp only [List.length_append, Nat.add_assoc]
  | none =>
      have hwrite := writeBytes_next mem dest (out ++ a) [38]
        (by rw [List.length_append, List.length_singleton]; omega)
      rw [List.length_append, ← Nat.add_assoc] at hwrite
      refine ⟨i + a.length + 1, out ++ a ++ [38], by omega, ?_, by omega, ?_, fun n => ?_⟩
      · rw [List.length_append, List.length_append, List.length_singleton]
        omega
      · rw [hcut, decoded_append_plain ha, decoded_amp hparse, ← List.drop_drop, hrest]
        simp only [List.append_assoc, List.singleton_append, List.drop_succ_cons, List.drop_zero]
      · rw [decodeLoop, bind_ok (stringAt_run hahead), hcut, hat]
        simp only
        rw [bind_ok hmove, Nat.add_assoc src i, bind_ok (stringAt_run hcurrent), hparse]
        simp only [List.take_succ_cons, List.take_zero]
        rw [bind_ok hwrite]
        simp only [List.length_append, List.length_singleton, Nat.add_assoc]

/-- The whole loop, by the turns it takes. -/
theorem decodeLoop_run (hs : HoldsAt mem src s) (hroom : dest + s.length + 1 ≤ mem.length)
    (hclear : Clear dest src s) (n i : Nat) (out : Str) (hout : out.length ≤ i)
    (hi : i ≤ s.length) (hn : s.length < n + i) :
    ∃ k written, written.length ≤ k ∧ k ≤ s.length ∧
      out ++ decoded (s.drop i) = written ++ s.drop k ∧
      decodeLoop n (dest + out.length) (src + i) (overwrite mem dest out) =
        .ok (dest + written.length, src + k) (overwrite mem dest written) := by
  induction n generalizing i out with
  | zero => omega
  | succ n ih =>
      by_cases hamp : 38 ∈ s.drop i
      · obtain ⟨i', out', hlt, hout', hi', htext, hturn⟩ :=
          decodeLoop_turn hs hroom hclear hout hi hamp
        obtain ⟨k, written, hk, hks, hrest, hrun⟩ := ih i' out' hout' hi' (by omega)
        exact ⟨k, written, hk, hks, htext.trans hrest, (hturn n).trans hrun⟩
      · have hplain := decoded_append_plain hamp []
        rw [List.append_nil, decoded_nil, List.append_nil] at hplain
        exact ⟨i, out, hout, hi, by rw [hplain],
          decodeLoop_stop hs hroom hclear hout hi hamp⟩

/-- The call writes the decoded text and its terminator, and nothing else. -/
theorem decodeHtmlEntitiesUtf8_ok (source : Option Nat) (hs : HoldsAt mem (source.getD dest) s)
    (hroom : dest + s.length + 1 ≤ mem.length) (hclear : Clear dest (source.getD dest) s) :
    decodeHtmlEntitiesUtf8 dest source mem =
      .ok (decoded s).length (overwrite mem dest (decoded s ++ [0])) := by
  obtain ⟨k, written, hk, hks, htext, hrun⟩ :=
    decodeLoop_run hs hroom hclear (mem.length + 1) 0 [] (Nat.le_refl 0) (Nat.zero_le _)
      (by omega)
  rw [List.nil_append, List.drop_zero] at htext
  simp only [List.length_nil, Nat.add_zero, overwrite_nil] at hrun
  have hahead := HoldsAt.ahead hs hroom hclear written k hk hks
  have hmove := memmove_next (n := (s.drop k).length) hahead (Nat.le_refl _)
    (by rw [List.length_drop]; omega)
  rw [List.take_length, ← htext] at hmove
  have hshort := length_decoded_le s
  have hlen := congrArg List.length htext
  rw [List.length_append] at hlen
  have hend := writeBytes_next mem dest (decoded s) [0]
    (by rw [List.length_singleton]; omega)
  unfold decodeHtmlEntitiesUtf8
  rw [get_bind_run, bind_ok hrun]
  simp only
  rw [bind_ok (stringAt_run hahead), bind_ok hmove, Nat.add_assoc dest, ← hlen, bind_ok hend,
    Nat.add_sub_cancel_left]
  rfl

/-- In place, in front of the text or in a buffer of its own: the call
returns, its only effect is the decoded text and a terminator at `dest`,
and these fit where the text itself would. -/
theorem decodeHtmlEntitiesUtf8_run {source : Option Nat}
    (hs : HoldsAt mem (source.getD dest) s) (hroom : dest + s.length + 1 ≤ mem.length)
    (hclear : Clear dest (source.getD dest) s) :
    decodeHtmlEntitiesUtf8 dest source mem =
        .ok (decoded s).length (overwrite mem dest (decoded s ++ [0])) ∧
      (decoded s).length ≤ s.length :=
  ⟨decodeHtmlEntitiesUtf8_ok source hs hroom hclear, length_decoded_le s⟩

theorem decodeHtmlEntitiesUtf8_run_sample :
    decodeHtmlEntitiesUtf8 0 none (ascii "a&#60;b" ++ [0, 7]) =
        .ok (decoded (ascii "a&#60;b")).length
          (overwrite (ascii "a&#60;b" ++ [0, 7]) 0 (decoded (ascii "a&#60;b") ++ [0])) ∧
      (decoded (ascii "a&#60;b")).length ≤ (ascii "a&#60;b").length :=
  decodeHtmlEntitiesUtf8_run ⟨by decide, [7], rfl⟩ (by decide) (Or.inl (Nat.le_refl 0))

theorem overwrite_text (hs : HoldsAt mem dest s) : overwrite mem dest (s ++ [0]) = mem := by
  obtain ⟨-, rest, hdrop⟩ := hs
  have hcut : s ++ 0 :: rest = (s ++ [0]) ++ rest := by
    rw [List.append_assoc, List.singleton_append]
  rw [hcut] at hdrop
  rw [overwrite, ← List.drop_drop, hdrop, List.drop_left, List.append_assoc, ← hdrop,
    List.take_append_drop]

/-- In place, the buffer is left as it was, and the length of the text is
returned, exactly when no `&` in it begins a reference; else less is. -/
theorem decodeHtmlEntitiesUtf8_unchanged_iff (hs : HoldsAt mem dest s) :
    ∃ n mem', decodeHtmlEntitiesUtf8 dest none mem = .ok n mem' ∧
      (n = s.length ↔ NoReference s) ∧ (mem' = mem ↔ NoReference s) ∧ n ≤ s.length := by
  have hbound := hs.bound
  refine ⟨_, _, decodeHtmlEntitiesUtf8_ok none hs hbound (Or.inl (Nat.le_refl dest)),
    (length_decoded_eq_iff s).1, ?_, length_decoded_le s⟩
  constructor
  · intro hsame
    refine (length_decoded_eq_iff s).2.mp ?_
    obtain ⟨hnul, rest, hdrop⟩ := hs
    have hstart : (overwrite mem dest (decoded s ++ [0])).drop dest =
        decoded s ++ [0] ++ mem.drop (dest + (decoded s ++ [0]).length) :=
      drop_overwrite_start (by omega)
    rw [hsame, hdrop, List.append_assoc] at hstart
    -- an earlier terminator would have to be a byte of the text
    rcases List.append_eq_append_iff.mp hstart with ⟨a, ha, -⟩ | ⟨a, ha, hrest⟩
    · have hlen := congrArg List.length ha
      have hle := length_decoded_le s
      rw [List.length_append] at hlen
      obtain rfl : a = [] := List.eq_nil_of_length_eq_zero (by omega)
      rw [ha, List.append_nil]
    · cases a with
      | nil => rw [← List.append_nil (decoded s), ← ha]
      | cons c a =>
          rw [List.singleton_append, List.cons_append] at hrest
          obtain ⟨rfl, -⟩ := List.cons.inj hrest
          exact absurd (ha ▸ List.mem_append_right _ List.mem_cons_self) hnul
  · intro h
    rw [decoded_of_noReference h]
    exact overwrite_text hs

theorem decodeHtmlEntitiesUtf8_unchanged_iff_sample :
    ∃ n mem', decodeHtmlEntitiesUtf8 0 none (ascii "R&D" ++ [0]) = .ok n mem' ∧
      (n = (ascii "R&D").length ↔ NoReference (ascii "R&D")) ∧
      (mem' = ascii "R&D" ++ [0] ↔ NoReference (ascii "R&D")) ∧ n ≤ (ascii "R&D").length :=
  decodeHtmlEntitiesUtf8_unchanged_iff ⟨by decide, [], rfl⟩

end Run

end Bcirc
