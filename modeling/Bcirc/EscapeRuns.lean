import Bcirc.RecvBuffers
import Mathlib.Data.List.SplitBy

/-!
# How long escaped text gets (`bcirc_escape_buf` in `src/log.c`)

`evenRuns` follows the loop of `bcirc_escape_buf` byte by byte. Here the
result is put in terms of the text itself, as its maximal runs of equal
bytes with those of `%` rounded up. A run of `%` grows by one byte at most
and only when it is odd, which happens for every other byte at worst: what
`recv` returns never gets near the ends of the arrays behind it.
-/

namespace Bcirc

open CProg CStr CArray

/-! ## Maximal runs -/

/-- `k` times `%` become `2 * ⌈k / 2⌉`. -/
def roundRun (run : Str) : Str :=
  if percent ∈ run then List.replicate (2 * ((run.length + 1) / 2)) percent else run

def roundRuns (s : Str) : Str := (s.splitBy (· == ·)).flatMap roundRun

theorem evenRunsFrom_replicate (k j : Nat) (t : Str) :
    evenRunsFrom k (List.replicate j percent ++ t) = evenRunsFrom (k + j) t := by
  induction j generalizing k with
  | zero => rfl
  | succ j ih =>
      rw [List.replicate_succ, List.cons_append, evenRunsFrom, if_pos rfl, ih, Nat.add_assoc,
        Nat.add_comm 1 j]

/-- A run that has come to its end. -/
theorem evenRunsFrom_end (k : Nat) {t : Str} (ht : t.head? ≠ some percent) :
    evenRunsFrom k t = List.replicate (2 * ((k + 1) / 2)) percent ++ evenRuns t := by
  cases t with
  | nil => rw [evenRunsFrom, evenRuns_nil, List.append_nil]
  | cons c t =>
      have hc : c ≠ percent := fun h => ht (by rw [h]; rfl)
      rw [evenRunsFrom, if_neg hc, evenRuns_cons_ne hc, evenRuns]

/-- A run of one byte, and text that does not go on with that byte. -/
theorem evenRuns_run (c : UInt8) (k : Nat) {t : Str} (ht : t.head? ≠ some c) :
    evenRuns (List.replicate (k + 1) c ++ t) =
      roundRun (List.replicate (k + 1) c) ++ evenRuns t := by
  unfold roundRun
  by_cases hc : c = percent
  · subst hc
    have hmem : percent ∈ List.replicate (k + 1) percent := List.mem_cons_self
    rw [if_pos hmem, List.length_replicate, evenRuns, evenRunsFrom_replicate, Nat.zero_add,
      evenRunsFrom_end _ ht]
  · have hmem : percent ∉ List.replicate (k + 1) c := fun h =>
      hc (List.eq_of_mem_replicate h).symm
    rw [if_neg hmem, evenRuns_append_of_not_mem hmem]

theorem eq_replicate_of_run {run : Str} (hne : run ≠ []) (hrun : run.IsChain fun a b => a == b) :
    ∃ c k, run = List.replicate (k + 1) c ∧ run.getLast hne = c := by
  cases run with
  | nil => exact absurd rfl hne
  | cons c rest =>
      have hsame : (c :: rest).IsChain (· = ·) := hrun.imp fun _ _ h => eq_of_beq h
      have hall : List.replicate (rest.length + 1) c = c :: rest := by
        rw [List.replicate_succ, ← List.isChain_cons_eq_iff_eq_replicate.mp hsame]
      refine ⟨c, rest.length, hall.symm, ?_⟩
      have hlast : (c :: rest).getLast hne ∈ List.replicate (rest.length + 1) c := by
        rw [hall]
        exact List.getLast_mem hne
      exact List.eq_of_mem_replicate hlast

theorem evenRuns_flatten {runs : List Str} (hne : [] ∉ runs)
    (hruns : ∀ run ∈ runs, run.IsChain fun a b => a == b)
    (hends : runs.IsChain fun a b => ∃ ha hb, (a.getLast ha == b.head hb) = false) :
    evenRuns runs.flatten = runs.flatMap roundRun := by
  induction runs with
  | nil => rfl
  | cons run runs ih =>
      rw [List.mem_cons, not_or] at hne
      obtain ⟨c, k, hrun, hlast⟩ :=
        eq_replicate_of_run (Ne.symm hne.1) (hruns run List.mem_cons_self)
      have hend : runs.flatten.head? ≠ some c := by
        cases runs with
        | nil => exact nofun
        | cons next runs =>
            obtain ⟨ha, hb, hdiffers⟩ := (List.isChain_cons_cons.mp hends).1
            rw [List.flatten_cons, List.head?_append_of_ne_nil _ hb, List.head?_eq_some_head hb]
            intro hsame
            rw [hlast, Option.some.inj hsame, beq_self_eq_true] at hdiffers
            cases hdiffers
      have hrest := ih hne.2 (fun run hrun => hruns run (List.mem_cons_of_mem _ hrun)) hends.tail
      rw [List.flatten_cons, List.flatMap_cons, ← hrest, hrun]
      exact evenRuns_run c k hend

theorem evenRuns_eq_roundRuns (s : Str) : evenRuns s = roundRuns s := by
  have hsplit := evenRuns_flatten (List.nil_notMem_splitBy (· == ·) s)
    (fun _ => List.isChain_of_mem_splitBy) (List.isChain_getLast_head_splitBy (· == ·) s)
  rwa [List.flatten_splitBy] at hsplit

example : roundRuns (ascii "5%% of 7%, %%%") = ascii "5%% of 7%%, %%%%" := by decide

/-! ## The arrays -/

/-- `bcirc_escape_buf(s, escaped)` returns 1, all its writes being inside
their arrays, and leaves the string `text` in `escaped`. -/
structure EscapesTo (m : RecvMemory) (s text : Str) : Prop where
  returns : ∃ strCopy, escapeStores s m.strCopy 0 = .ok (some (strCopy, text.length + 1))
  written : escapeInto m.strCopy s m.escaped = .ok (filled m.escaped (text ++ [0]))

/-- `server_recv` can copy the string in `escaped` to `to_tokenized` and
find it there, and `get_chan_event` can copy each of its lines to its own
`to_tokenized[1024]`. -/
structure FitsBehind (m : RecvMemory) (text : Str) : Prop where
  copied : ∃ toTokenized,
    storeAll m.toTokenized 0 (strncpyBytes escapedSize (filled m.escaped (text ++ [0]))) =
        .ok toTokenized ∧
      0 ∈ toTokenized ∧ untilNul toTokenized = text
  lines : ∀ line ∈ tokens isCrLf text, ∀ toTokenized : List UInt8, toTokenized.length = 1024 →
    storeAll toTokenized 0 (line ++ [0]) = .ok (filled toTokenized (line ++ [0]))

section Escaped

variable (m : RecvMemory) {s : Str}

theorem escapesTo_dropLast (hne : s ≠ []) (hnul : 0 ∉ s)
    (hlen : (evenRuns s).length ≤ escapedSize) : EscapesTo m s (evenRuns s).dropLast where
  returns := by
    have hroom : ([] : Str).length + (evenRuns s).length ≤ maxLen :=
      (Nat.zero_add _).le.trans (hlen.trans (by decide))
    have hloop := escapeStores_filled m.length_strCopy s []
    rw [escapeLoop_eq hroom, filled_nil, List.length_nil, List.nil_append] at hloop
    have hpos : (evenRuns s).dropLast.length + 1 = (evenRuns s).length := by
      have hruns := List.length_pos_iff.mpr (evenRuns_ne_nil hne)
      rw [List.length_dropLast]
      omega
    rw [hpos]
    exact ⟨_, hloop⟩
  written := by
    have hinto := @escapeInto_eq m s
    rw [untilNul_of_not_mem hnul] at hinto
    exact hinto hne hlen

theorem fitsBehind_of_short {text : Str} (hnul : 0 ∉ text) (hlen : text.length < 1024) :
    FitsBehind m text where
  copied := by
    obtain ⟨rest, hrest⟩ := strncpyBytes_ended (n := escapedSize) hnul hlen
    have hsame : strncpyBytes escapedSize (filled m.escaped (text ++ [0])) =
        strncpyBytes escapedSize text := by
      rw [strncpyBytes, untilNul_filled]
      rfl
    refine ⟨text ++ 0 :: rest, ?_, List.mem_append_right _ List.mem_cons_self, ?_⟩
    · rw [hsame, ← hrest]
      exact storeAll_whole (by rw [length_strncpyBytes, m.length_toTokenized])
    · rw [untilNul_append hnul]
      exact List.append_nil text
  lines := by
    intro line hline toTokenized hsize
    have hcut := (of_mem_tokens hline).2.2.length_le
    refine storeAll_start ?_
    rw [List.length_append, List.length_singleton, hsize]
    omega

/-- A text that `recv` can return is escaped as meant, gets at most half as
long again, and fits every array behind it. -/
theorem bcircEscapeBuf_rounds (hne : s ≠ []) (hnul : 0 ∉ s) (hlen : s.length ≤ 512) :
    EscapesTo m s (roundRuns s).dropLast ∧
      (roundRuns s).dropLast.length ≤ s.length + (s.length + 1) / 2 - 1 ∧
      (roundRuns s).dropLast.length ≤ 767 ∧ FitsBehind m (roundRuns s).dropLast := by
  rw [← evenRuns_eq_roundRuns]
  have hgrown := length_evenRuns_le_add_half s
  have hbound : (evenRuns s).dropLast.length ≤ s.length + (s.length + 1) / 2 - 1 := by
    rw [List.length_dropLast]
    omega
  have hescaped : (evenRuns s).length ≤ escapedSize := by
    unfold escapedSize
    omega
  have hshort : (evenRuns s).dropLast.length ≤ 767 := by omega
  have hfree : 0 ∉ (evenRuns s).dropLast := by
    have hcut := zero_not_mem_escaped s
    rwa [untilNul_of_not_mem hnul] at hcut
  exact ⟨escapesTo_dropLast m hne hnul hescaped, hbound, hshort,
    fitsBehind_of_short m hfree (by omega)⟩

/-- Nearly every other byte is a `%`. -/
theorem bcircEscapeBuf_rounds_sample :
    EscapesTo zeroed (ascii "%a%%%b%\r\n") (roundRuns (ascii "%a%%%b%\r\n")).dropLast ∧
      (roundRuns (ascii "%a%%%b%\r\n")).dropLast.length ≤ 13 ∧
      (roundRuns (ascii "%a%%%b%\r\n")).dropLast.length ≤ 767 ∧
      FitsBehind zeroed (roundRuns (ascii "%a%%%b%\r\n")).dropLast :=
  bcircEscapeBuf_rounds zeroed (by decide) (by decide) (by decide)

end Escaped

end Bcirc
