import Bcirc.Entities

/-!
# Looking up a name (`get_named_entity` in
`plugins/src/title/entities.c`)

`cmp` looks at no more of the key than a row's name is long, so it says
"equal" for a prefix of the text. That is the row that was meant because
every name in the table ends in its only semicolon, and the search comes to
it because the names are in order.
-/

namespace Bcirc

open CStr BSearch

/-! ## The table -/

def isEntityRow (row : Str × Str) : Bool :=
  row.1.getLast? == some 59 && !row.1.dropLast.contains 59 && !row.1.contains 0 &&
    !row.1.contains 38 && row.1.head? != some 35 && !row.2.contains 0 &&
    decide (row.2.length ≤ row.1.length)

theorem isEntityRow_of_mem : ∀ row ∈ namedEntities, isEntityRow row := by
  have hall : namedEntities.all isEntityRow = true := by decide +kernel
  exact List.all_eq_true.mp hall

theorem namedEntities_isChain : namedEntities.IsChain fun p q => Precedes p.1 q.1 := by
  decide +kernel

/-- A name is a word and a semicolon, and no shorter than its character. -/
structure EntityRow (row : Str × Str) : Prop where
  ends : ∃ word, row.1 = word ++ [59] ∧ 59 ∉ word
  noNul : 0 ∉ row.1
  noAmp : 38 ∉ row.1
  noHash : row.1.head? ≠ some 35
  valueNoNul : 0 ∉ row.2
  short : row.2.length ≤ row.1.length

theorem entityRow_of_mem {row : Str × Str} (h : row ∈ namedEntities) : EntityRow row := by
  have hrow := isEntityRow_of_mem row h
  simp only [isEntityRow, Bool.and_eq_true, beq_iff_eq, Bool.not_eq_true', bne_iff_ne,
    List.contains_eq_mem, decide_eq_false_iff_not, decide_eq_true_eq] at hrow
  obtain ⟨⟨⟨⟨⟨⟨hlast, hword⟩, hnul⟩, hamp⟩, hhash⟩, hvalue⟩, hshort⟩ := hrow
  exact ⟨⟨_, (List.dropLast_append_getLast? 59 hlast).symm, hword⟩, hnul, hamp, hhash, hvalue,
    hshort⟩

theorem namedEntities_pairwise : namedEntities.Pairwise fun p q => Precedes p.1 q.1 :=
  haveI : IsTrans (Str × Str) fun p q => Precedes p.1 q.1 := ⟨fun _ _ _ => Precedes.trans⟩
  List.isChain_iff_pairwise.mp namedEntities_isChain

/-! ## The search -/

theorem graded_cmp (name : Str) : Graded (cmp name) namedEntities := by
  refine namedEntities_pairwise.imp_of_mem fun {p q} _ hq hpq hle => ?_
  exact hpq.strncmp_neg (entityRow_of_mem hq).noNul hle

/-- The row whose name the text starts with. -/
theorem getNamedEntity_some_iff (name value : Str) :
    getNamedEntity name = some value ↔ ∃ n, (n, value) ∈ namedEntities ∧ n <+: name := by
  have hcmp : ∀ row ∈ namedEntities, cmp name row = 0 ↔ row.1 <+: name := fun row hrow =>
    strncmp_length_eq_zero_iff (entityRow_of_mem hrow).noNul name
  rw [getNamedEntity, Option.map_eq_some_iff]
  constructor
  · rintro ⟨⟨n, v⟩, hfound, rfl⟩
    obtain ⟨hmem, hzero⟩ := (bsearch_eq_some_iff (graded_cmp name)).mp hfound
    exact ⟨n, hmem, (hcmp _ hmem).mp hzero⟩
  · rintro ⟨n, hmem, hprefix⟩
    exact ⟨(n, value),
      (bsearch_eq_some_iff (graded_cmp name)).mpr ⟨hmem, (hcmp _ hmem).mpr hprefix⟩, rfl⟩

/-! ## References by name -/

section Named

variable {s : Str} {row : Str × Str}

/-- The semicolon of the name is the first in the text. -/
theorem memchr_of_name (hrow : row ∈ namedEntities) (hname : row.1 <+: s) :
    memchr (38 :: s) 59 = some row.1.length := by
  obtain ⟨word, hword, hfree⟩ := (entityRow_of_mem hrow).ends
  obtain ⟨rest, rfl⟩ := hname
  have hcut : 38 :: (row.1 ++ rest) = (38 :: word) ++ 59 :: rest := by
    rw [hword, List.append_assoc, List.singleton_append, List.cons_append]
  rw [hcut, memchr_append (by simpa using hfree), hword, List.length_append,
    List.length_singleton, List.length_cons]

theorem parseEntity_of_name (hrow : row ∈ namedEntities) (hname : row.1 <+: s) :
    parseEntity (38 :: s) = some (row.2, row.1.length + 1) := by
  have hhash : s[0]? ≠ some 35 := by
    obtain ⟨word, hword, hfree⟩ := (entityRow_of_mem hrow).ends
    have hhead := (entityRow_of_mem hrow).noHash
    obtain ⟨rest, rfl⟩ := hname
    rw [← List.head?_eq_getElem?, List.head?_append_of_ne_nil _ (by rw [hword]; simp)]
    exact hhead
  have hvalue := (getNamedEntity_some_iff s row.2).mpr ⟨row.1, hrow, hname⟩
  unfold parseEntity
  rw [memchr_of_name hrow hname]
  simp only [List.getElem?_cons_succ, List.drop_succ_cons, List.drop_zero]
  rw [if_neg hhash, hvalue]
  rfl

theorem of_parseEntity_named {value : Str} {len : Nat} (hhash : s[0]? ≠ some 35)
    (h : parseEntity (38 :: s) = some (value, len)) :
    ∃ name, (name, value) ∈ namedEntities ∧ name <+: s ∧ len = name.length + 1 := by
  unfold parseEntity at h
  cases hsemi : memchr (38 :: s) 59 with
  | none =>
      rw [hsemi] at h
      cases h
  | some semicolon =>
      rw [hsemi] at h
      simp only [List.getElem?_cons_succ, List.drop_succ_cons, List.drop_zero] at h
      rw [if_neg hhash] at h
      obtain ⟨v, hfound, heq⟩ := Option.map_eq_some_iff.mp h
      obtain ⟨rfl, rfl⟩ := Prod.mk.inj heq
      obtain ⟨name, hmem, hprefix⟩ := (getNamedEntity_some_iff s v).mp hfound
      have hlen := memchr_of_name hmem hprefix
      rw [hsemi] at hlen
      exact ⟨name, hmem, hprefix, congrArg (· + 1) (Option.some.inj hlen)⟩

/-- Behind an `&` a name is found if, and only if, the text starts with one
of the table, whatever follows its semicolon. -/
theorem parseEntity_name_iff (value : Str) (len : Nat) (hhash : s[0]? ≠ some 35) :
    parseEntity (38 :: s) = some (value, len) ↔
      ∃ name, (name, value) ∈ namedEntities ∧ name <+: s ∧ len = name.length + 1 := by
  constructor
  · exact of_parseEntity_named hhash
  · rintro ⟨name, hmem, hprefix, rfl⟩
    exact parseEntity_of_name hmem hprefix

theorem parseEntity_name_iff_sample :
    parseEntity (38 :: ascii "lt; b") = some (ascii "<", 4) ↔
      ∃ name, (name, ascii "<") ∈ namedEntities ∧ name <+: ascii "lt; b" ∧ 4 = name.length + 1 :=
  parseEntity_name_iff (ascii "<") 4 (by decide)

end Named

end Bcirc
