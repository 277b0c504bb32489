import Bcirc.Title

/-!
# A page that arrives in chunks (`write_callback` in `plugins/src/title/title.c`)

Every chunk of a response is searched for a title on its own. A page whose
text has a match of the pattern anywhere can be cut so that no chunk has
one, and so that one chunk is a shortest match: the title queued depends
on the cut exactly when there is something to be found.
-/

namespace Bcirc

open CProg CStr

/-! ## The pattern -/

/-- What `<\s*title[^>]*>` matches. -/
def TitleTag (tag : Str) : Prop :=
  ∃ blanks attrs, tag = 60 :: blanks ++ (ascii "title" ++ attrs) ++ [62] ∧
    (∀ b ∈ blanks, isBlank b) ∧ 62 ∉ attrs

/-- A match of `<\s*title[^>]*>\s*([^<]+\s*)` in `s`: what comes before it,
the tag, the blanks after it, the group and the rest. -/
structure TitleSplit (s pre tag blanks group post : Str) : Prop where
  split : s = pre ++ (tag ++ (blanks ++ (group ++ post)))
  isTag : TitleTag tag
  allBlank : ∀ b ∈ blanks, isBlank b
  nonempty : group ≠ []
  noOpen : 60 ∉ group

/-- `regexec` with the pattern of the plugin: it fails only on text without
a match, and what it reports is the group of a match. -/
structure FindsTitle (titleMatch : Str → Option (Nat × Nat)) : Prop where
  none : ∀ s pre tag blanks group post, 0 ∉ s → titleMatch s = none →
    ¬ TitleSplit s pre tag blanks group post
  some : ∀ s rmSo rmEo, 0 ∉ s → titleMatch s = some (rmSo, rmEo) →
    ∃ pre tag blanks group post, TitleSplit s pre tag blanks group post ∧
      rmSo = (pre ++ (tag ++ blanks)).length ∧ rmEo = rmSo + group.length

/-- A tag and a byte after it that does not open another, in text without
NUL. -/
structure TitleStretch (body pre tag : List UInt8) (c : UInt8) (post : List UInt8) : Prop where
  split : body = pre ++ ((tag ++ [c]) ++ post)
  isTag : TitleTag tag
  byte : c ≠ 60
  noNul : 0 ∉ tag ++ [c]

/-- There is a title to be found. -/
def HasTitle (body : List UInt8) : Prop := ∃ pre tag c post, TitleStretch body pre tag c post

theorem TitleTag.two_le {tag : Str} (h : TitleTag tag) : 2 ≤ tag.length := by
  obtain ⟨blanks, attrs, rfl, -, -⟩ := h
  simp
  omega

theorem not_blank_of_lt {b : UInt8} (h : isBlank b) : b ≠ 60 := by
  rintro rfl
  cases h

theorem TitleSplit.first_byte {s pre tag blanks group post : Str}
    (h : TitleSplit s pre tag blanks group post) :
    ∃ c rest, blanks ++ group = c :: rest ∧ c ≠ 60 := by
  cases hb : blanks with
  | nil =>
      obtain ⟨c, rest, hg⟩ := List.exists_cons_of_ne_nil h.nonempty
      refine ⟨c, rest, hg, fun hc => h.noOpen ?_⟩
      rw [hg, hc]
      exact List.mem_cons_self
  | cons b blanks' =>
      exact ⟨b, blanks' ++ group, rfl, not_blank_of_lt (h.allBlank b (hb ▸ List.mem_cons_self))⟩

/-- A match begins with a tag and a byte. -/
theorem TitleSplit.stretch {s pre tag blanks group post : Str}
    (h : TitleSplit s pre tag blanks group post) (hs : 0 ∉ s) :
    ∃ c rest, blanks ++ group = c :: rest ∧ TitleStretch s pre tag c (rest ++ post) := by
  obtain ⟨c, rest, hcut, hc⟩ := h.first_byte
  have hsplit : s = pre ++ ((tag ++ [c]) ++ (rest ++ post)) := by
    rw [h.split, ← List.append_assoc blanks, hcut]
    simp
  refine ⟨c, rest, hcut, hsplit, h.isTag, hc, fun h0 => hs ?_⟩
  rw [hsplit]
  exact List.mem_append_right _ (List.mem_append_left _ h0)

theorem TitleStretch.of_infix {s before after pre tag post : List UInt8} {c : UInt8}
    (h : TitleStretch s pre tag c post) :
    TitleStretch (before ++ (s ++ after)) (before ++ pre) tag c (post ++ after) :=
  ⟨by rw [h.split]; simp, h.isTag, h.byte, h.noNul⟩

theorem exists_shortest {body : List UInt8} (h : HasTitle body) :
    ∃ pre tag c post, TitleStretch body pre tag c post ∧
      ∀ pre' tag' c' post', TitleStretch body pre' tag' c' post' → tag.length ≤ tag'.length := by
  obtain ⟨pre, tag, c, post, hstretch⟩ := h
  induction hn : tag.length using Nat.strong_induction_on generalizing pre tag c post with
  | _ n ih =>
      by_cases hshort : ∀ pre' tag' c' post', TitleStretch body pre' tag' c' post' →
          tag.length ≤ tag'.length
      · exact ⟨pre, tag, c, post, hstretch, hshort⟩
      · push Not at hshort
        obtain ⟨pre', tag', c', post', hstretch', hlt⟩ := hshort
        exact ih tag'.length (hn ▸ hlt) pre' tag' c' post' hstretch' rfl

/-! ## What a chunk does -/

section Chunks

variable {lib : TitleLib}

/-- The group of every match of a shortest stretch is one byte. -/
theorem titleMatch_shortest (hlib : FindsTitle lib.titleMatch) {body pre tag post : List UInt8}
    {c : UInt8} (hstretch : TitleStretch body pre tag c post)
    (hshort : ∀ pre' tag' c' post', TitleStretch body pre' tag' c' post' →
      tag.length ≤ tag'.length) :
    ∃ rmSo, lib.titleMatch (tag ++ [c]) = some (rmSo, rmSo + 1) := by
  cases hmatch : lib.titleMatch (tag ++ [c]) with
  | none =>
      have hsplit : TitleSplit (tag ++ [c]) [] tag [] [c] [] :=
        ⟨by simp, hstretch.isTag, by simp, by simp, by simpa using hstretch.byte.symm⟩
      exact absurd hsplit (hlib.none _ _ _ _ _ _ hstretch.noNul hmatch)
  | some m =>
      obtain ⟨rmSo, rmEo⟩ := m
      obtain ⟨pre', tag', blanks', group', post', hsplit, rfl, rfl⟩ :=
        hlib.some _ _ _ hstretch.noNul hmatch
      obtain ⟨c', rest, -, hinner⟩ := hsplit.stretch hstretch.noNul
      have hle := hshort _ _ _ _ (hstretch.split ▸ hinner.of_infix)
      have hlen := congrArg List.length hsplit.split
      have hpos := List.length_pos_iff.mpr hsplit.nonempty
      simp only [List.length_append, List.length_singleton] at hlen
      refine ⟨(pre' ++ (tag' ++ blanks')).length, ?_⟩
      rw [show group'.length = 1 by omega]

theorem writeCallback_none {ark : Ark} {code : Int} (hcode : code ≤ 299) {chunk : List UInt8}
    (h : lib.titleMatch (untilNul chunk) = none) (w : World) :
    writeCallback lib ark code chunk w = .ok ark w := by
  unfold writeCallback
  rw [if_neg (by omega)]
  simp only
  rw [h]
  rfl

theorem writeCallback_found {ark : Ark} (hfound : ark.found) (code : Int) (chunk : List UInt8)
    (w : World) : writeCallback lib ark code chunk w = .ok ark w := by
  unfold writeCallback
  by_cases hcode : 299 < code
  · rw [if_pos hcode]
    rfl
  · rw [if_neg hcode]
    simp only
    cases lib.titleMatch (untilNul chunk) with
    | none => rfl
    | some m =>
        simp only
        rw [if_pos hfound]
        rfl

/-- A short title is queued. -/
theorem writeCallback_title {ark : Ark} (hfound : ark.found = false) {code : Int}
    (hcode : code ≤ 299) {chunk : List UInt8} {rmSo rmEo : Nat}
    (h : lib.titleMatch (untilNul chunk) = some (rmSo, rmEo)) (hlen : rmEo - rmSo ≤ titleMaxLen)
    (w : World) :
    ∃ title, writeCallback lib ark code chunk w = .ok { ark with found := true }
      { w with privmsgQueue := w.privmsgQueue ++ [(title, ark.targetSave, ark.srvSave)] } := by
  refine ⟨(lib.decodeHtmlEntitiesUtf8
    (((untilNul chunk).drop rmSo).take (rmEo - rmSo))).filter (!isUnwanted ·), ?_⟩
  unfold writeCallback
  rw [if_neg (by omega)]
  simp only
  rw [h]
  simp only
  rw [hfound, if_neg Bool.false_ne_true, if_neg (by omega)]
  rfl

theorem writeChunks_append (chunks chunks' : List (Int × List UInt8)) (ark : Ark) :
    writeChunks lib (chunks ++ chunks') ark =
      (writeChunks lib chunks ark >>= writeChunks lib chunks') := by
  induction chunks generalizing ark with
  | nil => rw [List.nil_append, writeChunks, pure_bind]
  | cons chunk chunks ih =>
      rw [List.cons_append, writeChunks, writeChunks, bind_assoc]
      refine congrArg _ (funext fun ark => ?_)
      exact ih ark

theorem writeChunks_none {ark : Ark} {chunks : List (Int × List UInt8)}
    (h : ∀ chunk ∈ chunks, chunk.1 ≤ 299 ∧ lib.titleMatch (untilNul chunk.2) = none) (w : World) :
    writeChunks lib chunks ark w = .ok ark w := by
  induction chunks with
  | nil => rfl
  | cons chunk chunks ih =>
      obtain ⟨hcode, hnone⟩ := h chunk List.mem_cons_self
      rw [writeChunks, bind_ok (writeCallback_none hcode hnone w)]
      exact ih fun c hc => h c (List.mem_cons_of_mem chunk hc)

theorem writeChunks_found {ark : Ark} (hfound : ark.found) (chunks : List (Int × List UInt8))
    (w : World) : writeChunks lib chunks ark w = .ok ark w := by
  induction chunks with
  | nil => rfl
  | cons chunk chunks ih =>
      rw [writeChunks, bind_ok (writeCallback_found hfound chunk.1 chunk.2 w)]
      exact ih

/-! ## Two cuts of one page -/

/-- A world in which the next transfer brings these chunks, with that code. -/
def pageWorld (w : World) (code : Int) (cut : List (List UInt8)) : World :=
  { w with
    curlInits := true :: w.curlInits
    transfers := ⟨cut.map fun chunk => (code, chunk), true⟩ :: w.transfers }

/-- What is queued after the request. -/
def queuedAfter (lib : TitleLib) (left : Nat) (ark : Ark) (w : World) (code : Int)
    (cut : List (List UInt8)) : List (Str × Str × Nat) :=
  (endState (httpRequest lib left ark (pageWorld w code cut))).privmsgQueue

/-- Chunks are not empty. -/
structure IsChunking (body : List UInt8) (cut : List (List UInt8)) : Prop where
  flatten : cut.flatten = body
  nonempty : ∀ chunk ∈ cut, chunk ≠ []

def byBytes (s : List UInt8) : List (List UInt8) := s.map fun b => [b]

theorem flatten_byBytes (s : List UInt8) : (byBytes s).flatten = s := by
  induction s with
  | nil => rfl
  | cons b s ih =>
      show [b] ++ (byBytes s).flatten = b :: s
      rw [ih]
      rfl

theorem byBytes_nonempty (s : List UInt8) : ∀ chunk ∈ byBytes s, chunk ≠ [] := by
  intro chunk hchunk
  obtain ⟨b, -, rfl⟩ := List.mem_map.mp hchunk
  exact List.cons_ne_nil b []

theorem queuedAfter_eq (left : Nat) {ark ark' : Ark} {w w' : World} {code : Int}
    {cut : List (List UInt8)}
    (h : writeChunks lib (cut.map fun chunk => (code, chunk)) ark w = .ok ark' w') :
    queuedAfter lib left ark w code cut = w'.privmsgQueue := by
  have hinit : curlInit (pageWorld w code cut) =
      .ok true { w with transfers := ⟨cut.map fun chunk => (code, chunk), true⟩ :: w.transfers } :=
    rfl
  have hperform : curlPerform lib ark
      { w with transfers := ⟨cut.map fun chunk => (code, chunk), true⟩ :: w.transfers } =
      .ok (true, ark') w' := by
    show (writeChunks lib (cut.map fun chunk => (code, chunk)) ark >>= _) w = _
    rw [bind_ok h]
    rfl
  unfold queuedAfter
  rw [httpRequest.eq_def]
  simp only
  rw [bind_ok hinit]
  simp only [Bool.not_true, Bool.false_eq_true, if_false]
  rw [bind_ok hperform]
  rfl

/-- Single bytes have no title. -/
theorem titleMatch_byte (hlib : FindsTitle lib.titleMatch) (b : UInt8) :
    lib.titleMatch (untilNul [b]) = none := by
  cases hmatch : lib.titleMatch (untilNul [b]) with
  | none => rfl
  | some m =>
      obtain ⟨pre, tag, blanks, group, post, hsplit, -, -⟩ :=
        hlib.some _ m.1 m.2 (zero_not_mem_untilNul [b]) hmatch
      have htag := hsplit.isTag.two_le
      have hlen := congrArg List.length hsplit.split
      have hle : (untilNul [b]).length ≤ 1 := List.Sublist.length_le (List.takeWhile_sublist _)
      simp only [List.length_append] at hlen
      omega

/-- A page without a title: no chunk of it has one. -/
theorem titleMatch_chunk (hlib : FindsTitle lib.titleMatch) {body : List UInt8}
    (hnone : ¬ HasTitle body) {cut : List (List UInt8)} (hcut : cut.flatten = body)
    {chunk : List UInt8} (hchunk : chunk ∈ cut) : lib.titleMatch (untilNul chunk) = none := by
  cases hmatch : lib.titleMatch (untilNul chunk) with
  | none => rfl
  | some m =>
      have hnul := zero_not_mem_untilNul chunk
      obtain ⟨pre, tag, blanks, group, post, hsplit, -, -⟩ := hlib.some _ m.1 m.2 hnul hmatch
      obtain ⟨c, rest, -, hstretch⟩ := hsplit.stretch hnul
      obtain ⟨before, after, rfl⟩ := List.append_of_mem hchunk
      have hchunk : untilNul chunk ++ chunk.dropWhile (· ≠ 0) = chunk :=
        List.takeWhile_append_dropWhile
      have hbody : body = before.flatten ++
          (untilNul chunk ++ (chunk.dropWhile (· ≠ 0) ++ after.flatten)) := by
        rw [← hcut, List.flatten_append, List.flatten_cons,
          ← List.append_assoc (untilNul chunk), hchunk]
      exact absurd ⟨_, _, _, _, hbody ▸ hstretch.of_infix⟩ hnone

/-- Chunks without a title leave the ark as it is. -/
theorem writeChunks_untitled {code : Int} (hcode : code ≤ 299) (ark : Ark) (w : World)
    {cut : List (List UInt8)} (hnone : ∀ chunk ∈ cut, lib.titleMatch (untilNul chunk) = none) :
    writeChunks lib (cut.map fun chunk => (code, chunk)) ark w = .ok ark w := by
  refine writeChunks_none (fun c hc => ?_) w
  obtain ⟨chunk, hchunk, rfl⟩ := List.mem_map.mp hc
  exact ⟨hcode, hnone chunk hchunk⟩

theorem titleMatch_byBytes (hlib : FindsTitle lib.titleMatch) (s : List UInt8) :
    ∀ chunk ∈ byBytes s, lib.titleMatch (untilNul chunk) = none := by
  intro chunk hchunk
  obtain ⟨b, -, rfl⟩ := List.mem_map.mp hchunk
  exact titleMatch_byte hlib b

/-- A page with a title, cut so that the first one that ends is a chunk of its own. -/
theorem writeChunks_titled (hlib : FindsTitle lib.titleMatch) {ark : Ark}
    (hfound : ark.found = false) (w : World) {code : Int} (hcode : code ≤ 299)
    {body : List UInt8} (htitle : HasTitle body) :
    ∃ cut title, IsChunking body cut ∧
      writeChunks lib (cut.map fun chunk => (code, chunk)) ark w =
        .ok { ark with found := true }
          { w with privmsgQueue := w.privmsgQueue ++ [(title, ark.targetSave, ark.srvSave)] } := by
  obtain ⟨pre, tag, c, post, hstretch, hshort⟩ := exists_shortest htitle
  obtain ⟨rmSo, hmatch⟩ := titleMatch_shortest hlib hstretch hshort
  rw [← untilNul_of_not_mem hstretch.noNul] at hmatch
  obtain ⟨title, htitled⟩ := writeCallback_title hfound hcode hmatch
    (by unfold titleMaxLen; omega) w
  refine ⟨byBytes pre ++ (tag ++ [c]) :: byBytes post, title, ⟨?_, ?_⟩, ?_⟩
  · rw [List.flatten_append, List.flatten_cons, flatten_byBytes, flatten_byBytes, hstretch.split]
  · rw [List.forall_mem_append, List.forall_mem_cons]
    exact ⟨byBytes_nonempty pre, by simp, byBytes_nonempty post⟩
  · rw [List.map_append, writeChunks_append,
      bind_ok (writeChunks_untitled hcode ark w (titleMatch_byBytes hlib pre)), List.map_cons,
      writeChunks, bind_ok htitled]
    exact writeChunks_found rfl _ _

/-- Every way to cut a page leads to the same title, or to none, if and only
if the page has no title to be found. -/
theorem queuedAfter_eq_iff (hlib : FindsTitle lib.titleMatch) (left : Nat) {ark : Ark}
    (hfound : ark.found = false) (w : World) {code : Int} (hcode : code ≤ 299)
    (body : List UInt8) :
    (∀ cut₁ cut₂, IsChunking body cut₁ → IsChunking body cut₂ →
        queuedAfter lib left ark w code cut₁ = queuedAfter lib left ark w code cut₂) ↔
      ¬ HasTitle body := by
  constructor
  · intro hsame htitle
    obtain ⟨cut, title, hcut, hrun⟩ := writeChunks_titled hlib hfound w hcode htitle
    have hqueues := hsame _ _ ⟨flatten_byBytes body, byBytes_nonempty body⟩ hcut
    rw [queuedAfter_eq left (writeChunks_untitled hcode ark w (titleMatch_byBytes hlib body)),
      queuedAfter_eq left hrun] at hqueues
    simp at hqueues
  · intro hnone cut₁ cut₂ h₁ h₂
    have huntitled : ∀ cut, IsChunking body cut →
        queuedAfter lib left ark w code cut = w.privmsgQueue := fun cut h =>
      queuedAfter_eq left
        (writeChunks_untitled hcode ark w fun _ => titleMatch_chunk hlib hnone h.flatten)
    rw [huntitled cut₁ h₁, huntitled cut₂ h₂]

end Chunks

/-! ## A matcher -/

/-- The tag at the start of `s`, and what comes after it. -/
def splitTag : Str → Option (Str × Str)
  | [] => none
  | c :: s =>
      let name := s.dropWhile isBlank
      if c = 60 ∧ (ascii "title").isPrefixOf name ∧ 62 ∈ name.drop 5 then
        some (60 :: s.takeWhile isBlank ++
            (ascii "title" ++ (name.drop 5).takeWhile (· ≠ 62)) ++ [62],
          ((name.drop 5).dropWhile (· ≠ 62)).tail)
      else none

/-- The longest text up to the next `'<'`, as blanks and a group. -/
def splitGroup (rest : Str) : Option (Str × Str) :=
  let run := rest.takeWhile (· ≠ 60)
  match run.reverse with
  | [] => none
  | c :: init =>
      if run.all isBlank then some (init.reverse, [c])
      else some (run.takeWhile isBlank, run.dropWhile isBlank)

def titleMatchAt (s : Str) : Option (Nat × Nat) := do
  let (tag, rest) ← splitTag s
  let (blanks, group) ← splitGroup rest
  pure ((tag ++ blanks).length, (tag ++ blanks).length + group.length)

def titleMatcher : Str → Option (Nat × Nat)
  | [] => none
  | c :: s =>
    match titleMatchAt (c :: s) with
    | some m => some m
    | none => (titleMatcher s).map fun m => (m.1 + 1, m.2 + 1)

example : titleMatcher (ascii "<p>< title a=b> \nHi </title>") = some (17, 20) := by decide +kernel

theorem cut_at {c : UInt8} {a : Str} (h : c ∉ a) (b : Str) :
    (a ++ c :: b).takeWhile (· ≠ c) = a ∧ (a ++ c :: b).dropWhile (· ≠ c) = c :: b := by
  have hne : ∀ d ∈ a, decide (d ≠ c) = true := fun d hd => by
    simpa using fun heq : d = c => h (heq ▸ hd)
  rw [List.takeWhile_append_of_pos hne, List.dropWhile_append_of_pos hne]
  simp

theorem of_splitTag {s tag rest : Str} (h : splitTag s = some (tag, rest)) :
    s = tag ++ rest ∧ TitleTag tag := by
  cases s with
  | nil => cases h
  | cons c s =>
      unfold splitTag at h
      simp only at h
      split at h
      · rename_i hc
        obtain ⟨rfl, hname, hclose⟩ := hc
        obtain ⟨t, ht⟩ := List.isPrefixOf_iff_prefix.mp hname
        have hdrop : (s.dropWhile isBlank).drop 5 = t := by
          rw [← ht]
          rfl
        rw [hdrop] at h hclose
        obtain ⟨attrs, after, rfl, hattrs⟩ := List.eq_append_cons_of_mem hclose
        obtain ⟨htake, hskip⟩ := cut_at hattrs after
        rw [htake, hskip] at h
        obtain ⟨rfl, rfl⟩ := Prod.mk.inj (Option.some.inj h)
        refine ⟨?_, s.takeWhile isBlank, attrs, rfl, fun b hb => List.mem_takeWhile_imp hb, hattrs⟩
        have hs : s = s.takeWhile isBlank ++ (ascii "title" ++ (attrs ++ 62 :: after)) := by
          rw [ht, List.takeWhile_append_dropWhile]
        conv_lhs => rw [hs]
        simp
      · cases h

theorem splitTag_tag {tag : Str} (h : TitleTag tag) (rest : Str) :
    splitTag (tag ++ rest) = some (tag, rest) := by
  obtain ⟨blanks, attrs, rfl, hblanks, hattrs⟩ := h
  have hline : 60 :: blanks ++ (ascii "title" ++ attrs) ++ [62] ++ rest =
      60 :: (blanks ++ (ascii "title" ++ (attrs ++ 62 :: rest))) := by simp
  have htitle : ascii "title" = 116 :: ascii "itle" := rfl
  have hname : (blanks ++ (ascii "title" ++ (attrs ++ 62 :: rest))).dropWhile isBlank =
      ascii "title" ++ (attrs ++ 62 :: rest) := by
    rw [List.dropWhile_append_of_pos hblanks, htitle, List.cons_append,
      List.dropWhile_cons_of_neg (by decide)]
  have hbefore :
      (blanks ++ (ascii "title" ++ (attrs ++ 62 :: rest))).takeWhile isBlank = blanks := by
    rw [List.takeWhile_append_of_pos hblanks, htitle, List.cons_append,
      List.takeWhile_cons_of_neg (by decide), List.append_nil]
  have hdrop : (ascii "title" ++ (attrs ++ 62 :: rest)).drop 5 = attrs ++ 62 :: rest := rfl
  obtain ⟨htake, hskip⟩ := cut_at hattrs rest
  rw [hline, splitTag]
  simp only [hname, hbefore, hdrop, htake, hskip, List.tail_cons]
  rw [if_pos ⟨trivial, List.isPrefixOf_iff_prefix.mpr (List.prefix_append _ _), by simp⟩]

theorem of_splitGroup {rest blanks group : Str} (h : splitGroup rest = some (blanks, group)) :
    ∃ post, rest = blanks ++ (group ++ post) ∧ (∀ b ∈ blanks, isBlank b) ∧ group ≠ [] ∧
      60 ∉ group := by
  have hrun : ∀ b ∈ rest.takeWhile (· ≠ 60), b ≠ 60 := fun b hb => by
    simpa using List.mem_takeWhile_imp hb
  have hsplit : rest = rest.takeWhile (· ≠ 60) ++ rest.dropWhile (· ≠ 60) :=
    List.takeWhile_append_dropWhile.symm
  unfold splitGroup at h
  simp only at h
  cases hrev : (rest.takeWhile (· ≠ 60)).reverse with
  | nil =>
      rw [hrev] at h
      cases h
  | cons c init =>
      have hback : rest.takeWhile (· ≠ 60) = init.reverse ++ [c] := by
        rw [← List.reverse_reverse (rest.takeWhile _), hrev, List.reverse_cons]
      rw [hrev] at h
      simp only at h
      split at h
      · rename_i hall
        obtain ⟨rfl, rfl⟩ := Prod.mk.inj (Option.some.inj h)
        rw [List.all_eq_true, hback] at hall
        rw [hback] at hrun
        refine ⟨rest.dropWhile (· ≠ 60), ?_, fun b hb => hall b (List.mem_append_left _ hb),
          List.cons_ne_nil c [], ?_⟩
        · conv_lhs => rw [hsplit, hback, List.append_assoc]
        · rw [List.mem_singleton]
          exact (hrun c (by simp)).symm
      · rename_i hsome
        obtain ⟨rfl, rfl⟩ := Prod.mk.inj (Option.some.inj h)
        refine ⟨rest.dropWhile (· ≠ 60), ?_, fun b hb => List.mem_takeWhile_imp hb, ?_, ?_⟩
        · rw [← List.append_assoc, List.takeWhile_append_dropWhile]
          exact hsplit
        · intro hnil
          rw [List.dropWhile_eq_nil_iff] at hnil
          exact hsome (List.all_eq_true.mpr hnil)
        · intro hmem
          exact hrun 60 (List.dropWhile_subset _ hmem) rfl

theorem splitGroup_of_ne {c : UInt8} (hc : c ≠ 60) (rest : Str) :
    splitGroup (c :: rest) ≠ none := by
  have hrun : (c :: rest).takeWhile (· ≠ 60) = c :: rest.takeWhile (· ≠ 60) :=
    List.takeWhile_cons_of_pos (by simpa using hc)
  unfold splitGroup
  simp only [hrun]
  cases hrev : (c :: rest.takeWhile (· ≠ 60)).reverse with
  | nil => simp at hrev
  | cons d init =>
      simp only
      split
      · exact Option.some_ne_none _
      · exact Option.some_ne_none _

theorem titleMatchAt_split {s pre tag blanks group post : Str}
    (h : TitleSplit s pre tag blanks group post) (hpre : pre = []) : titleMatchAt s ≠ none := by
  subst hpre
  have hs : s = tag ++ (blanks ++ (group ++ post)) := h.split
  have hgroup : splitGroup (blanks ++ (group ++ post)) ≠ none := by
    obtain ⟨c, rest, hcut, hc⟩ : ∃ c rest, blanks ++ group = c :: rest ∧ c ≠ 60 := h.first_byte
    rw [← List.append_assoc, hcut]
    exact splitGroup_of_ne hc (rest ++ post)
  unfold titleMatchAt
  rw [hs, splitTag_tag h.isTag]
  cases hcut : splitGroup (blanks ++ (group ++ post)) with
  | none => exact absurd hcut hgroup
  | some cut =>
      intro hnone
      rw [Option.bind_eq_bind, Option.bind_some] at hnone
      simp only at hnone
      rw [hcut] at hnone
      cases hnone

theorem of_titleMatchAt {s : Str} {rmSo rmEo : Nat} (h : titleMatchAt s = some (rmSo, rmEo)) :
    ∃ tag blanks group post, TitleSplit s [] tag blanks group post ∧
      rmSo = (tag ++ blanks).length ∧ rmEo = rmSo + group.length := by
  obtain ⟨⟨tag, rest⟩, htag, h⟩ := Option.bind_eq_some_iff.mp h
  obtain ⟨⟨blanks, group⟩, hgroup, h⟩ := Option.bind_eq_some_iff.mp h
  obtain ⟨rfl, rfl⟩ := Prod.mk.inj (Option.some.inj h)
  obtain ⟨rfl, hisTag⟩ := of_splitTag htag
  obtain ⟨post, rfl, hblanks, hne, hopen⟩ := of_splitGroup hgroup
  exact ⟨tag, blanks, group, post, ⟨rfl, hisTag, hblanks, hne, hopen⟩, rfl, rfl⟩

/-- A match in `c :: s` begins at `c`, or is one in `s`. -/
theorem TitleSplit.of_cons {c : UInt8} {s pre tag blanks group post : Str}
    (h : TitleSplit (c :: s) pre tag blanks group post) :
    pre = [] ∨ ∃ pre', TitleSplit s pre' tag blanks group post := by
  cases pre with
  | nil => exact Or.inl rfl
  | cons d pre =>
      have hs := (List.cons.inj h.split).2
      exact Or.inr ⟨pre, hs, h.isTag, h.allBlank, h.nonempty, h.noOpen⟩

theorem titleMatcher_none {s pre tag blanks group post : Str} (h : titleMatcher s = none) :
    ¬ TitleSplit s pre tag blanks group post := by
  induction s generalizing pre with
  | nil =>
      intro hsplit
      have htag := hsplit.isTag.two_le
      have hlen := congrArg List.length hsplit.split
      simp only [List.length_append, List.length_nil] at hlen
      omega
  | cons c s ih =>
      intro hsplit
      cases hat : titleMatchAt (c :: s) with
      | some m =>
          rw [titleMatcher, hat] at h
          cases h
      | none =>
          rw [titleMatcher, hat] at h
          rcases hsplit.of_cons with rfl | ⟨pre', hrest⟩
          · exact titleMatchAt_split hsplit rfl hat
          · exact ih (Option.map_eq_none_iff.mp h) hrest

theorem titleMatcher_some {s : Str} {rmSo rmEo : Nat} (h : titleMatcher s = some (rmSo, rmEo)) :
    ∃ pre tag blanks group post, TitleSplit s pre tag blanks group post ∧
      rmSo = (pre ++ (tag ++ blanks)).length ∧ rmEo = rmSo + group.length := by
  induction s generalizing rmSo rmEo with
  | nil => cases h
  | cons c s ih =>
      cases hat : titleMatchAt (c :: s) with
      | some m =>
          rw [titleMatcher, hat] at h
          obtain rfl := Option.some.inj h
          obtain ⟨tag, blanks, group, post, hsplit, hso, heo⟩ := of_titleMatchAt hat
          exact ⟨[], tag, blanks, group, post, hsplit, hso, heo⟩
      | none =>
          rw [titleMatcher, hat] at h
          obtain ⟨m, hm, hshift⟩ := Option.map_eq_some_iff.mp h
          obtain ⟨rfl, rfl⟩ := Prod.mk.inj hshift
          obtain ⟨pre, tag, blanks, group, post, hsplit, hso, heo⟩ := ih hm
          refine ⟨c :: pre, tag, blanks, group, post,
            ⟨by rw [hsplit.split]; rfl, hsplit.isTag, hsplit.allBlank, hsplit.nonempty,
              hsplit.noOpen⟩,
            by rw [hso]; rfl, by omega⟩

theorem findsTitle_titleMatcher : FindsTitle titleMatcher where
  none := fun _ _ _ _ _ _ _ => titleMatcher_none
  some := fun _ _ _ _ => titleMatcher_some

/-- The decoder has nothing to do on text without entities. -/
def titleMatcherLib : TitleLib where
  titleMatch := titleMatcher
  decodeHtmlEntitiesUtf8 := id

def sampleArk : Ark where
  srvSave := 0
  targetSave := ascii "#chan"
  nickSave := ascii "ann"
  tries := 0
  found := false

/-- A page without a title. -/
theorem queuedAfter_eq_iff_sample :
    (∀ cut₁ cut₂, IsChunking (ascii "<p>hi") cut₁ → IsChunking (ascii "<p>hi") cut₂ →
        queuedAfter titleMatcherLib 3 sampleArk sampleWorld 200 cut₁ =
          queuedAfter titleMatcherLib 3 sampleArk sampleWorld 200 cut₂) ↔
      ¬ HasTitle (ascii "<p>hi") :=
  queuedAfter_eq_iff findsTitle_titleMatcher 3 rfl sampleWorld (by decide) (ascii "<p>hi")

/-- `<title>Hi</title>`, cut within the word. -/
theorem queuedAfter_differs :
    ¬ ∀ body cut₁ cut₂, IsChunking body cut₁ → IsChunking body cut₂ →
      queuedAfter titleMatcherLib 3 sampleArk sampleWorld 200 cut₁ =
        queuedAfter titleMatcherLib 3 sampleArk sampleWorld 200 cut₂ := by
  intro h
  have hsame := h (ascii "<title>Hi</title>") [ascii "<title>Hi</title>"]
    [ascii "<title>H", ascii "i</title>"] ⟨rfl, by decide⟩ ⟨rfl, by decide⟩
  exact absurd hsame (by decide +kernel)

end Bcirc
