import Bcirc.EntityMeaning
import Bcirc.TitleRequests
import Bcirc.TitleText

/-!
# From a page to the queue (`plugins/src/title/title.c`)

The plugin with its own decoder. A page says in its first title what the
channel gets to read: tag and blanks are left out, references are
replaced, and of the characters only line ends and tabs are lost
(`checkForUrl_queues_text`). Whatever the pages hold, what is queued is
short and on one line.
-/

namespace Bcirc

open CProg CStr CMem Utf8

/-! ## The buffer `title` -/

/-- The matched text in its buffer of `len + 2` bytes, decoded in place and
read as a string again. -/
def decodeTitle (title : Str) : Str :=
  match (do let _ ← decodeHtmlEntitiesUtf8 0 none; stringAt 0 : Prog Mem Str) (title ++ [0, 0]) with
  | .ok s _ => s
  | .error _ _ => []

def titleLib : TitleLib where
  titleMatch := titleMatcher
  decodeHtmlEntitiesUtf8 := decodeTitle

theorem untilNul_terminated (s rest : Str) : untilNul (s ++ 0 :: rest) = untilNul s := by
  induction s with
  | nil => rfl
  | cons c s ih =>
      by_cases hc : c = 0
      · rw [hc]
        rfl
      · have hcons : ∀ t, untilNul (c :: t) = c :: untilNul t := fun t =>
          List.takeWhile_cons_of_pos (by simpa using hc)
        rw [List.cons_append, hcons, hcons, ih]

theorem decodeTitle_eq {title : Str} (h : 0 ∉ title) :
    decodeTitle title = untilNul (decoded title) := by
  have hs : HoldsAt (title ++ [0, 0]) 0 title := ⟨h, [0], rfl⟩
  have hrun := decodeHtmlEntitiesUtf8_ok none hs hs.bound (Or.inl (Nat.le_refl 0))
  have hmem : overwrite (title ++ [0, 0]) 0 (decoded title ++ [0]) =
      decoded title ++ 0 :: (title ++ [0, 0]).drop (0 + (decoded title ++ [0]).length) := by
    rw [overwrite, List.take_zero, List.nil_append, List.append_assoc, List.singleton_append]
  unfold decodeTitle
  rw [bind_ok hrun, hmem]
  unfold stringAt
  rw [get_bind_run, List.drop_zero, if_pos (List.mem_append_right _ List.mem_cons_self),
    untilNul_terminated]
  rfl

theorem length_decodeTitle_le {title : Str} (h : 0 ∉ title) :
    (decodeTitle title).length ≤ title.length := by
  rw [decodeTitle_eq h]
  exact (List.Sublist.length_le (List.takeWhile_sublist _)).trans (length_decoded_le title)

/-! ## Characters that are queued -/

def isUnwantedChar (c : Char) : Bool := c == '\r' || c == '\t' || c == '\n'

/-- What is left of a text: the characters in front of the first NUL, no
line end and no tab among them. -/
def oneLine (cs : List Char) : List Char :=
  (cs.takeWhile (· ≠ '\x00')).filter (!isUnwantedChar ·)

theorem ofNat_eq_iff {c : Char} (h : c.toNat ≤ 0x7F) {b : UInt8} {d : Char}
    (hd : d.toNat = b.toNat) : UInt8.ofNat c.toNat = b ↔ c = d := by
  rw [← UInt8.toNat_inj, toNat_ofNat (by omega), ← hd, Char.toNat_inj]

theorem ne_of_beyond {c d : Char} (h : 0x7F < c.toNat) (hd : d.toNat ≤ 0x7F) : c ≠ d := by
  rintro rfl
  omega

theorem byteTest_nul : ByteTest (fun b => decide (b ≠ 0)) (fun c => decide (c ≠ '\x00')) where
  ascii c hc := decide_eq_decide.mpr (not_congr (ofNat_eq_iff hc rfl))
  beyond c hc := decide_eq_true (ne_of_beyond hc (Nat.zero_le _))
  high b hb := decide_eq_true (by rintro rfl; exact absurd hb (by decide))

theorem byteTest_unwanted : ByteTest (!isUnwanted ·) (!isUnwantedChar ·) where
  ascii c hc := by
    unfold isUnwanted isUnwantedChar
    simp only [Bool.beq_eq_decide_eq]
    rw [decide_eq_decide.mpr (ofNat_eq_iff (b := 13) (d := '\r') hc rfl),
      decide_eq_decide.mpr (ofNat_eq_iff (b := 9) (d := '\t') hc rfl),
      decide_eq_decide.mpr (ofNat_eq_iff (b := 10) (d := '\n') hc rfl)]
  beyond c hc := by
    unfold isUnwantedChar
    rw [beq_false_of_ne (ne_of_beyond hc (by decide)),
      beq_false_of_ne (ne_of_beyond hc (by decide)), beq_false_of_ne (ne_of_beyond hc (by decide))]
    rfl
  high b hb := by
    have hne : ∀ n : UInt8, n.toNat < 0x80 → (b == n) = false := fun n hn =>
      beq_false_of_ne (by rintro rfl; omega)
    unfold isUnwanted
    rw [hne 13 (by decide), hne 9 (by decide), hne 10 (by decide)]
    rfl

/-- The loops over the bytes are a filter of characters. -/
theorem filter_decodeTitle {title : Str} (hnul : 0 ∉ title) {cs : List Char}
    (h : Spells title cs) : (decodeTitle title).filter (!isUnwanted ·) = text (oneLine cs) := by
  rw [decodeTitle_eq hnul, decoded_of_spells h, untilNul, byteTest_nul.takeWhile_text,
    byteTest_unwanted.filter_text]
  rfl

/-! ## The first title of a page -/

/-- The leftmost match, cut as a regular expression takes it: all blanks
after the tag are left out, and the group goes on to the next `'<'`. -/
structure FirstTitle (page pre tag blanks group post : Str) : Prop
    extends TitleSplit page pre tag blanks group post where
  starts : ∀ c ∈ group.head?, isBlank c = false
  ends : ∀ c ∈ post.head?, c = 60
  first : ∀ pre' tag' blanks' group' post',
    TitleSplit page pre' tag' blanks' group' post' → pre.length ≤ pre'.length

section FirstTitle

variable {page pre tag blanks group post : Str}

theorem splitGroup_exact (hblanks : ∀ b ∈ blanks, isBlank b) (hne : group ≠ [])
    (hopen : 60 ∉ group) (hstarts : ∀ c ∈ group.head?, isBlank c = false)
    (hends : ∀ c ∈ post.head?, c = 60) :
    splitGroup (blanks ++ (group ++ post)) = some (blanks, group) := by
  obtain ⟨c, t, rfl⟩ := List.exists_cons_of_ne_nil hne
  have hc : isBlank c = false := hstarts c rfl
  have hbefore : ∀ b ∈ blanks ++ (c :: t), decide (b ≠ 60) = true := by
    intro b hb
    refine decide_eq_true ?_
    rcases List.mem_append.mp hb with hblank | hgroup
    · exact not_blank_of_lt (hblanks b hblank)
    · rintro rfl
      exact hopen hgroup
  have hstop : post.takeWhile (· ≠ 60) = [] := by
    cases post with
    | nil => rfl
    | cons d post => exact List.takeWhile_cons_of_neg (by simp [hends d rfl])
  have hrun : (blanks ++ (c :: t ++ post)).takeWhile (· ≠ 60) = blanks ++ (c :: t) := by
    rw [← List.append_assoc, List.takeWhile_append_of_pos hbefore, hstop, List.append_nil]
  have hsome : (blanks ++ (c :: t)).all isBlank = false := by
    rw [List.all_append, List.all_cons, hc, Bool.false_and, Bool.and_false]
  have htake : (blanks ++ (c :: t)).takeWhile isBlank = blanks := by
    rw [List.takeWhile_append_of_pos hblanks,
      List.takeWhile_cons_of_neg (by rw [hc]; exact Bool.false_ne_true), List.append_nil]
  have hdrop : (blanks ++ (c :: t)).dropWhile isBlank = c :: t := by
    rw [List.dropWhile_append_of_pos hblanks,
      List.dropWhile_cons_of_neg (by rw [hc]; exact Bool.false_ne_true)]
  unfold splitGroup
  simp only [hrun]
  cases hrev : (blanks ++ (c :: t)).reverse with
  | nil => simp at hrev
  | cons d init =>
      simp only
      rw [if_neg (by rw [hsome]; exact Bool.false_ne_true), htake, hdrop]

theorem FirstTitle.matchAt (h : FirstTitle page [] tag blanks group post) :
    titleMatchAt page = some ((tag ++ blanks).length, (tag ++ blanks).length + group.length) := by
  have hpage : page = tag ++ (blanks ++ (group ++ post)) := h.split
  unfold titleMatchAt
  rw [hpage, splitTag_tag h.isTag, Option.bind_eq_bind, Option.bind_some]
  simp only
  rw [splitGroup_exact h.allBlank h.nonempty h.noOpen h.starts h.ends]
  rfl

/-- Nothing matches at a byte in front of the first title. -/
theorem FirstTitle.tail {c : UInt8} (h : FirstTitle (c :: page) (c :: pre) tag blanks group post) :
    titleMatchAt (c :: page) = none ∧ FirstTitle page pre tag blanks group post := by
  constructor
  · cases hat : titleMatchAt (c :: page) with
    | none => rfl
    | some m =>
        obtain ⟨tag', blanks', group', post', hsplit, -⟩ := of_titleMatchAt hat
        exact absurd (h.first _ _ _ _ _ hsplit) (Nat.not_succ_le_zero _)
  · refine ⟨⟨(List.cons.inj h.split).2, h.isTag, h.allBlank, h.nonempty, h.noOpen⟩, h.starts,
      h.ends, fun pre' tag' blanks' group' post' hsplit => ?_⟩
    have hsplit' : TitleSplit (c :: page) (c :: pre') tag' blanks' group' post' :=
      ⟨congrArg (c :: ·) hsplit.split, hsplit.isTag, hsplit.allBlank, hsplit.nonempty,
        hsplit.noOpen⟩
    exact Nat.le_of_succ_le_succ (h.first _ _ _ _ _ hsplit')

theorem titleMatcher_first (h : FirstTitle page pre tag blanks group post) :
    titleMatcher page = some ((pre ++ (tag ++ blanks)).length,
      (pre ++ (tag ++ blanks)).length + group.length) := by
  induction pre generalizing page with
  | nil =>
      cases page with
      | nil => exact absurd h.split.symm (by simp [h.nonempty])
      | cons c page => rw [titleMatcher, h.matchAt, List.nil_append]
  | cons c pre ih =>
      obtain ⟨page, rfl⟩ : ∃ page', page = c :: page' := ⟨_, h.split⟩
      obtain ⟨hat, hrest⟩ := h.tail
      rw [titleMatcher, hat, ih hrest, Option.map_some, List.cons_append, List.length_cons]
      simp only [Option.some.injEq, Prod.mk.injEq, true_and]
      omega

/-- The bytes that are copied to `title`. -/
theorem FirstTitle.matched (h : FirstTitle page pre tag blanks group post) :
    (page.drop (pre ++ (tag ++ blanks)).length).take
      ((pre ++ (tag ++ blanks)).length + group.length - (pre ++ (tag ++ blanks)).length) =
        group := by
  have hpage : page = (pre ++ (tag ++ blanks)) ++ (group ++ post) := by
    rw [h.split]
    simp only [List.append_assoc]
  rw [Nat.add_sub_cancel_left]
  conv_lhs => rw [hpage]
  rw [List.drop_left, List.take_left]

end FirstTitle

/-! ## From transfers to the queue -/

/-- Of up to `left + 1` transfers, `chunk` is the first chunk with a title. -/
def Brings (lib : TitleLib) (left : Nat) (transfers : List Transfer)
    (chunk : Int × List UInt8) : Prop :=
  ∃ failed transfer rest, transfers = failed ++ transfer :: rest ∧
    failed.length ≤ left ∧ (∀ t ∈ failed, Fruitless lib t) ∧
    ∃ before after, transfer.chunks = before ++ chunk :: after ∧
      ∀ c ∈ before, ¬ Titled lib c

section Brings

variable {lib : TitleLib} {ark : Ark}

theorem writeChunks_skip {before : List (Int × List UInt8)}
    (h : ∀ chunk ∈ before, ¬ Titled lib chunk) (chunks : List (Int × List UInt8)) (w : World) :
    writeChunks lib (before ++ chunks) ark w = writeChunks lib chunks ark w := by
  induction before with
  | nil => rfl
  | cons chunk before ih =>
      obtain ⟨hchunk, hbefore⟩ := List.forall_mem_cons.mp h
      rw [List.cons_append, writeChunks, bind_ok (writeCallback_untitled hchunk w)]
      exact ih hbefore

theorem curlInit_run {w : World} (hinit : w.curlInits.headD true = true) :
    curlInit w = .ok true { w with curlInits := w.curlInits.tail } := by
  show EStateM.Result.ok (w.curlInits.headD true) { w with curlInits := w.curlInits.tail } = _
  rw [hinit]

/-- A failed transfer without a title is asked for again. -/
theorem httpRequest_again (hfound : ark.found = false) {left : Nat} {w : World}
    (hinit : w.curlInits.headD true = true) {t : Transfer} {rest : List Transfer}
    (hw : w.transfers = t :: rest) (ht : Fruitless lib t) :
    httpRequest lib (left + 1) ark w =
      httpRequest lib left { ark with tries := ark.tries + 1 }
        { w with curlInits := w.curlInits.tail, transfers := rest } := by
  have hperform : curlPerform lib ark { w with curlInits := w.curlInits.tail } =
      .ok (false, ark) { w with curlInits := w.curlInits.tail, transfers := rest } := by
    unfold curlPerform
    rw [get_bind_run]
    simp only [hw, List.headD_cons]
    rw [modify_bind_run, bind_ok (by
      rw [← List.append_nil t.chunks]
      exact writeChunks_skip ht.untitled [] _), ht.failed]
    rfl
  rw [httpRequest.eq_def]
  simp only
  rw [bind_ok (curlInit_run hinit)]
  simp only [Bool.not_true, Bool.false_eq_true, if_false]
  rw [bind_ok hperform]
  simp only [hfound, Bool.or_self, Bool.false_eq_true, if_false]

/-- What `write_callback` does with the first title of a request. -/
def Queues (lib : TitleLib) (chunk : Int × List UInt8) (msg : Str) : Prop :=
  ∀ (ark : Ark) (w : World), ark.found = false →
    writeCallback lib ark chunk.1 chunk.2 w = .ok { ark with found := true }
      { w with privmsgQueue := w.privmsgQueue ++ [(msg, ark.targetSave, ark.srvSave)] }

/-- The transfer with the title is the last one. -/
theorem httpRequest_last (hfound : ark.found = false) (left : Nat) {w : World}
    (hinit : w.curlInits.headD true = true) {t : Transfer} {rest : List Transfer}
    (hw : w.transfers = t :: rest) {before after : List (Int × List UInt8)}
    {chunk : Int × List UInt8} (ht : t.chunks = before ++ chunk :: after)
    (hbefore : ∀ c ∈ before, ¬ Titled lib c) {msg : Str} (hmsg : Queues lib chunk msg) :
    ∃ w', httpRequest lib left ark w = .ok () w' ∧
      w'.privmsgQueue = w.privmsgQueue ++ [(msg, ark.targetSave, ark.srvSave)] := by
  have hperform : curlPerform lib ark { w with curlInits := w.curlInits.tail } =
      .ok (t.ok, { ark with found := true })
        { w with
          curlInits := w.curlInits.tail
          transfers := rest
          privmsgQueue := w.privmsgQueue ++ [(msg, ark.targetSave, ark.srvSave)] } := by
    unfold curlPerform
    rw [get_bind_run]
    simp only [hw, List.headD_cons]
    rw [modify_bind_run, bind_ok (by
      rw [ht, writeChunks_skip hbefore, writeChunks, bind_ok (hmsg _ _ hfound)]
      exact writeChunks_found rfl after _)]
    rfl
  refine ⟨{ w with
    curlInits := w.curlInits.tail
    transfers := rest
    privmsgQueue := w.privmsgQueue ++ [(msg, ark.targetSave, ark.srvSave)] }, ?_, rfl⟩
  rw [httpRequest.eq_def]
  simp only
  rw [bind_ok (curlInit_run hinit)]
  simp only [Bool.not_true, Bool.false_eq_true, if_false]
  rw [bind_ok hperform]
  simp only [Bool.or_true, if_true]
  rfl

/-- The tries in front of it change nothing. -/
theorem httpRequest_brings (hfound : ark.found = false) {left : Nat} {w : World}
    (hinits : ∀ b ∈ w.curlInits, b = true) {chunk : Int × List UInt8}
    (h : Brings lib left w.transfers chunk) {msg : Str} (hmsg : Queues lib chunk msg) :
    ∃ w', httpRequest lib left ark w = .ok () w' ∧
      w'.privmsgQueue = w.privmsgQueue ++ [(msg, ark.targetSave, ark.srvSave)] := by
  obtain ⟨failed, transfer, rest, hw, hlen, hfailed, before, after, hchunks, hbefore⟩ := h
  have hhead : ∀ inits : List Bool, (∀ b ∈ inits, b = true) → inits.headD true = true := by
    intro inits hall
    cases inits with
    | nil => rfl
    | cons b inits => exact hall b List.mem_cons_self
  induction failed generalizing ark w left with
  | nil => exact httpRequest_last hfound left (hhead _ hinits) hw hchunks hbefore hmsg
  | cons t failed ih =>
      obtain ⟨left, rfl⟩ := Nat.exists_eq_add_one.mpr (Nat.lt_of_lt_of_le (Nat.succ_pos _) hlen)
      obtain ⟨ht, hfailed⟩ := List.forall_mem_cons.mp hfailed
      rw [httpRequest_again hfound (hhead _ hinits) hw ht]
      have hrest := fun b hb => hinits b (List.mem_of_mem_tail hb)
      exact @ih { ark with tries := ark.tries + 1 } hfound left
        { w with curlInits := w.curlInits.tail, transfers := failed ++ transfer :: rest }
        hrest rfl (Nat.le_of_succ_le_succ hlen) hfailed

end Brings

/-- A page that spells a text in its first title, with a code that is not an error. -/
theorem queues_firstTitle {code : Int} (hcode : code ≤ 299) {page pre tag blanks group post : Str}
    (hpage : FirstTitle page pre tag blanks group post) (hnul : 0 ∉ page)
    (hlen : group.length ≤ titleMaxLen) {cs : List Char} (hspells : Spells group cs) :
    Queues titleLib (code, page) (text (oneLine cs)) := by
  intro ark w hfound
  have hgroup : 0 ∉ group := fun h0 => hnul (by
    rw [hpage.split]
    simp [h0])
  have htext : (titleLib.decodeHtmlEntitiesUtf8 group).filter (!isUnwanted ·) =
      text (oneLine cs) := filter_decodeTitle hgroup hspells
  have hmatch : titleLib.titleMatch page = some ((pre ++ (tag ++ blanks)).length,
      (pre ++ (tag ++ blanks)).length + group.length) := titleMatcher_first hpage
  unfold writeCallback
  rw [if_neg (by omega), untilNul_of_not_mem hnul]
  simp only
  rw [hmatch]
  simp only
  rw [hfound, if_neg Bool.false_ne_true, if_neg (by rw [Nat.add_sub_cancel_left]; omega),
    hpage.matched, htext]
  rfl

/-- A connection that fails, then a page in two chunks. -/
def pageWorldSample : World :=
  { urlWorld with
    transfers := [⟨[], false⟩, ⟨[(200, ascii "<html>"),
      (200, ascii "<title>\n &Auml;iti &lt;3\n</title>")], true⟩] }

theorem brings_sample : Brings titleLib 3 pageWorldSample.transfers
    (200, ascii "<title>\n &Auml;iti &lt;3\n</title>") := by
  refine ⟨[⟨[], false⟩], _, [], rfl, by decide, ?_, [(200, ascii "<html>")], [], rfl, ?_⟩
  · simpa using ⟨rfl, fun _ h => absurd h List.not_mem_nil⟩
  · simpa using fun h => h.2 rfl

theorem firstTitle_sample : FirstTitle (ascii "<title>\n &Auml;iti &lt;3\n</title>") []
    (ascii "<title>") (ascii "\n ") (ascii "&Auml;iti &lt;3\n") (ascii "</title>") where
  split := rfl
  isTag := ⟨[], [], rfl, fun _ h => absurd h List.not_mem_nil, List.not_mem_nil⟩
  allBlank := List.all_eq_true.mp rfl
  nonempty := List.cons_ne_nil _ _
  noOpen := by decide
  starts := by rintro c ⟨⟩; rfl
  ends := by rintro c ⟨⟩; rfl
  first _ _ _ _ _ _ := Nat.zero_le _

theorem spells_title : Spells (ascii "&Auml;iti &lt;3\n") "Äiti <3\n".toList :=
  .reference (@Reference.named ("Auml;", 'Ä') (by decide +kernel))
    (.itself (c := 'i') (by decide) (.itself (c := 't') (by decide) (.itself (c := 'i') (by decide)
      (.itself (c := ' ') (by decide)
        (.reference (@Reference.named ("lt;", '<') (by decide +kernel))
          (.itself (c := '3') (by decide) (.itself (c := '\n') (by decide) .nil)))))))

theorem pageWorldSample_channel :
    getChannel (ascii "#chan") 0 pageWorldSample = .ok (some 0) pageWorldSample := by
  have hfind : pageWorldSample.channelList.findIdx?
      (fun chan => chan.name == ascii "#chan" && chan.srv == 0) = some 0 := by decide +kernel
  exact congrArg (EStateM.Result.ok · pageWorldSample) hfind

end Bcirc
