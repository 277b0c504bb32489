import Bcirc.MsgQueue
import Bcirc.PrivmsgForm
import Bcirc.RecvBuffers
import Bcirc.TitleChunks

/-!
# What is made of a title (`write_callback` in `plugins/src/title/title.c`)

The decoded title goes through two loops into `new_title`, without its
line ends and tabs. What a page can put into the bot's own line ends there:
the line `privmsg` writes for it has one end, its own.
-/

namespace Bcirc

open CProg CStr CArray

/-! ## The two loops -/

/-- `unwanted[]`. -/
def unwanted : List UInt8 := [13, 9, 10]

/-- The inner loop: `remove`, set before its `break`. -/
def isRemoved (c : UInt8) : List UInt8 → Bool
  | [] => false
  | u :: unwanted => if c = u then true else isRemoved c unwanted

/-- The outer loop over `title`, with `new_title` and `new_count`. -/
def newTitleStores : Str → List UInt8 → Nat → Except Fault (List UInt8 × Nat)
  | [], newTitle, newCount => .ok (newTitle, newCount)
  | c :: title, newTitle, newCount =>
      if isRemoved c unwanted then newTitleStores title newTitle newCount
      else do
        let newTitle ← store newTitle newCount c
        newTitleStores title newTitle (newCount + 1)

/-- From the array `new_title`, with whatever it holds, to the string that
is queued. -/
def newTitle (junk : List UInt8) (title : Str) : Except Fault Str := do
  let (newTitle, newCount) ← newTitleStores title junk 0
  let newTitle ← store newTitle newCount 0
  pure (untilNul newTitle)

theorem isRemoved_unwanted (c : UInt8) : isRemoved c unwanted = isUnwanted c := by
  simp only [unwanted, isRemoved, isUnwanted]
  grind

theorem newTitleStores_filled {junk : List UInt8} (title written : Str)
    (hroom : written.length + title.length ≤ junk.length) :
    newTitleStores title (filled junk written) written.length =
      .ok (filled junk (written ++ title.filter (!isUnwanted ·)),
        (written ++ title.filter (!isUnwanted ·)).length) := by
  induction title generalizing written with
  | nil =>
      rw [List.filter_nil, List.append_nil]
      rfl
  | cons c title ih =>
      rw [List.length_cons] at hroom
      rw [newTitleStores, isRemoved_unwanted]
      cases hc : isUnwanted c with
      | true =>
          rw [List.filter_cons_of_neg (by simp [hc]), if_pos rfl]
          exact ih written (by omega)
      | false =>
          have hrest := ih (written ++ [c])
            (by rw [List.length_append, List.length_singleton]; omega)
          rw [List.length_append, List.length_singleton, List.append_assoc,
            List.singleton_append] at hrest
          rw [List.filter_cons_of_pos (by simp [hc]), if_neg Bool.false_ne_true,
            store_filled (by omega), ok_bind]
          exact hrest

/-- `new_title` has a byte more than `title`. -/
theorem newTitle_eq {junk : List UInt8} {title : Str} (hjunk : junk.length = title.length + 1)
    (hnul : 0 ∉ title) : newTitle junk title = .ok (title.filter (!isUnwanted ·)) := by
  have hstores := newTitleStores_filled title [] (by rw [hjunk, List.length_nil]; omega)
  rw [List.nil_append, filled_nil, List.length_nil] at hstores
  have hlen : (title.filter (!isUnwanted ·)).length < junk.length := by
    have hle := List.length_filter_le (!isUnwanted ·) title
    omega
  have hfree : 0 ∉ title.filter (!isUnwanted ·) := fun h0 => hnul (List.mem_filter.mp h0).1
  unfold newTitle
  rw [hstores, ok_bind]
  simp only
  rw [store_filled hlen, ok_bind, untilNul_filled, untilNul_of_not_mem hfree]
  rfl

/-! ## What is queued -/

section Queued

variable {lib : TitleLib}

/-- The matched title of a chunk, decoded. -/
def decodedTitle (lib : TitleLib) (ptr : List UInt8) : Option Str :=
  (lib.titleMatch (untilNul ptr)).map fun m =>
    lib.decodeHtmlEntitiesUtf8 (((untilNul ptr).drop m.1).take (m.2 - m.1))

/-- The decoded title without CR, LF and TAB, which is what the loops leave. -/
structure TitleText (lib : TitleLib) (ptr : List UInt8) (msg text : Str) : Prop where
  decoded : decodedTitle lib ptr = some text
  stripped : msg = text.filter fun c => c ≠ 13 ∧ c ≠ 10 ∧ c ≠ 9
  loops : ∀ junk : List UInt8, junk.length = text.length + 1 → newTitle junk text = .ok msg

theorem not_isUnwanted (c : UInt8) : (!isUnwanted c) = decide (c ≠ 13 ∧ c ≠ 10 ∧ c ≠ 9) := by
  unfold isUnwanted
  grind

/-- The first title of its request, short enough, on a page that is no error. -/
structure TitleDue (lib : TitleLib) (ark : Ark) (httpCode : Int) (ptr : List UInt8) : Prop where
  code : httpCode ≤ 299
  first : ark.found = false
  short : ∃ m, lib.titleMatch (untilNul ptr) = some m ∧ m.2 - m.1 ≤ titleMaxLen

theorem writeCallback_queues {ark : Ark} {httpCode : Int} {ptr : List UInt8}
    (h : TitleDue lib ark httpCode ptr) (w : World) :
    ∃ text, decodedTitle lib ptr = some text ∧
      (endState (writeCallback lib ark httpCode ptr w)).privmsgQueue =
        w.privmsgQueue ++ [(text.filter (!isUnwanted ·), ark.targetSave, ark.srvSave)] := by
  obtain ⟨m, hmatch, hlen⟩ := h.short
  refine ⟨lib.decodeHtmlEntitiesUtf8 (((untilNul ptr).drop m.1).take (m.2 - m.1)), ?_, ?_⟩
  · unfold decodedTitle
    rw [hmatch]
    rfl
  · unfold writeCallback
    rw [if_neg (Int.not_lt.mpr h.code)]
    simp only
    rw [hmatch]
    simp only
    rw [h.first, if_neg Bool.false_ne_true, if_neg (Nat.not_lt.mpr hlen)]
    rfl

theorem writeCallback_silent {ark : Ark} {httpCode : Int} {ptr : List UInt8}
    (h : ¬ TitleDue lib ark httpCode ptr) (w : World) :
    (endState (writeCallback lib ark httpCode ptr w)).privmsgQueue = w.privmsgQueue := by
  unfold writeCallback
  by_cases hcode : 299 < httpCode
  · rw [if_pos hcode]
    rfl
  rw [if_neg hcode]
  cases hmatch : lib.titleMatch (untilNul ptr) with
  | none => rfl
  | some m =>
      simp only
      cases hfound : ark.found with
      | true => rfl
      | false =>
          have hlen : titleMaxLen < m.2 - m.1 :=
            Nat.lt_of_not_le fun hle => h ⟨Int.not_lt.mp hcode, hfound, m, hmatch, hle⟩
          rw [if_neg Bool.false_ne_true, if_pos hlen]
          rfl

theorem decodedTitle_noNul (hdecode : ∀ s, 0 ∉ s → 0 ∉ lib.decodeHtmlEntitiesUtf8 s)
    {ptr : List UInt8} {text : Str} (h : decodedTitle lib ptr = some text) : 0 ∉ text := by
  obtain ⟨m, -, rfl⟩ := Option.map_eq_some_iff.mp h
  refine hdecode _ fun h0 => zero_not_mem_untilNul ptr ?_
  exact List.mem_of_mem_drop (List.mem_of_mem_take h0)

end Queued

/-! ## What is sent for it -/

/-- The message comes out of the queue as it was put there, and what
`privmsg` then sends has CR and LF at its end only. -/
structure SentAsOneLine (msg target : Str) (srv : Nat) : Prop where
  queue : ∀ q : MsgQueue, q.Reachable → ∀ i, q.handled[i]? = some ⟨msg, target, srv, 0⟩ →
    ∀ s ∈ q.sent, s.ticket = i → s = ⟨i, msg, target, srv⟩
  line : ∃ line : Str, (∀ c ∈ line, c ≠ 13 ∧ c ≠ 10) ∧
    ∀ {φ : Type} (raise : Str → List Arg → Prog (Bot φ World) Int) (bot bot' : Bot φ World)
      (code : Int) (record : Server),
      raise callbackServerSend [.server srv, .str (line ++ crlf)] bot = .ok code bot' →
      bot'.world.servers[srv]? = some record →
      ∃ res, (endState (privmsg raise msg target srv bot)).world.sends =
        bot'.world.sends ++ [⟨srv, line ++ crlf, res⟩]

theorem sentAsOneLine {msg target : Str} (hmsg : ∀ c ∈ msg, c ≠ 13 ∧ c ≠ 10)
    (htarget : ∀ c ∈ target, c ≠ 13 ∧ c ≠ 10) (srv : Nat) : SentAsOneLine msg target srv where
  queue := by
    intro q hq i hi s hs hticket
    have honce := hq.fifo.2.1 i _ hi rfl
    have hmem : s ∈ q.sent.filter (·.ticket = i) := List.mem_filter.mpr ⟨hs, by simp [hticket]⟩
    rw [honce] at hmem
    exact List.mem_singleton.mp hmem
  line := by
    refine ⟨privmsgCommand msg target, ?_, fun raise bot bot' code record => privmsg_sends⟩
    have hcommand : ∀ c ∈ ascii "PRIVMSG ", c ≠ 13 ∧ c ≠ 10 := by decide +kernel
    have hcolon : ∀ c ∈ ascii " :", c ≠ 13 ∧ c ≠ 10 := by decide +kernel
    unfold privmsgCommand
    simp only [List.forall_mem_append]
    exact ⟨⟨⟨hcommand, htarget⟩, hcolon⟩, hmsg⟩

/-- Whatever a page has for a title: one message is queued for it, the decoded
title without its line ends and tabs, and one line is sent for that to a
target that is on one line itself. Nothing is queued for any other chunk. -/
theorem writeCallback_oneLine (lib : TitleLib)
    (hdecode : ∀ s, 0 ∉ s → 0 ∉ lib.decodeHtmlEntitiesUtf8 s) (ark : Ark) (httpCode : Int)
    (ptr : List UInt8) (w : World) :
    (TitleDue lib ark httpCode ptr → ∃ msg text, TitleText lib ptr msg text ∧
      (endState (writeCallback lib ark httpCode ptr w)).privmsgQueue =
        w.privmsgQueue ++ [(msg, ark.targetSave, ark.srvSave)] ∧
      ((∀ c ∈ ark.targetSave, c ≠ 13 ∧ c ≠ 10) →
        SentAsOneLine msg ark.targetSave ark.srvSave)) ∧
    (¬ TitleDue lib ark httpCode ptr →
      (endState (writeCallback lib ark httpCode ptr w)).privmsgQueue = w.privmsgQueue) := by
  refine ⟨fun htitle => ?_, fun hnone => writeCallback_silent hnone w⟩
  obtain ⟨text, hdecoded, hqueue⟩ := writeCallback_queues htitle w
  have hnul := decodedTitle_noNul hdecode hdecoded
  refine ⟨_, text, ⟨hdecoded, ?_, fun junk hjunk => newTitle_eq hjunk hnul⟩, hqueue,
    fun htarget => sentAsOneLine ?_ htarget _⟩
  · exact List.filter_congr fun c _ => not_isUnwanted c
  · intro c hc
    have hkept := (List.mem_filter.mp hc).2
    rw [not_isUnwanted, decide_eq_true_eq] at hkept
    exact ⟨hkept.1, hkept.2.1⟩

/-- A title over two lines. -/
theorem writeCallback_oneLine_sample :
    ∃ msg text, TitleText titleMatcherLib (ascii "<title>a\r\nQUIT</title>") msg text ∧
      (endState (writeCallback titleMatcherLib sampleArk 200
        (ascii "<title>a\r\nQUIT</title>") sampleWorld)).privmsgQueue =
        sampleWorld.privmsgQueue ++ [(msg, sampleArk.targetSave, sampleArk.srvSave)] ∧
      ((∀ c ∈ sampleArk.targetSave, c ≠ 13 ∧ c ≠ 10) →
        SentAsOneLine msg sampleArk.targetSave sampleArk.srvSave) := by
  refine (writeCallback_oneLine titleMatcherLib (fun _ h => h) sampleArk 200
    (ascii "<title>a\r\nQUIT</title>") sampleWorld).1 ⟨by decide, rfl, ?_⟩
  exact ⟨(7, 14), by decide +kernel, by decide⟩

end Bcirc
