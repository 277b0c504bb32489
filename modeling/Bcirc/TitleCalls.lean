import Bcirc.Effects
import Bcirc.TitlePage
import Bcirc.UrlFilter

/-!
# What reaches the queue (`plugins/src/title/title.c`)

Over any run of the plugin's two callbacks, whoever wrote the messages and
whatever the servers behind their URLs answered: a call queues one title at
most, for the channel the message came from, which the bot knows, and what
it queues fits into one line of bounded length (`titleCalls_queue`).
-/

namespace Bcirc

open CProg CStr CMem

/-! ## One request -/

/-- A text `privmsg` sends on one line. -/
structure OneLine (msg : Str) : Prop where
  short : msg.length ≤ titleMaxLen
  plain : ∀ c ∈ msg, c ≠ 0 ∧ c ≠ 13 ∧ c ≠ 10 ∧ c ≠ 9

/-- What a part of a request does to the queue: the first title found, and
only that, may be added to it. -/
structure Announces (ark ark' : Ark) (w w' : World) : Prop where
  target : ark'.targetSave = ark.targetSave
  srv : ark'.srvSave = ark.srvSave
  channels : w'.channelList = w.channelList
  queue : (w'.privmsgQueue = w.privmsgQueue ∧ (ark.found = true → ark'.found = true)) ∨
    (ark.found = false ∧ ark'.found = true ∧ ∃ msg, OneLine msg ∧
      w'.privmsgQueue = w.privmsgQueue ++ [(msg, ark.targetSave, ark.srvSave)])

theorem Announces.refl (ark : Ark) {w w' : World} (hchannels : w'.channelList = w.channelList)
    (hqueue : w'.privmsgQueue = w.privmsgQueue) : Announces ark ark w w' :=
  ⟨rfl, rfl, hchannels, Or.inl ⟨hqueue, id⟩⟩

theorem Announces.trans {ark₁ ark₂ ark₃ : Ark} {w₁ w₂ w₃ : World}
    (h : Announces ark₁ ark₂ w₁ w₂) (h' : Announces ark₂ ark₃ w₂ w₃) :
    Announces ark₁ ark₃ w₁ w₃ := by
  refine ⟨h'.target.trans h.target, h'.srv.trans h.srv, h'.channels.trans h.channels, ?_⟩
  rcases h.queue with ⟨hsame, hfound⟩ | ⟨hfirst, hfound, msg, hmsg, hadded⟩
  · rcases h'.queue with ⟨hsame', hfound'⟩ | ⟨hfirst', hfound', msg, hmsg, hadded⟩
    · exact Or.inl ⟨hsame'.trans hsame, hfound' ∘ hfound⟩
    · refine Or.inr ⟨?_, hfound', msg, hmsg, ?_⟩
      · cases hf : ark₁.found with
        | false => rfl
        | true => exact absurd (hfound hf) (by rw [hfirst']; exact Bool.false_ne_true)
      · rw [hadded, hsame, h.target, h.srv]
  · rcases h'.queue with ⟨hsame', hfound'⟩ | ⟨hfirst', -⟩
    · exact Or.inr ⟨hfirst, hfound' hfound, msg, hmsg, hsame'.trans hadded⟩
    · rw [hfound] at hfirst'
      cases hfirst'

theorem oneLine_filter {title : Str} (hnul : 0 ∉ title) (hlen : title.length ≤ titleMaxLen) :
    OneLine ((decodeTitle title).filter (!isUnwanted ·)) where
  short := (List.length_filter_le _ _).trans ((length_decodeTitle_le hnul).trans hlen)
  plain := by
    intro c hc
    obtain ⟨hmem, hkept⟩ := List.mem_filter.mp hc
    rw [not_isUnwanted, decide_eq_true_eq] at hkept
    rw [decodeTitle_eq hnul] at hmem
    refine ⟨?_, hkept⟩
    rintro rfl
    exact zero_not_mem_untilNul _ hmem

theorem writeCallback_announces (ark : Ark) (httpCode : Int) (ptr : List UInt8) (w : World) :
    ∃ ark' w', writeCallback titleLib ark httpCode ptr w = .ok ark' w' ∧
      Announces ark ark' w w' := by
  unfold writeCallback
  by_cases hcode : 299 < httpCode
  · rw [if_pos hcode]
    exact ⟨ark, w, rfl, Announces.refl ark rfl rfl⟩
  rw [if_neg hcode]
  simp only
  cases titleLib.titleMatch (untilNul ptr) with
  | none => exact ⟨ark, w, rfl, Announces.refl ark rfl rfl⟩
  | some m =>
      simp only
      by_cases hfound : ark.found
      · rw [if_pos hfound]
        exact ⟨ark, w, rfl, Announces.refl ark rfl rfl⟩
      rw [if_neg hfound]
      by_cases hlen : titleMaxLen < m.2 - m.1
      · rw [if_pos hlen]
        exact ⟨_, _, rfl, rfl, rfl, rfl, Or.inl ⟨rfl, fun _ => rfl⟩⟩
      · rw [if_neg hlen]
        have hnul : 0 ∉ ((untilNul ptr).drop m.1).take (m.2 - m.1) := fun h0 =>
          zero_not_mem_untilNul ptr (List.mem_of_mem_drop (List.mem_of_mem_take h0))
        have hshort := (List.length_take_le (m.2 - m.1) ((untilNul ptr).drop m.1)).trans
          (Nat.not_lt.mp hlen)
        exact ⟨_, _, rfl, rfl, rfl, rfl,
          Or.inr ⟨Bool.not_eq_true _ ▸ hfound, rfl, _, oneLine_filter hnul hshort, rfl⟩⟩

theorem writeChunks_announces (chunks : List (Int × List UInt8)) (ark : Ark) (w : World) :
    ∃ ark' w', writeChunks titleLib chunks ark w = .ok ark' w' ∧ Announces ark ark' w w' := by
  induction chunks generalizing ark w with
  | nil => exact ⟨ark, w, rfl, Announces.refl ark rfl rfl⟩
  | cons chunk chunks ih =>
      obtain ⟨ark₁, w₁, hrun, hfirst⟩ := writeCallback_announces ark chunk.1 chunk.2 w
      obtain ⟨ark₂, w₂, hrest, hrest'⟩ := ih ark₁ w₁
      exact ⟨ark₂, w₂, by rw [writeChunks, bind_ok hrun, hrest], hfirst.trans hrest'⟩

theorem curlPerform_announces (ark : Ark) (w : World) :
    ∃ ok ark' w', curlPerform titleLib ark w = .ok (ok, ark') w' ∧ Announces ark ark' w w' := by
  obtain ⟨ark', w', hrun, hannounces⟩ := writeChunks_announces (transferAt w 0).chunks ark
    { w with transfers := w.transfers.tail }
  refine ⟨(transferAt w 0).ok, ark', w', ?_, ?_⟩
  · unfold curlPerform
    rw [get_bind_run, modify_bind_run]
    exact bind_ok hrun
  · have hstart : Announces ark ark w { w with transfers := w.transfers.tail } :=
      Announces.refl ark rfl rfl
    exact hstart.trans hannounces

/-- One try: the request is done, or starts again with a try less. -/
theorem httpRequest_try (left : Nat) (ark : Ark) (w : World) :
    ∃ ark' w', Announces ark ark' w w' ∧
      (httpRequest titleLib left ark w = .ok () w' ∨ ∃ left', left = left' + 1 ∧
        httpRequest titleLib left ark w =
          httpRequest titleLib left' { ark' with tries := ark'.tries + 1 } w') := by
  have hinit : curlInit w =
      .ok (w.curlInits.headD true) { w with curlInits := w.curlInits.tail } := rfl
  have hstart : Announces ark ark w { w with curlInits := w.curlInits.tail } :=
    Announces.refl ark rfl rfl
  rw [httpRequest.eq_def]
  simp only
  rw [bind_ok hinit]
  cases w.curlInits.headD true with
  | false => exact ⟨ark, _, hstart, Or.inl rfl⟩
  | true =>
      obtain ⟨ok, ark₁, w₁, hperform, hannounces⟩ :=
        curlPerform_announces ark { w with curlInits := w.curlInits.tail }
      refine ⟨ark₁, w₁, hstart.trans hannounces, ?_⟩
      simp only [Bool.not_true, Bool.false_eq_true, if_false]
      rw [bind_ok hperform]
      cases ok || ark₁.found with
      | true => exact Or.inl rfl
      | false =>
          cases left with
          | zero => exact Or.inl rfl
          | succ left => exact Or.inr ⟨left, rfl, rfl⟩

/-- All tries together. -/
theorem httpRequest_announces (left : Nat) (ark : Ark) (w : World) :
    ∃ ark' w', httpRequest titleLib left ark w = .ok () w' ∧ Announces ark ark' w w' := by
  induction left generalizing ark w with
  | zero =>
      obtain ⟨ark', w', hannounces, hrun | ⟨left', hleft, -⟩⟩ := httpRequest_try 0 ark w
      · exact ⟨ark', w', hrun, hannounces⟩
      · cases hleft
  | succ left ih =>
      obtain ⟨ark₁, w₁, hannounces, hrun | ⟨left', hleft, hrun⟩⟩ := httpRequest_try (left + 1) ark w
      · exact ⟨ark₁, w₁, hrun, hannounces⟩
      · obtain rfl := Nat.succ.inj hleft
        obtain ⟨ark₂, w₂, hrest, hannounces'⟩ := ih { ark₁ with tries := ark₁.tries + 1 } w₁
        have hsame : Announces ark₁ { ark₁ with tries := ark₁.tries + 1 } w₁ w₁ :=
          ⟨rfl, rfl, rfl, Or.inl ⟨rfl, id⟩⟩
        exact ⟨ark₂, w₂, hrun.trans hrest, (hannounces.trans hsame).trans hannounces'⟩

/-! ## One message -/

/-- What a call may add to the queue. -/
structure Announcement (w : World) (entry : Str × Str × Nat) : Prop where
  oneLine : OneLine entry.1
  known : ∃ chan ∈ w.channelList, chan.name = entry.2.1 ∧ chan.srv = entry.2.2

/-- What a call of a callback does to the queue. -/
def CallOk (w w' : World) : Prop :=
  w'.channelList = w.channelList ∧ ∃ titles, w'.privmsgQueue = w.privmsgQueue ++ titles ∧
    titles.length ≤ 1 ∧ ∀ entry ∈ titles, Announcement w entry

theorem CallOk.same {w w' : World} (hchannels : w'.channelList = w.channelList)
    (hqueue : w'.privmsgQueue = w.privmsgQueue) : CallOk w w' :=
  ⟨hchannels, [], by rw [hqueue, List.append_nil], Nat.zero_le 1,
    fun _ h => absurd h List.not_mem_nil⟩

theorem Announces.callOk {ark ark' : Ark} {w w' : World} (h : Announces ark ark' w w')
    (hknown : ∃ chan ∈ w.channelList, chan.name = ark.targetSave ∧ chan.srv = ark.srvSave) :
    CallOk w w' := by
  rcases h.queue with ⟨hsame, -⟩ | ⟨-, -, msg, hmsg, hadded⟩
  · exact CallOk.same h.channels hsame
  · refine ⟨h.channels, _, hadded, Nat.le_refl 1, fun entry hentry => ?_⟩
    obtain rfl := List.mem_singleton.mp hentry
    exact ⟨hmsg, hknown⟩

section Reading

variable {σ β : Type} {P : σ → Prop} {params : List Arg} {i : Nat} {s : σ}

theorem endState_str {f : Option Str → Prog σ β} (hs : P s)
    (hf : ∀ str, P (endState (f str s))) :
    P (endState ((param params i >>= fun a => a.toStr >>= f) s)) := by
  unfold param
  cases params[i]? with
  | none => exact hs
  | some a =>
      cases a with
      | null => exact hf none
      | str str => exact hf (some str)
      | server _ | channel _ | int _ => exact hs

theorem endState_server {f : Option Nat → Prog σ β} (hs : P s)
    (hf : ∀ srv, P (endState (f srv s))) :
    P (endState ((param params i >>= fun a => a.toServer >>= f) s)) := by
  unfold param
  cases params[i]? with
  | none => exact hs
  | some a =>
      cases a with
      | null => exact hf none
      | server srv => exact hf (some srv)
      | str _ | channel _ | int _ => exact hs

theorem endState_deref {α : Type} {o : Option α} {f : α → Prog σ β} (hs : P s)
    (hf : ∀ a, P (endState (f a s))) : P (endState ((deref o >>= f) s)) := by
  cases o with
  | none => exact hs
  | some a => exact hf a

end Reading

theorem checkForUrl_callOk (params : List Arg) (w : World) :
    CallOk w (endState (checkForUrl titleLib params w)) := by
  have hsame : CallOk w w := CallOk.same rfl rfl
  unfold checkForUrl
  by_cases hnull : params.any (· == .null)
  · rw [if_pos hnull]
    exact hsame
  rw [if_neg hnull]
  refine endState_server hsame fun _ => endState_deref hsame fun srv => ?_
  refine endState_str hsame fun _ => endState_deref hsame fun nick => ?_
  refine endState_str hsame fun _ => endState_deref hsame fun target => ?_
  refine endState_str hsame fun _ => endState_deref hsame fun msg => ?_
  rw [bind_ok (getChannel_run target srv w)]
  cases hchan : KeyedList.lookup channelKey (target, srv) w.channelList with
  | none => exact hsame
  | some chan =>
      simp only
      cases matchUrl msg with
      | none => exact hsame
      | some m =>
          have hrequest : CallOk w (endState ((httpRequest titleLib 3 (newArk srv target nick) >>=
              fun _ => pure bcircPluginOk) w)) := by
            obtain ⟨ark', w', hrun, hannounces⟩ :=
              httpRequest_announces 3 (newArk srv target nick) w
            rw [endState_bind_pure, hrun]
            obtain ⟨record, hrecord, hkey⟩ := KeyedList.lookup_some hchan
            exact hannounces.callOk ⟨record, List.mem_of_getElem? hrecord,
              congrArg Prod.fst hkey, congrArg Prod.snd hkey⟩
          simp only
          rw [get_bind_run]
          cases w.hasFilter with
          | false => exact hrequest
          | true =>
              rw [if_pos rfl, bind_ok (checkUrl_eq _ w)]
              cases w.urls.isSome with
              | false => exact hsame
              | true => exact hrequest

theorem getUrls_keeps (w : World) :
    (endState (getUrls w)).channelList = w.channelList ∧
      (endState (getUrls w)).privmsgQueue = w.privmsgQueue := by
  unfold getUrls
  rw [get_bind_run]
  cases w.urlsFile with
  | none => exact ⟨rfl, rfl⟩
  | some content =>
      simp only
      by_cases hcontent : content ≠ []
      · rw [if_pos hcontent]
        exact ⟨rfl, rfl⟩
      · rw [if_neg hcontent]
        exact ⟨rfl, rfl⟩

/-- The list of URLs is changed, the queue is not. -/
theorem addUrl_callOk (params : List Arg) (w : World) :
    CallOk w (endState (addUrl params w)) := by
  have hsame : CallOk w w := CallOk.same rfl rfl
  refine endState_str hsame fun nick => endState_str hsame fun msg => ?_
  cases msg with
  | none => exact hsame
  | some msg =>
      cases nick with
      | none => exact hsame
      | some nick =>
          simp only
          by_cases hcommand : strstr msg (ascii "!addurl ") ≠ some 0
          · rw [if_pos hcommand]
            exact hsame
          rw [if_neg hcommand]
          by_cases hlong : 255 < msg.length
          · rw [if_pos hlong]
            exact hsame
          rw [if_neg hlong, bind_ok (checkUrl_eq _ w)]
          cases w.urls.isSome with
          | true => exact hsame
          | false =>
              simp only [Bool.false_eq_true, if_false]
              rw [get_bind_run]
              cases w.urlsWritable with
              | false => exact hsame
              | true =>
                  simp only [Bool.not_true, Bool.false_eq_true, if_false]
                  rw [modify_bind_run, endState_bind_pure]
                  exact CallOk.same (getUrls_keeps _).1 (getUrls_keeps _).2

/-! ## Runs -/

/-- A call of one of the two callbacks of the plugin. -/
inductive TitleCall where
  | checkForUrl (params : List Arg)
  | addUrl (params : List Arg)

def TitleCall.run : TitleCall → Prog World Int
  | .checkForUrl params => Bcirc.checkForUrl titleLib params
  | .addUrl params => Bcirc.addUrl params

/-- The world after some calls, faulty ones included. -/
def afterCalls (w : World) (calls : List TitleCall) : World :=
  calls.foldl (fun w call => endState (call.run w)) w

theorem TitleCall.run_callOk (call : TitleCall) (w : World) :
    CallOk w (endState (call.run w)) := by
  cases call with
  | checkForUrl params => exact checkForUrl_callOk params w
  | addUrl params => exact addUrl_callOk params w

theorem afterCalls_ok (calls : List TitleCall) (w : World) :
    (afterCalls w calls).channelList = w.channelList ∧
      ∃ titles, (afterCalls w calls).privmsgQueue = w.privmsgQueue ++ titles ∧
        titles.length ≤ calls.length ∧ ∀ entry ∈ titles, Announcement w entry := by
  induction calls generalizing w with
  | nil =>
      exact ⟨rfl, [], (List.append_nil _).symm, Nat.le_refl 0, fun _ h => absurd h List.not_mem_nil⟩
  | cons call calls ih =>
      obtain ⟨hchannels, titles, hqueue, hlen, htitles⟩ := call.run_callOk w
      obtain ⟨hchannels', titles', hqueue', hlen', htitles'⟩ := ih (endState (call.run w))
      refine ⟨hchannels'.trans hchannels, titles ++ titles', ?_, ?_, ?_⟩
      · rw [← List.append_assoc, ← hqueue]
        exact hqueue'
      · rw [List.length_append, List.length_cons]
        omega
      · rintro entry hentry
        rcases List.mem_append.mp hentry with hmem | hmem
        · exact htitles entry hmem
        · have hentry' := htitles' entry hmem
          exact ⟨hentry'.oneLine, hchannels ▸ hentry'.known⟩

/-- What `privmsg` sends for an entry of the queue has one line end, its own,
and at most 262 bytes more than the name of the channel. -/
structure FitsLine (entry : Str × Str × Nat) : Prop where
  ends : ∀ c ∈ entry.1, c ≠ 0 ∧ c ≠ 13 ∧ c ≠ 10 ∧ c ≠ 9
  short : (privmsgCommand entry.1 entry.2.1 ++ crlf).length ≤ entry.2.1.length + 262

theorem Announcement.fitsLine {w : World} {entry : Str × Str × Nat} (h : Announcement w entry) :
    FitsLine entry := by
  refine ⟨h.oneLine.plain, ?_⟩
  have hshort := h.oneLine.short
  have hhead : (ascii "PRIVMSG ").length = 8 := rfl
  have hcolon : (ascii " :").length = 2 := rfl
  have hend : crlf.length = 2 := rfl
  unfold titleMaxLen at hshort
  unfold privmsgCommand
  simp only [List.length_append, hhead, hcolon, hend]
  omega

/-- Whatever is written to the channels, and whatever the pages hold: the
calls add one title each at most, for channels the bot knows, in lines of
bounded length. -/
theorem titleCalls_queue (calls : List TitleCall) (w : World) :
    ∃ titles, (afterCalls w calls).privmsgQueue = w.privmsgQueue ++ titles ∧
      titles.length ≤ calls.length ∧ ∀ entry ∈ titles, FitsLine entry ∧
        ∃ chan ∈ w.channelList, chan.name = entry.2.1 ∧ chan.srv = entry.2.2 := by
  obtain ⟨-, titles, hqueue, hlen, htitles⟩ := afterCalls_ok calls w
  exact ⟨titles, hqueue, hlen, fun entry hentry =>
    ⟨(htitles entry hentry).fitsLine, (htitles entry hentry).known⟩⟩

end Bcirc
