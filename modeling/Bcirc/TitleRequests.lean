import Bcirc.Loop
import Bcirc.TitleChunks

/-!
# How often a page is asked for (`http_request` in
`plugins/src/title/title.c`)

`http_request` calls itself when a transfer fails and no title was found.
`requestTurn` is one call with its guard on `tries`; nothing in it says
when the calls end. They do after four transfers at most, with one title
at most, and every transfer but the last has failed without one.
-/

namespace Bcirc

open CProg CStr Loop

/-- One call of `http_request`, up to the call of itself with that ark. -/
def requestBody (lib : TitleLib) (ark : Ark) : Prog World (Option Ark) := do
  if !(← curlInit) then return none
  let (ok, ark) ← curlPerform lib ark
  if !ok then
    if ark.found then return none
    if 3 ≤ ark.tries then return none
    return some { ark with tries := ark.tries + 1 }
  return none

def requestTurn (lib : TitleLib) (s : Ark × World) :
    Turn (Ark × World) (EStateM.Result Fault World Unit) :=
  match requestBody lib s.1 s.2 with
  | .ok (some ark) w => .again (ark, w)
  | .ok none w => .exit (.ok () w)
  | .error e w => .exit (.error e w)

/-- `new_ark` as `check_for_url` hands it on. -/
def newArk (srv : Nat) (target nick : Str) : Ark where
  srvSave := srv
  targetSave := target
  nickSave := nick
  tries := 0
  found := false

/-- A chunk `write_callback` finds a title in. -/
def Titled (lib : TitleLib) (chunk : Int × List UInt8) : Prop :=
  chunk.1 ≤ 299 ∧ lib.titleMatch (untilNul chunk.2) ≠ none

/-- A transfer that failed without a title. -/
structure Fruitless (lib : TitleLib) (transfer : Transfer) : Prop where
  failed : transfer.ok = false
  untitled : ∀ chunk ∈ transfer.chunks, ¬ Titled lib chunk

/-- The transfer after `j` others. -/
def transferAt (w : World) (j : Nat) : Transfer :=
  (w.transfers.drop j).headD { chunks := [], ok := true }

/-! ## One transfer -/

section Transfer

variable {lib : TitleLib} {ark : Ark}

theorem writeCallback_untitled {chunk : Int × List UInt8} (h : ¬ Titled lib chunk) (w : World) :
    writeCallback lib ark chunk.1 chunk.2 w = .ok ark w := by
  by_cases hcode : 299 < chunk.1
  · unfold writeCallback
    rw [if_pos hcode]
    rfl
  · refine writeCallback_none (Int.not_lt.mp hcode) ?_ w
    by_contra hmatch
    exact h ⟨Int.not_lt.mp hcode, hmatch⟩

/-- The first title is queued, or is too long for it. -/
theorem writeCallback_titled (hfound : ark.found = false) {chunk : Int × List UInt8}
    (h : Titled lib chunk) (w : World) : ∃ titles, titles.length ≤ 1 ∧
      writeCallback lib ark chunk.1 chunk.2 w = .ok { ark with found := true }
        { w with privmsgQueue := w.privmsgQueue ++ titles } := by
  obtain ⟨⟨rmSo, rmEo⟩, hmatch⟩ := Option.ne_none_iff_exists'.mp h.2
  by_cases hlen : rmEo - rmSo ≤ titleMaxLen
  · obtain ⟨title, htitle⟩ := writeCallback_title hfound h.1 hmatch hlen w
    exact ⟨[_], Nat.le_refl 1, htitle⟩
  · refine ⟨[], Nat.zero_le 1, ?_⟩
    unfold writeCallback
    rw [if_neg (Int.not_lt.mpr h.1)]
    simp only
    rw [hmatch]
    simp only
    rw [hfound, if_neg Bool.false_ne_true, if_pos (not_le.mp hlen), List.append_nil]
    rfl

/-- The chunks of one transfer: none has a title, or the first that has one
is all that counts. -/
theorem writeChunks_cases (hfound : ark.found = false) (chunks : List (Int × List UInt8))
    (w : World) :
    ((∀ chunk ∈ chunks, ¬ Titled lib chunk) ∧ writeChunks lib chunks ark w = .ok ark w) ∨
    ∃ titles, titles.length ≤ 1 ∧
      writeChunks lib chunks ark w = .ok { ark with found := true }
        { w with privmsgQueue := w.privmsgQueue ++ titles } := by
  induction chunks with
  | nil => exact Or.inl ⟨fun _ hchunk => absurd hchunk List.not_mem_nil, rfl⟩
  | cons chunk chunks ih =>
      by_cases htitled : Titled lib chunk
      · obtain ⟨titles, hlen, hrun⟩ := writeCallback_titled hfound htitled w
        refine Or.inr ⟨titles, hlen, ?_⟩
        rw [writeChunks, bind_ok hrun]
        exact writeChunks_found rfl chunks _
      · have hrun : writeChunks lib (chunk :: chunks) ark w = writeChunks lib chunks ark w := by
          rw [writeChunks, bind_ok (writeCallback_untitled htitled w)]
        rw [hrun]
        refine ih.imp_left fun h => ⟨?_, h.2⟩
        rw [List.forall_mem_cons]
        exact ⟨htitled, h.1⟩

theorem curlPerform_cases (hfound : ark.found = false) (w : World) :
    ((∀ chunk ∈ (transferAt w 0).chunks, ¬ Titled lib chunk) ∧
      curlPerform lib ark w =
        .ok ((transferAt w 0).ok, ark) { w with transfers := w.transfers.tail }) ∨
    ∃ titles, titles.length ≤ 1 ∧
      curlPerform lib ark w = .ok ((transferAt w 0).ok, { ark with found := true })
        { w with
          transfers := w.transfers.tail
          privmsgQueue := w.privmsgQueue ++ titles } := by
  have hrun : curlPerform lib ark w =
      (writeChunks lib (transferAt w 0).chunks ark >>= fun ark =>
        pure ((transferAt w 0).ok, ark)) { w with transfers := w.transfers.tail } := rfl
  rw [hrun]
  rcases writeChunks_cases hfound (transferAt w 0).chunks { w with transfers := w.transfers.tail }
    with ⟨hnone, hchunks⟩ | ⟨titles, hlen, hchunks⟩
  · exact Or.inl ⟨hnone, bind_ok hchunks⟩
  · exact Or.inr ⟨titles, hlen, bind_ok hchunks⟩

/-- One call either ends, at most one transfer and one title later, or has
seen a transfer fail without a title and calls itself. -/
theorem requestBody_cases (lib : TitleLib) (hfound : ark.found = false) (w : World) :
    (∃ k ≤ 1, ∃ w' titles, requestBody lib ark w = .ok none w' ∧ titles.length ≤ 1 ∧
      w'.transfers = w.transfers.drop k ∧ w'.privmsgQueue = w.privmsgQueue ++ titles) ∨
    (ark.tries < 3 ∧ Fruitless lib (transferAt w 0) ∧
      requestBody lib ark w = .ok (some { ark with tries := ark.tries + 1 })
        { w with curlInits := w.curlInits.tail, transfers := w.transfers.tail }) := by
  have hrun : requestBody lib ark w =
      (if !w.curlInits.headD true then pure none
      else do
        let (ok, ark) ← curlPerform lib ark
        if !ok then
          if ark.found then return none
          if 3 ≤ ark.tries then return none
          return some { ark with tries := ark.tries + 1 }
        return none : Prog World (Option Ark)) { w with curlInits := w.curlInits.tail } := rfl
  cases hinit : w.curlInits.headD true with
  | false =>
      rw [hrun, hinit]
      exact Or.inl ⟨0, Nat.zero_le 1, _, [], rfl, Nat.zero_le 1, rfl, (List.append_nil _).symm⟩
  | true =>
      rw [hrun, hinit, Bool.not_true, if_neg Bool.false_ne_true]
      rcases curlPerform_cases hfound { w with curlInits := w.curlInits.tail } with
        ⟨hnone, hperform⟩ | ⟨titles, hlen, hperform⟩
      · rw [bind_ok hperform]
        have hok : (transferAt { w with curlInits := w.curlInits.tail } 0).ok =
            (transferAt w 0).ok := rfl
        cases htransfer : (transferAt w 0).ok with
        | true =>
            simp only [hok, htransfer]
            exact Or.inl ⟨1, Nat.le_refl 1, _, [], rfl, Nat.zero_le 1, List.drop_one.symm,
              (List.append_nil _).symm⟩
        | false =>
            by_cases htries : 3 ≤ ark.tries
            · simp only [hok, htransfer, hfound, htries]
              exact Or.inl ⟨1, Nat.le_refl 1, _, [], rfl, Nat.zero_le 1, List.drop_one.symm,
                (List.append_nil _).symm⟩
            · simp only [hok, htransfer, hfound, htries]
              exact Or.inr ⟨Nat.lt_of_not_le htries, ⟨htransfer, hnone⟩, rfl⟩
      · rw [bind_ok hperform]
        refine Or.inl ⟨1, Nat.le_refl 1,
          { w with
            curlInits := w.curlInits.tail
            transfers := w.transfers.tail
            privmsgQueue := w.privmsgQueue ++ titles },
          titles, ?_, hlen, List.drop_one.symm, rfl⟩
        cases htransfer : (transferAt { w with curlInits := w.curlInits.tail } 0).ok with
        | true => rfl
        | false => rfl

end Transfer

/-! ## All of them -/

section Request

variable {lib : TitleLib} {ark : Ark}

theorem requestTurn_cases (lib : TitleLib) (hfound : ark.found = false) (w : World) :
    (∃ k ≤ 1, ∃ w' titles, requestTurn lib (ark, w) = .exit (.ok () w') ∧ titles.length ≤ 1 ∧
      w'.transfers = w.transfers.drop k ∧ w'.privmsgQueue = w.privmsgQueue ++ titles) ∨
    (ark.tries < 3 ∧ Fruitless lib (transferAt w 0) ∧
      requestTurn lib (ark, w) = .again ({ ark with tries := ark.tries + 1 },
        { w with curlInits := w.curlInits.tail, transfers := w.transfers.tail })) := by
  rcases requestBody_cases lib hfound w with
    ⟨k, hk, w', titles, hbody, hrest⟩ | ⟨htries, hfruitless, hbody⟩
  · refine Or.inl ⟨k, hk, w', titles, ?_, hrest⟩
    simp only [requestTurn, hbody]
  · refine Or.inr ⟨htries, hfruitless, ?_⟩
    simp only [requestTurn, hbody]

theorem transferAt_tail (w : World) (inits : List Bool) (j : Nat) :
    transferAt { w with curlInits := inits, transfers := w.transfers.tail } j =
      transferAt w (j + 1) := by
  simp only [transferAt, List.drop_tail]

/-- As long as the calls go on, every transfer has been fruitless. -/
theorem fruitless_of_again {i : Nat} {w : World} {s : Ark × World} (hfound : ark.found = false)
    (h : turns (requestTurn lib) i (ark, w) = .again s) :
    ∀ j < i, Fruitless lib (transferAt w j) := by
  induction i generalizing ark w with
  | zero => exact fun j hj => absurd hj (Nat.not_lt_zero j)
  | succ i ih =>
      rcases requestTurn_cases lib hfound w with ⟨k, -, w', titles, hturn, -⟩ |
        ⟨-, hfruitless, hturn⟩
      · rw [turns, hturn] at h
        cases h
      · rw [turns_again hturn] at h
        intro j hj
        cases j with
        | zero => exact hfruitless
        | succ j =>
            have hrest := @ih { ark with tries := ark.tries + 1 } _ hfound h j
              (Nat.lt_of_succ_lt_succ hj)
            rwa [transferAt_tail] at hrest

/-- The calls end: `tries` counts those that went on. -/
theorem request_ends {left : Nat} (w : World) (htries : ark.tries + left = 3)
    (hfound : ark.found = false) : ∃ n ≤ left + 1, ∃ k ≤ n, ∃ w' titles,
      turns (requestTurn lib) n (ark, w) = .exit (.ok () w') ∧ titles.length ≤ 1 ∧
      w'.transfers = w.transfers.drop k ∧ w'.privmsgQueue = w.privmsgQueue ++ titles := by
  induction left generalizing ark w with
  | zero =>
      rcases requestTurn_cases lib hfound w with ⟨k, hk, w', titles, hturn, hrest⟩ |
        ⟨hlt, -, -⟩
      · exact ⟨1, Nat.le_refl 1, k, hk, w', titles, by rw [turns, hturn], hrest⟩
      · omega
  | succ left ih =>
      rcases requestTurn_cases lib hfound w with ⟨k, hk, w', titles, hturn, hrest⟩ |
        ⟨-, -, hturn⟩
      · exact ⟨1, Nat.le_add_left 1 _, k, hk, w', titles, by rw [turns, hturn], hrest⟩
      · obtain ⟨n, hn, k, hk, w', titles, hturns, hlen, htransfers, hqueue⟩ :=
          @ih { ark with tries := ark.tries + 1 }
            { w with curlInits := w.curlInits.tail, transfers := w.transfers.tail }
            (by simp only; omega) hfound
        refine ⟨n + 1, Nat.succ_le_succ hn, k + 1, Nat.succ_le_succ hk, w', titles,
          (turns_again hturn n).trans hturns, hlen, ?_, hqueue⟩
        rw [htransfers, List.drop_tail]

/-- One call of `httpRequest`, in which `left` stands for `tries`. -/
theorem httpRequest_run {left : Nat} (w : World) (htries : ark.tries + left = 3)
    (hfound : ark.found = false) :
    httpRequest lib left ark w =
      match requestTurn lib (ark, w) with
      | .exit r => r
      | .again (ark, w) => httpRequest lib (left - 1) ark w := by
  have hinit : curlInit w =
      .ok (w.curlInits.headD true) { w with curlInits := w.curlInits.tail } := rfl
  unfold requestTurn requestBody
  rw [httpRequest.eq_def]
  simp only
  rw [bind_ok hinit, bind_ok hinit]
  cases w.curlInits.headD true with
  | false => rfl
  | true =>
      simp only [Bool.not_true, Bool.false_eq_true, if_false]
      rcases curlPerform_cases hfound { w with curlInits := w.curlInits.tail } with
        ⟨-, hperform⟩ | ⟨titles, -, hperform⟩
      · rw [bind_ok hperform, bind_ok hperform]
        cases (transferAt { w with curlInits := w.curlInits.tail } 0).ok with
        | true => rfl
        | false =>
            simp only [hfound]
            cases left with
            | zero =>
                have hlast : 3 ≤ ark.tries := by omega
                simp only [hlast]
                rfl
            | succ left =>
                have hmore : ¬ 3 ≤ ark.tries := by omega
                simp only [hmore]
                rfl
      · rw [bind_ok hperform, bind_ok hperform]
        cases (transferAt { w with curlInits := w.curlInits.tail } 0).ok with
        | true => rfl
        | false => rfl

/-- `httpRequest`, for which three tries are left, is this loop. -/
theorem httpRequest_exits {left : Nat} (w : World) (htries : ark.tries + left = 3)
    (hfound : ark.found = false) :
    Exits (requestTurn lib) (ark, w) (httpRequest lib left ark w) := by
  induction left generalizing ark w with
  | zero =>
      rw [httpRequest_run w htries hfound]
      rcases requestTurn_cases lib hfound w with ⟨-, -, w', -, hturn, -⟩ | ⟨hlt, -, -⟩
      · rw [hturn]
        exact exits_of_exit hturn
      · omega
  | succ left ih =>
      rw [httpRequest_run w htries hfound]
      rcases requestTurn_cases lib hfound w with ⟨-, -, w', -, hturn, -⟩ | ⟨-, -, hturn⟩
      · rw [hturn]
        exact exits_of_exit hturn
      · rw [hturn]
        exact Exits.again hturn
          (@ih { ark with tries := ark.tries + 1 } _ (by simp only; omega) hfound)

end Request

/-! ## The message -/

/-- A URL in a message to a known channel, and a filter that is not in the
way: that is when `check_for_url` asks for a page. -/
theorem checkForUrl_requests (lib : TitleLib) {srv chan : Nat} {nick target msg : Str}
    (hostmask : Str) {w : World} (hchan : getChannel target srv w = .ok (some chan) w)
    (hurl : matchUrl msg ≠ none) (hfilter : w.hasFilter = false ∨ w.urls ≠ none) :
    checkForUrl lib [.server srv, .str nick, .str hostmask, .str target, .str msg] w =
      (httpRequest lib 3 (newArk srv target nick) >>= fun _ => pure bcircPluginOk) w := by
  obtain ⟨⟨rmSo, rmEo⟩, hmatch⟩ := Option.ne_none_iff_exists'.mp hurl
  have hnull : ([.server srv, .str nick, .str hostmask, .str target, .str msg] : List Arg).any
      (· == .null) = false := by
    simp
  unfold checkForUrl
  simp only [hnull, Bool.false_eq_true, if_false, param, List.getElem?_cons_zero,
    List.getElem?_cons_succ, orFault_some, pure_bind, Arg.toServer, Arg.toStr, deref]
  rw [bind_ok hchan]
  simp only [hmatch, get_bind_run]
  cases hhas : w.hasFilter with
  | false => rfl
  | true =>
      have hurls : w.urls ≠ none := hfilter.resolve_left (by rw [hhas]; exact Bool.noConfusion)
      obtain ⟨urls, hsome⟩ := Option.ne_none_iff_exists'.mp hurls
      have hcheck : ∀ url, checkUrl url w = .ok true w := by
        intro url
        unfold checkUrl
        rw [get_bind_run, hsome]
        simp only [ite_self]
        rfl
      rw [if_pos rfl, bind_ok (hcheck _)]
      rfl

/-- Four transfers at most, one title at most, and none that is asked for
after a title or a success. -/
theorem checkForUrl_bounded (lib : TitleLib) {srv chan : Nat} {nick target msg : Str}
    (hostmask : Str) {w : World} (hchan : getChannel target srv w = .ok (some chan) w)
    (hurl : matchUrl msg ≠ none) (hfilter : w.hasFilter = false ∨ w.urls ≠ none) :
    (∃ n ≤ 4, ∃ k ≤ n, ∃ w' titles,
      turns (requestTurn lib) n (newArk srv target nick, w) = .exit (.ok () w') ∧
      checkForUrl lib [.server srv, .str nick, .str hostmask, .str target, .str msg] w =
        .ok bcircPluginOk w' ∧
      w'.transfers = w.transfers.drop k ∧
      w'.privmsgQueue = w.privmsgQueue ++ titles ∧ titles.length ≤ 1) ∧
    ∀ i s, turns (requestTurn lib) i (newArk srv target nick, w) = .again s →
      ∀ j < i, Fruitless lib (transferAt w j) := by
  refine ⟨?_, fun i s h => fruitless_of_again rfl h⟩
  obtain ⟨n, hn, k, hk, w', titles, hturns, hlen, htransfers, hqueue⟩ :=
    @request_ends lib (newArk srv target nick) 3 w rfl rfl
  refine ⟨n, hn, k, hk, w', titles, hturns, ?_, htransfers, hqueue, hlen⟩
  have hresult : httpRequest lib 3 (newArk srv target nick) w = .ok () w' :=
    (httpRequest_exits w rfl rfl).unique ⟨n, hturns⟩
  rw [checkForUrl_requests lib hostmask hchan hurl hfilter]
  exact bind_ok hresult

/-- One channel, and two transfers that fail. -/
def urlWorld : World :=
  { sampleWorld with
    channelList := [⟨ascii "#chan", none, none, none, 0, none, none, 0⟩]
    transfers := [⟨[], false⟩, ⟨[(200, ascii "<title>Hi</title>")], false⟩] }

theorem urlWorld_channel : getChannel (ascii "#chan") 0 urlWorld = .ok (some 0) urlWorld := by
  have hfind : urlWorld.channelList.findIdx?
      (fun chan => chan.name == ascii "#chan" && chan.srv == 0) = some 0 := by decide +kernel
  exact congrArg (EStateM.Result.ok · urlWorld) hfind

theorem checkForUrl_bounded_sample :
    (∃ n ≤ 4, ∃ k ≤ n, ∃ w' titles,
      turns (requestTurn titleMatcherLib) n (newArk 0 (ascii "#chan") (ascii "ann"), urlWorld) =
        .exit (.ok () w') ∧
      checkForUrl titleMatcherLib
          [.server 0, .str (ascii "ann"), .str [], .str (ascii "#chan"),
            .str (ascii "see http://a.org/b")] urlWorld =
        .ok bcircPluginOk w' ∧
      w'.transfers = urlWorld.transfers.drop k ∧
      w'.privmsgQueue = urlWorld.privmsgQueue ++ titles ∧ titles.length ≤ 1) ∧
    ∀ i s, turns (requestTurn titleMatcherLib) i
        (newArk 0 (ascii "#chan") (ascii "ann"), urlWorld) = .again s →
      ∀ j < i, Fruitless titleMatcherLib (transferAt urlWorld j) :=
  checkForUrl_bounded titleMatcherLib [] urlWorld_channel (by decide +kernel) (Or.inl rfl)

end Bcirc
