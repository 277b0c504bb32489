import Bcirc.CStrWords
import Bcirc.IrcCmds
import Bcirc.PrivmsgDelivery

/-!
# Message lines

`get_privmsg` reads back what `privmsg` writes, whatever the message is
made of. That nothing else is read does not hold: the loop may run out of
words after any of them, and what was found so far is raised all the same.
`raisedBy_word`, `raisedBy_command` and `raisedBy_other` say what is raised
by the words of the line.
-/

namespace Bcirc

open CProg CStr

/-! ## What the bot writes -/

section Written

variable {φ : Type} {raise : Str → List Arg → Prog (Bot φ World) Int}

/-- The line of `privmsg`, without its end. -/
def privmsgCommand (msg target : Str) : Str := ascii "PRIVMSG " ++ target ++ ascii " :" ++ msg

/-- Once the callbacks of `server_send` have returned, the line is written. -/
theorem privmsg_sends {msg target : Str} {srv : Nat} {bot bot' : Bot φ World} {code : Int}
    {record : Server}
    (hnotified : raise callbackServerSend
      [.server srv, .str (privmsgCommand msg target ++ crlf)] bot = .ok code bot')
    (hsrv : bot'.world.servers[srv]? = some record) :
    ∃ res, (endState (privmsg raise msg target srv bot)).world.sends =
      bot'.world.sends ++ [⟨srv, privmsgCommand msg target ++ crlf, res⟩] := by
  have hsend : onWorld (send srv (privmsgCommand msg target ++ crlf)) bot' =
      .ok (bot'.world.sendResults.headD (privmsgCommand msg target ++ crlf).length)
        { bot' with world := loggedSend srv (privmsgCommand msg target ++ crlf) bot'.world } :=
    onWorld_ok (send_ok hsrv _)
  refine ⟨bot'.world.sendResults.headD (privmsgCommand msg target ++ crlf).length, ?_⟩
  show (endState (serverSend raise (some (privmsgCommand msg target ++ crlf)) srv bot)).world.sends
    = _
  unfold serverSend
  rw [Option.elim_some, bind_ok hnotified]
  simp only
  rw [bind_ok hsend]
  split
  · rfl
  · rfl

theorem privmsgLine_command (nick mask msg target : Str) :
    58 :: nick ++ 33 :: mask ++ 32 :: privmsgCommand msg target =
      privmsgLine nick mask target msg := by
  simp [privmsgCommand, privmsgLine, ascii]

/-- What `privmsg` writes, behind the prefix a server puts before it, raises
`got_privmsg` once, with the nick and the mask of the prefix and with the
target and the message. -/
theorem privmsg_readBack {msg target nick mask : Str} {srv : Nat} {bot bot' : Bot φ World}
    {code : Int} {record : Server} (hfields : PrivmsgFields nick mask target)
    (hnotified : raise callbackServerSend
      [.server srv, .str (privmsgCommand msg target ++ crlf)] bot = .ok code bot')
    (hsrv : bot'.world.servers[srv]? = some record) :
    ∃ line res, (endState (privmsg raise msg target srv bot)).world.sends =
        bot'.world.sends ++ [⟨srv, line ++ crlf, res⟩] ∧
      ∀ (σ : Type) (raise' : Str → List Arg → Prog σ Int) (receiver : Nat),
        getPrivmsg raise'
            [.server receiver, .str (58 :: nick ++ 33 :: mask ++ 32 :: line)] = (do
          let _ ← raise' callbackGotPrivmsg
            [.server receiver, .str nick, .str mask, .str target, .str msg]
          pure bcircPluginOk) := by
  obtain ⟨res, hsends⟩ := privmsg_sends hnotified hsrv
  refine ⟨privmsgCommand msg target, res, hsends, fun σ raise' receiver => ?_⟩
  rw [privmsgLine_command]
  exact getPrivmsg_line raise' receiver hfields msg

end Written

/-- The message ` :a!  PRIVMSG ` comes back as it is. -/
theorem privmsg_readBack_sample :
    ∃ line res,
      (endState (privmsg idleRaise (ascii " :a!  PRIVMSG ") (ascii "#chan") 0
          (⟨initIndex, sampleWorld⟩ : Bot Nat World))).world.sends = [⟨0, line ++ crlf, res⟩] ∧
      ∀ (σ : Type) (raise' : Str → List Arg → Prog σ Int) (receiver : Nat),
        getPrivmsg raise' [.server receiver,
            .str (58 :: ascii "joona" ++ 33 :: ascii "~j@host" ++ 32 :: line)] = (do
          let _ ← raise' callbackGotPrivmsg
            [.server receiver, .str (ascii "joona"), .str (ascii "~j@host"),
              .str (ascii "#chan"), .str (ascii " :a!  PRIVMSG ")]
          pure bcircPluginOk) := by
  have hnotified : idleRaise callbackServerSend
      [.server 0, .str (privmsgCommand (ascii " :a!  PRIVMSG ") (ascii "#chan") ++ crlf)]
      (⟨initIndex, sampleWorld⟩ : Bot Nat World) =
      .ok bcircPluginOk ⟨initIndex, sampleWorld⟩ := rfl
  exact privmsg_readBack sampleFields hnotified rfl

/-! ## What raises the event -/

/-- A nick and a mask can be cut from the word: after any `!` it starts
with, there is one with something on both sides. -/
def HasMask (first : Str) : Prop :=
  ∃ bangs part mask, first = bangs ++ part ++ 33 :: mask ∧ (∀ b ∈ bangs, b = 33) ∧
    part ≠ [] ∧ 33 ∉ part ∧ mask ≠ []

theorem nickAndMask_ok {bangs part mask : Str} (hbangs : ∀ b ∈ bangs, b = 33)
    (hpart : part ≠ []) (hbang : 33 ∉ part) (hmask : mask ≠ []) :
    nickAndMask (bangs ++ part ++ 33 :: mask) = .ok (part.tail, mask) := by
  have hfree : ∀ c ∈ part, isBang c = false := by
    intro c hc
    simpa [isBang] using fun h : c = 33 => hbang (h ▸ hc)
  have hcut : strtokR isBang (bangs ++ part ++ 33 :: mask) = (some part, mask) := by
    rw [List.append_assoc, strtokR_delims fun b hb => by simp [isBang, hbangs b hb]]
    exact strtokR_append_cons hpart hfree rfl
  have hlen : mask.length ≠ 0 := fun h0 => hmask (List.length_eq_zero_iff.mp h0)
  unfold nickAndMask
  rw [hcut]
  simp only [if_neg hlen]

theorem hasMask_of_ok {first : Str} {source : Str × Str} (h : nickAndMask first = .ok source) :
    HasMask first := by
  unfold nickAndMask at h
  rcases hcut : strtokR isBang first with ⟨_ | part, mask⟩
  · rw [hcut] at h
    cases h
  · rw [hcut] at h
    simp only at h
    split at h
    · cases h
    · rename_i hlen
      obtain ⟨bangs, hbangs, hpart, hfree, hshape⟩ := of_strtokR_some hcut
      have hbang : 33 ∉ part := fun hmem => by
        have := hfree 33 hmem
        cases this
      rcases hshape with ⟨-, hnil⟩ | ⟨d, hd, rfl⟩
      · rw [hnil] at hlen
        exact absurd rfl hlen
      · obtain rfl : d = 33 := by simpa [isBang] using hd
        refine ⟨bangs, part, mask, rfl, ?_, hpart, hbang, ?_⟩
        · intro b hb
          simpa [isBang] using hbangs b hb
        · rintro rfl
          exact hlen rfl

/-- The event, whose target may be missing. -/
def gotPrivmsg (srv : Nat) (nick mask : Str) (target : Option Str) (msg : Str) :
    Str × List Arg :=
  (callbackGotPrivmsg,
    [.server srv, .str nick, .str mask, target.elim .null .str, .str msg])

section Raised

variable {srv : Nat} {line first : Str}

theorem raisedBy_message {nick mask save : Str} {target : Option Str}
    (hfound : ascii "PRIVMSG" <:+: line)
    (hparse : parsePrivmsg line = .message (some nick) (some mask) target save) :
    raisedBy srv line = [gotPrivmsg srv nick mask target save.tail] := by
  obtain ⟨i, hi⟩ := Option.isSome_iff_exists.mp ((strstr_isSome_iff line _).mpr hfound)
  rw [raisedBy, getPrivmsg_str, hi, hparse]
  rfl

theorem raisedBy_ret {code : Int} (hparse : parsePrivmsg line = .ret code) :
    raisedBy srv line = [] := by
  rw [raisedBy, getPrivmsg_str, hparse]
  cases strstr line (ascii "PRIVMSG") <;> rfl

theorem raisedBy_not_found (h : ¬ ascii "PRIVMSG" <:+: line) : raisedBy srv line = [] := by
  rw [← strstr_isSome_iff, Option.not_isSome_iff_eq_none] at h
  rw [raisedBy, getPrivmsg_str, h]
  rfl

theorem raisedBy_no_words (h : tokens isSpace line = []) : raisedBy srv line = [] := by
  refine raisedBy_not_found fun hinfix => ?_
  -- a line of blanks has no `P`
  have hmem : 80 ∈ line := hinfix.subset (by decide)
  have hflat : (tokens isSpace line).flatten = line.filter (!isSpace ·) := flatten_tokens line
  rw [h, List.flatten_nil] at hflat
  have hblank := List.filter_eq_nil_iff.mp hflat.symm 80 hmem
  exact hblank rfl

theorem raisedBy_no_mask {rest : List Str} (hwords : tokens isSpace line = first :: rest)
    (hmask : ¬ HasMask first) : raisedBy srv line = [] := by
  obtain ⟨save, hcut, -⟩ := strtokR_of_tokens_cons hwords
  cases hsource : nickAndMask first with
  | ok source => exact absurd (hasMask_of_ok hsource) hmask
  | error code =>
      have hparse : parsePrivmsg line = .ret code := by
        unfold parsePrivmsg
        simp only [hcut, hsource]
      exact raisedBy_ret hparse

/-- A line that is one word. -/
theorem raisedBy_word (hwords : tokens isSpace line = [first]) (hmask : HasMask first)
    (hfound : ascii "PRIVMSG" <:+: line) :
    ∃ nick mask msg, raisedBy srv line = [gotPrivmsg srv nick mask none msg] := by
  obtain ⟨save, hcut, hsave⟩ := strtokR_of_tokens_cons hwords
  obtain ⟨bangs, part, mask, rfl, hbangs, hpart, hbang, hne⟩ := hmask
  have hparse : ∃ save', parsePrivmsg line = .message (some part.tail) (some mask) none save' := by
    refine ⟨[], ?_⟩
    unfold parsePrivmsg
    simp only [hcut, nickAndMask_ok hbangs hpart hbang hne, strtokR_of_tokens_nil hsave]
  obtain ⟨save', hparse⟩ := hparse
  exact ⟨part.tail, mask, save'.tail, raisedBy_message hfound hparse⟩

theorem raisedBy_other {word : Str} {rest : List Str}
    (hwords : tokens isSpace line = first :: word :: rest) (hword : word ≠ ascii "PRIVMSG") :
    raisedBy srv line = [] := by
  obtain ⟨save, hcut, hsave⟩ := strtokR_of_tokens_cons hwords
  obtain ⟨save', hcut', -⟩ := strtokR_of_tokens_cons hsave
  cases hsource : nickAndMask first with
  | error code =>
      have hparse : parsePrivmsg line = .ret code := by
        unfold parsePrivmsg
        simp only [hcut, hsource]
      exact raisedBy_ret hparse
  | ok source =>
      have hparse : parsePrivmsg line = .ret bcircPluginOk := by
        unfold parsePrivmsg
        simp only [hcut, hsource, hcut', if_pos hword]
      exact raisedBy_ret hparse

/-- A line whose second word is the command. -/
theorem raisedBy_command {params : List Str}
    (hwords : tokens isSpace line = first :: ascii "PRIVMSG" :: params) (hmask : HasMask first) :
    ∃ nick mask msg, raisedBy srv line = [gotPrivmsg srv nick mask params.head? msg] := by
  have hmem : ascii "PRIVMSG" ∈ tokens isSpace line := by
    rw [hwords]
    simp
  have hfound : ascii "PRIVMSG" <:+: line := (of_mem_tokens hmem).2.2
  obtain ⟨save, hcut, hsave⟩ := strtokR_of_tokens_cons hwords
  obtain ⟨save', hcut', hsave'⟩ := strtokR_of_tokens_cons hsave
  obtain ⟨bangs, part, mask, rfl, hbangs, hpart, hbang, hne⟩ := hmask
  have hsource := nickAndMask_ok hbangs hpart hbang hne
  have hparse : ∃ save'', parsePrivmsg line =
      .message (some part.tail) (some mask) params.head? save'' := by
    cases params with
    | nil =>
        refine ⟨[], ?_⟩
        unfold parsePrivmsg
        simp only [hcut, hsource, hcut', strtokR_of_tokens_nil hsave', ne_eq, not_true_eq_false,
          if_false, List.head?_nil]
    | cons target params =>
        obtain ⟨save'', hnext, -⟩ := strtokR_of_tokens_cons hsave'
        refine ⟨save'', ?_⟩
        unfold parsePrivmsg
        simp only [hcut, hsource, hcut', hnext, ne_eq, not_true_eq_false, if_false,
          List.head?_cons]
  obtain ⟨save'', hparse⟩ := hparse
  exact ⟨part.tail, mask, save''.tail, raisedBy_message hfound hparse⟩

end Raised

/-! ## The form of the lines that should -/

/-- `:nick!mask PRIVMSG target`, and the message after it. -/
def PrivmsgForm (line : Str) : Prop :=
  ∃ nick mask target rest, PrivmsgFields nick mask target ∧
    line = 58 :: nick ++ 33 :: mask ++ 32 :: ascii "PRIVMSG" ++ 32 :: target ++ rest ∧
    ∀ b ∈ rest.head?, b = 32

/-- Only a line of the form raises the event, and then without a null. -/
def PrivmsgSound (srv : Nat) (line : Str) : Prop :=
  (∀ event ∈ raisedBy srv line, PrivmsgForm line ∧ .null ∉ event.2) ∧
    (¬ PrivmsgForm line → raisedBy srv line = [])

/-- A line that starts with a nick and a mask does not end after that word
with a PRIVMSG in it; and where PRIVMSG is the second word a third one
follows, the first starts with a colon, and the line starts with the three
of them, one blank apart. -/
def PrivmsgChecked (line : Str) : Prop :=
  ∀ first rest, tokens isSpace line = first :: rest → HasMask first →
    (rest = [] → ¬ ascii "PRIVMSG" <:+: line) ∧
      ∀ params, rest = ascii "PRIVMSG" :: params →
        ∃ target, params.head? = some target ∧ first.head? = some 58 ∧
          first ++ 32 :: ascii "PRIVMSG" ++ 32 :: target <+: line

theorem tokens_privmsg {first : Str} (hne : first ≠ []) (hfree : ∀ c ∈ first, isSpace c = false)
    (target rest : Str) :
    tokens isSpace (first ++ 32 :: ascii "PRIVMSG" ++ 32 :: target ++ rest) =
      first :: ascii "PRIVMSG" :: tokens isSpace (target ++ rest) := by
  have happ : first ++ 32 :: ascii "PRIVMSG" ++ 32 :: target ++ rest =
      first ++ 32 :: (ascii "PRIVMSG" ++ 32 :: (target ++ rest)) := by
    simp
  rw [happ, tokens_word_cons hne hfree rfl,
    tokens_word_cons (by decide) (by decide +kernel) rfl]

theorem PrivmsgForm.words {line : Str} (h : PrivmsgForm line) :
    ∃ first target params, tokens isSpace line = first :: ascii "PRIVMSG" :: target :: params ∧
      first.head? = some 58 ∧ first ++ 32 :: ascii "PRIVMSG" ++ 32 :: target <+: line := by
  obtain ⟨nick, mask, target, rest, hfields, rfl, hrest⟩ := h
  have hfirst : ∀ c ∈ 58 :: nick ++ 33 :: mask, isSpace c = false := by
    have hnick : 32 ∉ nick := fun hmem => (hfields.nick 32 hmem).1 rfl
    have hmask : 32 ∉ mask := fun hmem => hfields.mask.2 32 hmem rfl
    exact isSpace_of_not_mem (by simp [hnick, hmask])
  have htarget : ∀ c ∈ target, isSpace c = false :=
    fun c hc => isSpace_eq_false.mpr (hfields.target.2 c hc)
  have hparams : ∃ params, tokens isSpace (target ++ rest) = target :: params := by
    cases rest with
    | nil => exact ⟨[], by rw [List.append_nil, tokens_word hfields.target.1 htarget]⟩
    | cons b rest =>
        obtain rfl : b = 32 := hrest b rfl
        exact ⟨_, tokens_word_cons hfields.target.1 htarget rfl rest⟩
  obtain ⟨params, hparams⟩ := hparams
  refine ⟨58 :: nick ++ 33 :: mask, target, params, ?_, rfl, List.prefix_append _ rest⟩
  rw [tokens_privmsg (by simp) hfirst, hparams]

/-- The third word ends at a blank, or with the line. -/
theorem head_of_third_word {first target rest : Str} {params : List Str}
    (hwords : tokens isSpace (first ++ 32 :: ascii "PRIVMSG" ++ 32 :: target ++ rest) =
      first :: ascii "PRIVMSG" :: target :: params) : ∀ b ∈ rest.head?, b = 32 := by
  obtain ⟨hne, hfree, -⟩ : first ≠ [] ∧ (∀ c ∈ first, isSpace c = false) ∧ first <:+: _ :=
    of_mem_tokens (by rw [hwords]; simp)
  obtain ⟨htarget, htfree, -⟩ :
      target ≠ [] ∧ (∀ c ∈ target, isSpace c = false) ∧ target <:+: _ :=
    of_mem_tokens (by rw [hwords]; simp)
  obtain ⟨after, hafter, -⟩ := tokens_word_append htarget htfree rest
  have hsame : target ++ rest.takeWhile (!isSpace ·) = target := by
    rw [tokens_privmsg hne hfree, hafter] at hwords
    simp only [List.cons.injEq, true_and] at hwords
    exact hwords.1
  intro b hb
  cases rest with
  | nil => cases hb
  | cons d rest =>
      obtain rfl : d = b := by simpa using hb
      have hd : isSpace d = true := by simpa using hsame
      simpa [isSpace] using hd

theorem privmsgForm_of_words {line first target : Str} {params : List Str}
    (hwords : tokens isSpace line = first :: ascii "PRIVMSG" :: target :: params)
    (hmask : HasMask first) (hcolon : first.head? = some 58)
    ( hprefix : first ++ 32 :: ascii "PRIVMSG" ++ 32 :: target <+: line) : PrivmsgForm line := by
  obtain ⟨-, hfree, -⟩ : first ≠ [] ∧ (∀ c ∈ first, isSpace c = false) ∧ first <:+: line :=
    of_mem_tokens (by rw [hwords]; simp)
  obtain ⟨htarget, htfree, -⟩ :
      target ≠ [] ∧ (∀ c ∈ target, isSpace c = false) ∧ target <:+: line :=
    of_mem_tokens (by rw [hwords]; simp)
  obtain ⟨bangs, part, mask, rfl, hbangs, hpart, hbang, hne⟩ := hmask
  -- a word that starts with a colon starts with no `!`
  obtain rfl : bangs = [] := by
    cases bangs with
    | nil => rfl
    | cons b bangs =>
        obtain rfl : b = 33 := hbangs b List.mem_cons_self
        cases hcolon
  obtain ⟨c, nick, rfl⟩ := List.exists_cons_of_ne_nil hpart
  obtain rfl : c = 58 := by simpa using hcolon
  rw [List.nil_append] at hfree hwords hprefix
  obtain ⟨rest, rfl⟩ := hprefix
  refine ⟨nick, mask, target, rest, ⟨?_, ⟨hne, ?_⟩, htarget, ?_⟩, rfl, head_of_third_word hwords⟩
  · intro c hc
    refine ⟨isSpace_eq_false.mp (hfree c (by simp [hc])), ?_⟩
    rintro rfl
    exact hbang (List.mem_cons_of_mem _ hc)
  · intro c hc
    exact isSpace_eq_false.mp (hfree c (by simp [hc]))
  · intro c hc
    exact isSpace_eq_false.mp (htfree c hc)

/-- A line that passes the checks raises nothing, or what its form says. -/
theorem raisedBy_of_checked {line : Str} (hchecked : PrivmsgChecked line) (srv : Nat) :
    raisedBy srv line = [] ∨ PrivmsgForm line ∧ ∃ nick mask target msg,
      raisedBy srv line = [gotPrivmsg srv nick mask (some target) msg] := by
  cases hwords : tokens isSpace line with
  | nil => exact Or.inl (raisedBy_no_words hwords)
  | cons first rest =>
      by_cases hmask : HasMask first
      · obtain ⟨hword, hcommand⟩ := hchecked first rest hwords hmask
        cases rest with
        | nil => exact Or.inl (raisedBy_not_found (hword rfl))
        | cons word params =>
            by_cases hw : word = ascii "PRIVMSG"
            · subst hw
              obtain ⟨target, htarget, hcolon, hprefix⟩ := hcommand params rfl
              obtain ⟨nick, mask, msg, hraised⟩ := raisedBy_command hwords hmask
              obtain ⟨params, rfl⟩ : ∃ t, params = target :: t := by
                cases params with
                | nil => cases htarget
                | cons d t => exact ⟨t, by simpa using htarget⟩
              exact Or.inr ⟨privmsgForm_of_words hwords hmask hcolon hprefix,
                nick, mask, target, msg, hraised⟩
            · exact Or.inl (raisedBy_other hwords hw)
      · exact Or.inl (raisedBy_no_mask hwords hmask)

/-- A line raises the event only as it should if and only if it passes the
checks that are not made. -/
theorem privmsgSound_iff (srv : Nat) (line : Str) :
    PrivmsgSound srv line ↔ PrivmsgChecked line := by
  constructor
  · rintro ⟨honly, -⟩ first rest hwords hmask
    constructor
    · rintro rfl hfound
      obtain ⟨nick, mask, msg, hraised⟩ := raisedBy_word hwords hmask hfound
      have hevent := (honly _ (by rw [hraised]; exact List.mem_singleton_self _)).2
      simp [gotPrivmsg] at hevent
    · rintro params rfl
      obtain ⟨nick, mask, msg, hraised⟩ := raisedBy_command hwords hmask
      have hform := (honly _ (by rw [hraised]; exact List.mem_singleton_self _)).1
      obtain ⟨first', target, params', hwords', hcolon, hprefix⟩ := hform.words
      obtain ⟨rfl, -, rfl⟩ : first = first' ∧ True ∧ params = target :: params' := by
        simpa using hwords.symm.trans hwords'
      exact ⟨target, rfl, hcolon, hprefix⟩
  · intro hchecked
    rcases raisedBy_of_checked hchecked srv with hnone | ⟨hform, nick, mask, target, msg, hraised⟩
    · refine ⟨fun event hevent => ?_, fun _ => hnone⟩
      rw [hnone] at hevent
      cases hevent
    · refine ⟨fun event hevent => ⟨hform, ?_⟩, fun hnot => absurd hform hnot⟩
      rw [hraised] at hevent
      rw [List.mem_singleton.mp hevent]
      simp [gotPrivmsg]

/-- The line ends before the target, which is a null pointer then. -/
theorem not_privmsgSound : ¬ ∀ srv line, PrivmsgSound srv line := by
  intro h
  have hraised : raisedBy 0 (ascii ":joona!~j@host PRIVMSG") =
      [gotPrivmsg 0 (ascii "joona") (ascii "~j@host") none []] := by decide +kernel
  have hnull := ((h 0 (ascii ":joona!~j@host PRIVMSG")).1 _
    (by rw [hraised]; exact List.mem_singleton_self _)).2
  simp [gotPrivmsg] at hnull

end Bcirc
