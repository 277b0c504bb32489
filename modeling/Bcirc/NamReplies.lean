import Bcirc.CStrWords
import Bcirc.ChannelRecords
import Bcirc.TrailingForm

/-!
# The users of a channel, reply by reply

A channel is announced in as many `RPL_NAMREPLY` lines as it takes, and
`get_channel_users` puts what each of them brings behind what is there. The
replies of most servers end with a blank; where one does not, the last nick
of it and the first one of the next are stored as one.
-/

namespace Bcirc

open CProg CStr KeyedList

/-- `head` is what stands between the first colon and the channel. -/
structure NamReply where
  head : Str
  nicks : List Str
  trailing : Bool
  deriving DecidableEq, Repr

namespace NamReply

def text (r : NamReply) : Str := joinWords 32 r.nicks ++ if r.trailing then [32] else []

/-- The line, for the channel `#c`. -/
def line (c : Str) (r : NamReply) : Str := 58 :: (r.head ++ 35 :: c ++ 32 :: 58 :: r.text)

/-- The channel comes first of all that has a `#`, and the nicks are words. -/
structure Valid (r : NamReply) : Prop where
  head : 35 ∉ r.head
  nicks : AreWords isSpace r.nicks

instance (r : NamReply) : Decidable r.Valid :=
  decidable_of_iff (35 ∉ r.head ∧ AreWords isSpace r.nicks)
    ⟨fun h => ⟨h.1, h.2⟩, fun h => ⟨h.head, h.nicks⟩⟩

/-- Whether a nick ends where the users end, if one did before the reply or not. -/
def openAfter (o : Bool) (r : NamReply) : Bool := !r.trailing && (o || r.nicks ≠ [])

end NamReply

/-- The lines come in one after the other. -/
def namReplies (srv : Nat) (c : Str) : List NamReply → Prog World Unit
  | [] => pure ()
  | r :: rs => do
      let _ ← getChannelInfo [.server srv, .int rplNamreply, .str (r.line c)]
      namReplies srv c rs

def World.usersOf (w : World) (name : Str) (srv : Nat) : Str :=
  ((w.channel name srv).bind (·.users)).getD []

/-- The lines are handled, and the users are those of all the lines. -/
def UsersListed (w : World) (srv : Nat) (c : Str) (rs : List NamReply) : Prop :=
  ∃ w', namReplies srv c rs w = .ok () w' ∧
    tokens isSpace (w'.usersOf (35 :: c) srv) = rs.flatMap (·.nicks)

/-- A reply that starts with a nick comes when no nick is open. -/
def Spaced : Bool → List NamReply → Prop
  | _, [] => True
  | o, r :: rs => (o → r.nicks = []) ∧ Spaced (r.openAfter o) rs

instance decidableSpaced : (o : Bool) → (rs : List NamReply) → Decidable (Spaced o rs)
  | _, [] => isTrue trivial
  | o, r :: rs =>
      have : Decidable (Spaced (r.openAfter o) rs) := decidableSpaced (r.openAfter o) rs
      inferInstanceAs (Decidable ((o → r.nicks = []) ∧ Spaced (r.openAfter o) rs))

/-! ## One reply -/

section Reply

variable {w w' : World} {srv : Nat} {c : Str} {r : NamReply}

theorem Changes.usersOf {name users : Str} (h : Changes w w' name srv (Channel.addUsers users)) :
    w'.usersOf name srv = w.usersOf name srv ++ users := by
  unfold World.usersOf
  rw [h.here]
  cases w.channel name srv with
  | none => rfl
  | some record => rfl

theorem getChannelInfo_line (hr : r.Valid) (hc : 32 ∉ c) (srv : Nat) (w : World) :
    ∃ w', getChannelInfo [.server srv, .int rplNamreply, .str (r.line c)] w =
        .ok bcircPluginOk w' ∧
      w'.usersOf (35 :: c) srv = w.usersOf (35 :: c) srv ++ afterColon (r.line c).tail := by
  have hname : channelName (r.line c) = .ok (35 :: c) :=
    channelName_append (a := 58 :: r.head) (by simp [hr.head]) hc _
  have hcolon : 58 ∈ (r.line c).tail := by simp [NamReply.line]
  obtain ⟨w', hrun, hchanges⟩ := getChannelInfo_namreply hname hcolon srv w
  exact ⟨w', hrun, hchanges.usersOf⟩

/-- All the replies add up. -/
theorem namReplies_run (hc : 32 ∉ c) {rs : List NamReply} (hrs : ∀ r ∈ rs, r.Valid) (srv : Nat)
    (w : World) :
    ∃ w', namReplies srv c rs w = .ok () w' ∧ w'.usersOf (35 :: c) srv =
      w.usersOf (35 :: c) srv ++ (rs.map fun r => afterColon (r.line c).tail).flatten := by
  induction rs generalizing w with
  | nil => exact ⟨w, rfl, (List.append_nil _).symm⟩
  | cons r rs ih =>
      obtain ⟨hr, hrest⟩ := List.forall_mem_cons.mp hrs
      obtain ⟨w₁, hrun, husers⟩ := getChannelInfo_line hr hc srv w
      obtain ⟨w', hruns, husers'⟩ := ih hrest w₁
      refine ⟨w', ?_, ?_⟩
      · rw [namReplies, bind_ok hrun, hruns]
      · rw [husers', husers, List.map_cons, List.flatten_cons, List.append_assoc]

end Reply

/-! ## The words of a reply -/

section Words

variable {c : Str} {r : NamReply}

theorem tokens_text (hr : r.Valid) : tokens isSpace r.text = r.nicks := by
  unfold NamReply.text
  cases r.trailing with
  | false =>
      rw [if_neg Bool.false_ne_true, List.append_nil]
      exact tokens_joinWords rfl hr.nicks
  | true =>
      rw [if_pos rfl, tokens_concat_delim _ rfl]
      exact tokens_joinWords rfl hr.nicks

theorem openStart_text (hr : r.Valid) : OpenStart isSpace r.text ↔ r.nicks ≠ [] := by
  refine openStart_joinWords hr.nicks _ ?_
  rintro ⟨b, hb, hnot⟩
  cases htrailing : r.trailing with
  | false =>
      rw [htrailing] at hb
      cases hb
  | true =>
      rw [htrailing] at hb
      cases hb
      cases hnot

theorem openEnd_text (hr : r.Valid) {s : Str} {o : Bool} (hs : OpenEnd isSpace s ↔ o) :
    OpenEnd isSpace (s ++ r.text) ↔ r.openAfter o := by
  unfold NamReply.text NamReply.openAfter
  cases r.trailing with
  | true =>
      rw [if_pos rfl, ← List.append_assoc]
      simp [OpenEnd, isSpace]
  | false =>
      rw [if_neg Bool.false_ne_true, List.append_nil]
      cases hnicks : r.nicks with
      | nil => simpa [joinWords] using hs
      | cons nick nicks =>
          have hopen : OpenEnd isSpace (joinWords 32 (nick :: nicks)) :=
            openEnd_joinWords (hnicks ▸ hr.nicks)
          obtain ⟨b, hb, hnot⟩ := hopen
          have hmem : b ∈ (s ++ joinWords 32 (nick :: nicks)).getLast? := by
            rw [Option.mem_def] at hb ⊢
            rw [List.getLast?_append, hb]
            rfl
          exact iff_of_true ⟨b, hmem, hnot⟩ (by simp)

theorem seamless_texts {s : Str} {o : Bool} (hs : OpenEnd isSpace s ↔ o) {rs : List NamReply}
    (hrs : ∀ r ∈ rs, r.Valid) : Seamless isSpace s (rs.map NamReply.text) ↔ Spaced o rs := by
  induction rs generalizing s o with
  | nil => exact Iff.rfl
  | cons r rs ih =>
      obtain ⟨hr, hrest⟩ := List.forall_mem_cons.mp hrs
      have hseam : ¬ (OpenEnd isSpace s ∧ OpenStart isSpace r.text) ↔ (o → r.nicks = []) := by
        rw [hs, openStart_text hr, not_and, not_not]
      rw [List.map_cons, Seamless, Spaced, hseam, ih (openEnd_text hr hs) hrest]

/-! ## Colons before the channel's users -/

theorem afterColon_line (hfree : 58 ∉ r.head ++ c) : afterColon (r.line c).tail = r.text := by
  have hfree' : 58 ∉ r.head ++ 35 :: c ++ [32] := by
    simp only [List.mem_append] at hfree
    simp [List.mem_append, not_or.mp hfree]
  have hsplit : (r.line c).tail = (r.head ++ 35 :: c ++ [32]) ++ 58 :: r.text := by
    simp [NamReply.line]
  rw [hsplit, (colon_append hfree' _).2]

/-- Bytes that are no blanks. -/
def inked (s : Str) : Nat := s.countP (!isSpace ·)

theorem inked_afterColon (hmem : 58 ∈ r.head ++ c) :
    inked r.text < inked (afterColon (r.line c).tail) := by
  have hmem' : 58 ∈ r.head ++ 35 :: c ++ [32] := by
    rcases List.mem_append.mp hmem with h | h
    · simp [h]
    · simp [h]
  have hsplit : (r.line c).tail = (r.head ++ 35 :: c ++ [32]) ++ 58 :: r.text := by
    simp [NamReply.line]
  obtain ⟨d, hd⟩ := afterColon_early hmem' r.text
  have hcolon : inked (58 :: r.text) = inked r.text + 1 := List.countP_cons_of_pos rfl
  have hadd : inked (d ++ 58 :: r.text) = inked d + inked (58 :: r.text) := List.countP_append
  rw [hsplit, hd]
  omega

theorem inked_eq (s : Str) : inked s = (tokens isSpace s).flatten.length := by
  rw [flatten_tokens]
  exact List.countP_eq_length_filter

theorem inked_append (s t : Str) : inked (s ++ t) = inked s + inked t := List.countP_append

theorem inked_texts {rs : List NamReply} (hrs : ∀ r ∈ rs, r.Valid) :
    inked (rs.map NamReply.text).flatten = (rs.flatMap (·.nicks)).flatten.length := by
  induction rs with
  | nil => rfl
  | cons r rs ih =>
      obtain ⟨hr, hrest⟩ := List.forall_mem_cons.mp hrs
      rw [List.map_cons, List.flatten_cons, inked_append, ih hrest, inked_eq, tokens_text hr,
        List.flatMap_cons, List.flatten_append, List.length_append]

/-- Lines never bring less than their nicks, and more if there is an early colon. -/
theorem inked_texts_le (c : Str) (rs : List NamReply) :
    inked (rs.map NamReply.text).flatten ≤
        inked (rs.map fun r => afterColon (r.line c).tail).flatten ∧
      ((∃ r ∈ rs, 58 ∈ r.head ++ c) → inked (rs.map NamReply.text).flatten <
        inked (rs.map fun r => afterColon (r.line c).tail).flatten) := by
  induction rs with
  | nil => exact ⟨Nat.le_refl _, fun ⟨r, hr, _⟩ => nomatch hr⟩
  | cons r rs ih =>
      obtain ⟨hle, hlt⟩ := ih
      rw [List.map_cons, List.map_cons, List.flatten_cons, List.flatten_cons, inked_append,
        inked_append]
      by_cases hmem : 58 ∈ r.head ++ c
      · have hmore := inked_afterColon hmem
        exact ⟨by omega, fun _ => by omega⟩
      · rw [afterColon_line hmem]
        refine ⟨by omega, ?_⟩
        rintro ⟨r', hr', hmem'⟩
        rcases List.mem_cons.mp hr' with rfl | hr'
        · exact absurd hmem' hmem
        · have hrest := hlt ⟨r', hr', hmem'⟩
          omega

end Words

/-! ## All the users -/

/-- Were there an earlier colon, there would be too much in the list. -/
theorem no_colon_of_listed {c : Str} {rs : List NamReply} (hrs : ∀ r ∈ rs, r.Valid)
    (h : tokens isSpace (rs.map fun r => afterColon (r.line c).tail).flatten =
      rs.flatMap (·.nicks)) : ∀ r ∈ rs, 58 ∉ r.head ++ c := by
  have hink := inked_eq (rs.map fun r => afterColon (r.line c).tail).flatten
  rw [h, ← inked_texts hrs] at hink
  intro r hr hmem
  have hlt := (inked_texts_le c rs).2 ⟨r, hr, hmem⟩
  omega

theorem usersListed_iff_words {c : Str} (hc : 32 ∉ c) {rs : List NamReply}
    (hrs : ∀ r ∈ rs, r.Valid) {w : World} {srv : Nat} (hnone : w.usersOf (35 :: c) srv = []) :
    UsersListed w srv c rs ↔
      tokens isSpace (rs.map fun r => afterColon (r.line c).tail).flatten =
        rs.flatMap (·.nicks) := by
  obtain ⟨w', hrun, husers⟩ := namReplies_run hc hrs srv w
  rw [hnone, List.nil_append] at husers
  rw [← husers]
  constructor
  · rintro ⟨w'', hrun', hwords⟩
    rw [hrun] at hrun'
    cases hrun'
    exact hwords
  · exact fun hwords => ⟨w', hrun, hwords⟩

theorem tokens_texts_iff {rs : List NamReply} (hrs : ∀ r ∈ rs, r.Valid) :
    tokens isSpace (rs.map NamReply.text).flatten = rs.flatMap (·.nicks) ↔ Spaced false rs := by
  have hnicks : (rs.map NamReply.text).flatMap (tokens isSpace) = rs.flatMap (·.nicks) := by
    rw [List.flatMap_map]
    exact List.flatMap_congr fun r hr => tokens_text (hrs r hr)
  have hopen : OpenEnd isSpace [] ↔ false := by simp [OpenEnd]
  rw [← seamless_texts hopen hrs, ← tokens_flatten_iff, hnicks, tokens_nil, List.nil_append,
    List.nil_append]

/-- The list of the users is that of the replies in a row, provided the
first colon of each line is the one before the nicks, and no nick that ends
a line meets one that starts a line. -/
theorem usersListed_iff {c : Str} (hc : 32 ∉ c) {rs : List NamReply} (hrs : ∀ r ∈ rs, r.Valid)
    {w : World} {srv : Nat} (hnone : w.usersOf (35 :: c) srv = []) :
    UsersListed w srv c rs ↔ (∀ r ∈ rs, 58 ∉ r.head ++ c) ∧ Spaced false rs := by
  have htexts : (∀ r ∈ rs, 58 ∉ r.head ++ c) →
      (rs.map fun r => afterColon (r.line c).tail) = rs.map NamReply.text :=
    fun hfree => List.map_congr_left fun r hr => afterColon_line (hfree r hr)
  rw [usersListed_iff_words hc hrs hnone, ← tokens_texts_iff hrs]
  constructor
  · intro h
    have hfree := no_colon_of_listed hrs h
    rw [htexts hfree] at h
    exact ⟨hfree, h⟩
  · rintro ⟨hfree, h⟩
    rw [htexts hfree]
    exact h

/-- `:irc 353 me = #chan :`, and the nicks. -/
def sampleReply (nicks : List Str) (trailing : Bool) : NamReply :=
  ⟨ascii "irc 353 me = ", nicks, trailing⟩

/-- `a b ` and `c d`. -/
theorem usersListed_iff_sample :
    UsersListed welcomedWorld 0 (ascii "chan")
      [sampleReply [ascii "a", ascii "b"] true, sampleReply [ascii "c", ascii "d"] false] :=
  (usersListed_iff (by decide) (by decide +kernel) rfl).mpr (by decide +kernel)

/-- `a b` and `c d` make `a bc d`. -/
theorem not_usersListed :
    ¬ UsersListed welcomedWorld 0 (ascii "chan")
      [sampleReply [ascii "a", ascii "b"] false, sampleReply [ascii "c", ascii "d"] false] := by
  rintro ⟨w', hrun, hwords⟩
  have hchan : 32 ∉ ascii "chan" := by decide
  have hvalid : ∀ r ∈ [sampleReply [ascii "a", ascii "b"] false,
      sampleReply [ascii "c", ascii "d"] false], r.Valid := by decide +kernel
  obtain ⟨w₁, hrun₁, husers⟩ := namReplies_run hchan hvalid 0 welcomedWorld
  rw [hrun₁] at hrun
  cases hrun
  rw [husers] at hwords
  revert hwords
  decide +kernel

end Bcirc
