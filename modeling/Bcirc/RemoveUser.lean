import Bcirc.Loop
import Bcirc.QuitEvent

/-!
# Taking a nick off a channel

The loop of `remove_user`, turn by turn. The tokenizer has cut the list
after the token the turn looks at, so what is measured there is no longer
the list. A token that is the nick is looked at again for ever; any other
one ends the loop, and the whole list goes with it.
-/

namespace Bcirc

open CProg CStr Loop

/-! ## The loop -/

/-- `chan->users` as the tokenizer has left it, the token, what is behind
it, and `len`. -/
structure RemoveLoop where
  users : Str
  token : Option Str
  save : Str
  len : Nat
  deriving DecidableEq, Repr

def removeStart (users : Str) : RemoveLoop where
  users := strtokRCut isSpace users
  token := (strtokR isSpace users).1
  save := (strtokR isSpace users).2
  len := 0

/-- One turn; it leaves with what `chan->users` is in the end. `continue`
skips the `strtok_r` at the bottom, and no other turn gets there: the last
branch reads the bytes before `chan->users`. -/
def removeTurn (nick : Str) (l : RemoveLoop) : Turn RemoveLoop (Except Fault (Option Str)) :=
  match l.token with
  | none => .exit (.ok none)
  | some token =>
      if token = nick then .again { l with len := l.len + token.length }
      else
        let newLen := l.users.length - token.length
        if newLen = 0 then .exit (.ok none)
        else .exit (.error .outOfBounds)

/-- The tokens that are still to come, the present one included. -/
def RemoveLoop.left (l : RemoveLoop) : Nat :=
  (l.token.toList ++ tokens isSpace l.save).length

/-- The loop leaves, and every turn of it takes a token of the list. -/
structure LoopEnds (nick users : Str) : Prop where
  exits : ∃ newUsers, Exits (removeTurn nick) (removeStart users) (.ok newUsers)
  usesUp : UsesUp (removeTurn nick) RemoveLoop.left (removeStart users)

/-- Another nick is at the very start of the list. -/
def StartsWithOther (nick users : Str) : Prop :=
  ∃ first rest, tokens isSpace users = first :: rest ∧ first ≠ nick ∧ users.head? ≠ some 32

/-- There is nothing to look at, or another nick. -/
def EndsAtOnce (nick users : Str) : Prop :=
  tokens isSpace users = [] ∨ StartsWithOther nick users

section Loop

variable {nick users first : Str} {rest : List Str}

theorem removeStart_nil (hwords : tokens isSpace users = []) (nick : Str) :
    removeTurn nick (removeStart users) = .exit (.ok none) := by
  unfold removeTurn removeStart
  rw [strtokR_of_tokens_nil hwords]

/-- The token is the nick, and stays it. -/
theorem removeTurn_stuck (hwords : tokens isSpace users = nick :: rest) :
    RunsOn (removeTurn nick) (removeStart users) := by
  refine runsOn_of_invariant (I := fun l => l.token = some nick) ?_ ?_
  · intro l hl
    refine ⟨{ l with len := l.len + nick.length }, ?_, hl⟩
    unfold removeTurn
    rw [hl]
    simp
  · obtain ⟨save, hcut, -⟩ := strtokR_of_tokens_cons hwords
    unfold removeStart
    rw [hcut]

theorem head_eq_blank (s : Str) : (s.takeWhile isSpace).length = 0 ↔ s.head? ≠ some 32 := by
  cases s with
  | nil => simp
  | cons c s =>
      by_cases hc : c = 32
      · simp [hc, isSpace]
      · simp [hc, isSpace_eq_false.mpr hc]

/-- Another one, with or without blanks in front of it. -/
theorem removeTurn_other (hwords : tokens isSpace users = first :: rest) (hne : first ≠ nick) :
    removeTurn nick (removeStart users) =
      .exit (if users.head? ≠ some 32 then .ok none else .error .outOfBounds) := by
  obtain ⟨save, hcut, -⟩ := strtokR_of_tokens_cons hwords
  -- what the tokenizer has left of the list ends with the token
  have hlen : (strtokRCut isSpace users).length - first.length =
      (users.takeWhile isSpace).length := by
    rw [strtokRCut_of_some hcut, List.length_append]
    omega
  unfold removeTurn removeStart
  rw [hcut]
  simp only
  rw [if_neg hne, hlen]
  by_cases hlead : users.head? ≠ some 32
  · rw [if_pos ((head_eq_blank users).mpr hlead), if_pos hlead]
  · rw [if_neg (mt (head_eq_blank users).mp hlead), if_neg hlead]

/-- `removeUserLoop` is what the turns come to. -/
theorem removeUserLoop_run (users nick : Str) :
    removeUserLoop users nick = .error .diverges ∧
        RunsOn (removeTurn nick) (removeStart users) ∨
      removeUserLoop users nick ≠ .error .diverges ∧
        Exits (removeTurn nick) (removeStart users) (removeUserLoop users nick) := by
  cases hwords : tokens isSpace users with
  | nil =>
      have hloop : removeUserLoop users nick = .ok none := removeUserLoop_emptied (Or.inl hwords)
      rw [hloop]
      exact Or.inr ⟨fun h => (by cases h), exits_of_exit (removeStart_nil hwords nick)⟩
  | cons first rest =>
      obtain ⟨save, hcut, -⟩ := strtokR_of_tokens_cons hwords
      unfold removeUserLoop
      rw [hcut]
      simp only
      by_cases hnick : first = nick
      · rw [if_pos hnick]
        exact Or.inl ⟨rfl, removeTurn_stuck (hnick ▸ hwords)⟩
      · have hturn := exits_of_exit (removeTurn_other hwords hnick)
        rw [if_neg hnick, if_congr (head_eq_blank users) rfl rfl]
        refine Or.inr ⟨?_, hturn⟩
        split <;> exact fun h => (by cases h)

theorem removeUserLoop_diverges_iff (users nick : Str) :
    removeUserLoop users nick = .error .diverges ↔
      RunsOn (removeTurn nick) (removeStart users) := by
  rcases removeUserLoop_run users nick with ⟨hloop, hruns⟩ | ⟨hloop, hexits⟩
  · exact ⟨fun _ => hruns, fun _ => hloop⟩
  · exact ⟨fun h => absurd h hloop, fun h => absurd hexits h.not_exits⟩

theorem not_loopEnds_of_runsOn (h : RunsOn (removeTurn nick) (removeStart users)) :
    ¬ LoopEnds nick users := by
  rintro ⟨⟨newUsers, hexits⟩, -⟩
  exact h.not_exits hexits

end Loop

/-! ## Does it end? -/

/-- The loop looks at one token: at the end of the list it is done, and so
it is with another nick that has no blank in front of it. -/
theorem loopEnds_iff (nick users : Str) : LoopEnds nick users ↔ EndsAtOnce nick users := by
  cases hwords : tokens isSpace users with
  | nil =>
      have hturn := removeStart_nil hwords nick
      exact ⟨fun _ => Or.inl hwords,
        fun _ => ⟨⟨none, exits_of_exit hturn⟩, usesUp_of_exit hturn _⟩⟩
  | cons first rest =>
      unfold EndsAtOnce StartsWithOther
      rw [hwords]
      by_cases hnick : first = nick
      · refine iff_of_false (not_loopEnds_of_runsOn (removeTurn_stuck (hnick ▸ hwords))) ?_
        rintro (hnil | ⟨first', rest', hcons, hne, -⟩)
        · cases hnil
        · cases hcons
          exact hne hnick
      · have hturn := removeTurn_other hwords hnick
        constructor
        · rintro ⟨⟨newUsers, hexits⟩, -⟩
          have hresult := hexits.unique (exits_of_exit hturn)
          split at hresult
          · rename_i hlead
            exact Or.inr ⟨first, rest, rfl, hnick, hlead⟩
          · cases hresult
        · rintro (hnil | ⟨first', rest', hcons, -, hlead⟩)
          · cases hnil
          · rw [if_pos hlead] at hturn
            exact ⟨⟨none, exits_of_exit hturn⟩, usesUp_of_exit hturn _⟩

/-- `bob` leaves a channel that lists him first. -/
theorem not_loopEnds : ¬ LoopEnds (ascii "bob") (ascii "bob alice") := by
  have hwords : tokens isSpace (ascii "bob alice") = [ascii "bob", ascii "alice"] := by
    decide +kernel
  exact not_loopEnds_of_runsOn (removeTurn_stuck hwords)

/-! ## What is left of the list -/

/-- The list is the one it was, without the nick, and the rest of the
record is untouched. -/
structure NickRemoved (record record' : Channel) (users nick : Str) : Prop where
  others : tokens isSpace (record'.users.getD []) = (tokens isSpace users).filter (· ≠ nick)
  fields : record' = { record with users := record'.users }

/-- When `remove_user` returns `OK`, the channel lists the others. -/
def ListsOthers (w : World) (chan : Nat) (record : Channel) (users nick : Str)
    (rest : List Arg) : Prop :=
  ∀ w', removeUser (.channel chan :: .str nick :: rest) w = .ok bcircPluginOk w' →
    ∃ record', w'.channelList[chan]? = some record' ∧ NickRemoved record record' users nick

/-- It also does not read outside the list: what it returns then is open. -/
structure RemovesNick (w : World) (chan : Nat) (record : Channel) (users nick : Str)
    (rest : List Arg) : Prop where
  inside : ∀ w', removeUser (.channel chan :: .str nick :: rest) w ≠ .error .outOfBounds w'
  lists : ListsOthers w chan record users nick rest

theorem removeUserLoop_ok_iff (users nick : Str) (newUsers : Option Str) :
    removeUserLoop users nick = .ok newUsers ↔ newUsers = none ∧ EndsAtOnce nick users := by
  have hlead : users.takeWhile isSpace = [] ↔ users.head? ≠ some 32 :=
    List.length_eq_zero_iff.symm.trans (head_eq_blank users)
  constructor
  · intro hloop
    obtain ⟨hnone, hends⟩ := removeUserLoop_ok hloop
    rw [hlead] at hends
    exact ⟨hnone, hends⟩
  · rintro ⟨rfl, hends⟩
    unfold EndsAtOnce StartsWithOther at hends
    rw [← hlead] at hends
    exact removeUserLoop_emptied hends

section Removed

variable {w : World} {chan : Nat} {record : Channel} {users : Str}

/-- Whenever it returns `OK`, it has freed the list. -/
theorem removeUser_ok_iff (hchan : w.channelList[chan]? = some record)
    (husers : record.users = some users) (nick : Str) (rest : List Arg) (w' : World) :
    removeUser (.channel chan :: .str nick :: rest) w = .ok bcircPluginOk w' ↔
      EndsAtOnce nick users ∧ w' = { w with
        channelList := w.channelList.modify chan fun c => { c with users := none } } := by
  rw [removeUser_chan hchan, husers]
  simp only
  cases hloop : removeUserLoop users nick with
  | error e =>
      refine iff_of_false (fun h => by cases h) ?_
      rintro ⟨hends, -⟩
      rw [(removeUserLoop_ok_iff users nick none).mpr ⟨rfl, hends⟩] at hloop
      cases hloop
  | ok newUsers =>
      obtain ⟨rfl, hends⟩ := (removeUserLoop_ok_iff users nick newUsers).mp hloop
      constructor
      · intro h
        cases h
        exact ⟨hends, rfl⟩
      · rintro ⟨-, rfl⟩
        rfl

/-- The record after that. -/
theorem nickRemoved_freed (record : Channel) (users nick : Str) :
    NickRemoved record { record with users := none } users nick ↔
      (tokens isSpace users).filter (· ≠ nick) = [] :=
  ⟨fun h => (by simpa using h.others.symm), fun h => ⟨by simpa using h.symm, rfl⟩⟩

theorem not_listsOthers (hchan : w.channelList[chan]? = some record)
    (husers : record.users = some users) {nick : Str} (hother : StartsWithOther nick users)
    (rest : List Arg) : ¬ ListsOthers w chan record users nick rest := by
  intro hlists
  have hrun := (removeUser_ok_iff hchan husers nick rest _).mpr ⟨Or.inr hother, rfl⟩
  obtain ⟨record', hrecord', hremoved⟩ := hlists _ hrun
  rw [modify_freed hchan] at hrecord'
  obtain rfl := Option.some.inj hrecord'
  obtain ⟨first, others, hwords, hne, -⟩ := hother
  have hnil := (nickRemoved_freed record users nick).mp hremoved
  rw [hwords, List.filter_cons_of_pos (by simpa using hne)] at hnil
  cases hnil

theorem removeUser_outside_iff (hchan : w.channelList[chan]? = some record)
    (husers : record.users = some users) (nick : Str) (rest : List Arg) :
    (∃ w', removeUser (.channel chan :: .str nick :: rest) w = .error .outOfBounds w') ↔
      removeUserLoop users nick = .error .outOfBounds := by
  rw [removeUser_chan hchan, husers]
  simp only
  cases removeUserLoop users nick with
  | error e => simp
  | ok newUsers => simp

/-- The bytes before the list are read when another nick stands behind a blank. -/
theorem removeUserLoop_outside_iff (users nick : Str) :
    removeUserLoop users nick = .error .outOfBounds ↔
      ∃ first rest, tokens isSpace users = first :: rest ∧ first ≠ nick ∧
        users.head? = some 32 := by
  cases hwords : tokens isSpace users with
  | nil =>
      rw [removeUserLoop_emptied (Or.inl hwords)]
      exact iff_of_false (fun h => by cases h) (fun ⟨_, _, h, _⟩ => by cases h)
  | cons first rest =>
      obtain ⟨save, hcut, -⟩ := strtokR_of_tokens_cons hwords
      unfold removeUserLoop
      rw [hcut]
      simp only
      by_cases hnick : first = nick
      · rw [if_pos hnick]
        refine iff_of_false (fun h => by cases h) ?_
        rintro ⟨first', rest', hcons, hne, -⟩
        cases hcons
        exact hne hnick
      · rw [if_neg hnick, if_congr (head_eq_blank users) rfl rfl]
        by_cases hlead : users.head? = some 32
        · rw [if_neg (not_not.mpr hlead)]
          exact iff_of_true rfl ⟨first, rest, rfl, hnick, hlead⟩
        · rw [if_pos hlead]
          exact iff_of_false (fun h => by cases h) fun ⟨_, _, _, _, hblank⟩ => hlead hblank

/-- What it returns `OK` for is an empty list, which stays empty, or a list
with another nick in front, which is lost. Behind a blank that nick is lost
too, or worse. -/
theorem removesNick_iff (hchan : w.channelList[chan]? = some record)
    (husers : record.users = some users) (nick : Str) (rest : List Arg) :
    RemovesNick w chan record users nick rest ↔
      ∀ first ∈ (tokens isSpace users).head?, first = nick := by
  constructor
  · intro hremoves first hfirst
    by_contra hne
    obtain ⟨others, hwords⟩ := List.head?_eq_some_iff.mp hfirst
    by_cases hlead : users.head? = some 32
    · have hloop := (removeUserLoop_outside_iff users nick).mpr ⟨first, others, hwords, hne, hlead⟩
      obtain ⟨w', hrun⟩ := (removeUser_outside_iff hchan husers nick rest).mpr hloop
      exact hremoves.inside w' hrun
    · exact not_listsOthers hchan husers ⟨first, others, hwords, hne, hlead⟩ rest hremoves.lists
  · intro honly
    constructor
    · intro w' hrun
      have hloop := (removeUser_outside_iff hchan husers nick rest).mp ⟨w', hrun⟩
      obtain ⟨first, others, hwords, hne, -⟩ := (removeUserLoop_outside_iff users nick).mp hloop
      exact hne (honly first (by rw [hwords]; rfl))
    · intro w' hrun
      obtain ⟨hends, rfl⟩ := (removeUser_ok_iff hchan husers nick rest w').mp hrun
      have hwords : tokens isSpace users = [] := by
        refine hends.resolve_right ?_
        rintro ⟨first, others, hwords, hne, -⟩
        exact hne (honly first (by rw [hwords]; rfl))
      refine ⟨_, modify_freed hchan, (nickRemoved_freed record users nick).mpr ?_⟩
      rw [hwords, List.filter_nil]

end Removed

/-- `bob` is the first of the list: `OK` is not returned. It is for a list of
blanks, which has no nick to remove. -/
theorem removesNick_iff_sample :
    RemovesNick (quitWorld (ascii "#chan") (ascii "bob alice")) 0
        ⟨ascii "#chan", none, none, none, 0, none, some (ascii "bob alice"), 0⟩
        (ascii "bob alice") (ascii "bob") [] ∧
      RemovesNick (quitWorld (ascii "#chan") (ascii "  ")) 0
        ⟨ascii "#chan", none, none, none, 0, none, some (ascii "  "), 0⟩ (ascii "  ")
        (ascii "bob") [] := by
  constructor
  · exact (removesNick_iff (w := quitWorld (ascii "#chan") (ascii "bob alice")) rfl rfl
      (ascii "bob") []).mpr (by decide +kernel)
  · exact (removesNick_iff (w := quitWorld (ascii "#chan") (ascii "  ")) rfl rfl
      (ascii "bob") []).mpr (by decide +kernel)

/-- `bob` leaves `alice`, and she is off the list too. -/
theorem removeUser_frees :
    ¬ ListsOthers (quitWorld (ascii "#chan") (ascii "alice bob")) 0
      ⟨ascii "#chan", none, none, none, 0, none, some (ascii "alice bob"), 0⟩
      (ascii "alice bob") (ascii "bob") [] := by
  have hwords : tokens isSpace (ascii "alice bob") = [ascii "alice", ascii "bob"] := by
    decide +kernel
  have hother : StartsWithOther (ascii "bob") (ascii "alice bob") :=
    ⟨ascii "alice", [ascii "bob"], hwords, by decide, by decide⟩
  exact not_listsOthers (w := quitWorld (ascii "#chan") (ascii "alice bob")) rfl rfl hother []

end Bcirc
