import Bcirc.ChanEvents

/-!
# The lengths of nick and hostmask

`get_chan_event` cuts them out of the line with `size_t` differences. The
first `!` and the first blank of the line are found independently of each
other, so the blank may come first; the length of the mask then wraps and
the copy leaves the line. `sourceCopies` is the code with its machine
arithmetic, of which `chanEventSource` is the reading over `Nat`.
-/

namespace Bcirc

open CProg CStr

/-- `size_t`. -/
abbrev SizeT := BitVec 64

def strlen (s : Str) : SizeT := BitVec.ofNat 64 s.length

/-- `strlen(buf_orig) - strlen(nick_end) - 1`. -/
def nickLen (bufOrig nickEnd : Str) : SizeT := strlen bufOrig - strlen nickEnd - 1

/-- `strlen(buf_orig) - strlen(mask_end) - nick_len - 2`. -/
def maskLen (bufOrig maskEnd : Str) (nickLen : SizeT) : SizeT :=
  strlen bufOrig - strlen maskEnd - nickLen - 2

/-- The two copies, with the lengths as `size_t` has them. -/
def sourceCopies (bufOrig : Str) : Except Fault (Option (Str × Str)) :=
  match memchr bufOrig 33 with
  | none => .ok none
  | some nickEnd =>
    let nickLen := nickLen bufOrig (bufOrig.drop nickEnd)
    if bufOrig.length < 1 + nickLen.toNat then .error .outOfBounds
    else
      match memchr bufOrig 32 with
      | none => .ok none
      | some maskEnd =>
        let maskLen := maskLen bufOrig (bufOrig.drop maskEnd) nickLen
        if bufOrig.length < nickLen.toNat + 2 + maskLen.toNat then .error .outOfBounds
        else
          .ok (some ((bufOrig.drop 1).take nickLen.toNat,
            (bufOrig.drop (nickLen.toNat + 2)).take maskLen.toNat))

/-- A length that is the difference it was computed as, `exact`, and a
copied range that lies inside the line. -/
structure CopySafe (bufOrig : Str) (start : Nat) (len : SizeT) (exact : Int) : Prop where
  noWrap : (len.toNat : Int) = exact
  inside : start + len.toNat ≤ bufOrig.length

/-- Both copies are, as far as they are made. -/
def SourceSafe (bufOrig : Str) : Prop :=
  ∀ nickEnd, memchr bufOrig 33 = some nickEnd →
    CopySafe bufOrig 1 (nickLen bufOrig (bufOrig.drop nickEnd))
        (bufOrig.length - (bufOrig.drop nickEnd).length - 1) ∧
      ∀ maskEnd, memchr bufOrig 32 = some maskEnd →
        CopySafe bufOrig ((nickLen bufOrig (bufOrig.drop nickEnd)).toNat + 2)
          (maskLen bufOrig (bufOrig.drop maskEnd) (nickLen bufOrig (bufOrig.drop nickEnd)))
          (bufOrig.length - (bufOrig.drop maskEnd).length -
            (nickLen bufOrig (bufOrig.drop nickEnd)).toNat - 2)

section Lengths

variable {bufOrig : Str} {nickEnd maskEnd : Nat}

theorem strlen_sub (hfits : bufOrig.length < 1024) (hle : nickEnd ≤ bufOrig.length) :
    strlen bufOrig - strlen (bufOrig.drop nickEnd) = BitVec.ofNat 64 nickEnd := by
  unfold strlen
  rw [List.length_drop]
  bv_omega

theorem nickLen_toNat (hfits : bufOrig.length < 1024) (hle : nickEnd ≤ bufOrig.length) :
    (nickLen bufOrig (bufOrig.drop nickEnd)).toNat =
      if nickEnd = 0 then 0xffffffffffffffff else nickEnd - 1 := by
  unfold nickLen
  rw [strlen_sub hfits hle]
  split
  · bv_omega
  · bv_omega

theorem maskLen_toNat (hfits : bufOrig.length < 1024) (hnick : 0 < nickEnd)
    (hnickLe : nickEnd ≤ bufOrig.length) (hle : maskEnd ≤ bufOrig.length) :
    (maskLen bufOrig (bufOrig.drop maskEnd) (nickLen bufOrig (bufOrig.drop nickEnd))).toNat =
      if nickEnd < maskEnd then maskEnd - nickEnd - 1
      else 0x10000000000000000 + maskEnd - nickEnd - 1 := by
  unfold maskLen nickLen
  rw [strlen_sub hfits hle, strlen_sub hfits hnickLe]
  split
  · bv_omega
  · bv_omega

theorem memchr_le {c : UInt8} {i : Nat} (h : memchr bufOrig c = some i) : i < bufOrig.length := by
  obtain ⟨a, b, rfl, -, rfl⟩ := of_memchr_some h
  simp

/-- Read over `Nat` as `size_t` differences that do not wrap, and a fault for those that do. -/
theorem sourceCopies_eq (hfits : bufOrig.length < 1024) :
    sourceCopies bufOrig = chanEventSource bufOrig := by
  unfold sourceCopies chanEventSource
  cases hnick : memchr bufOrig 33 with
  | none => rfl
  | some nickEnd =>
      have hnickLt := memchr_le hnick
      simp only [nickLen_toNat hfits hnickLt.le]
      by_cases hzero : nickEnd = 0
      · rw [if_pos hzero, if_pos hzero, if_pos (by omega)]
      · rw [if_neg hzero, if_neg hzero, if_neg (by omega)]
        cases hmask : memchr bufOrig 32 with
        | none => rfl
        | some maskEnd =>
            have hmaskLt := memchr_le hmask
            simp only [maskLen_toNat hfits (Nat.pos_of_ne_zero hzero) hnickLt.le hmaskLt.le]
            by_cases horder : nickEnd < maskEnd
            · rw [if_pos horder, if_neg (by omega), if_neg (by omega)]
              have hstart : nickEnd - 1 + 2 = nickEnd + 1 := by omega
              rw [hstart]
            · rw [if_neg horder, if_pos (by omega), if_pos (by omega)]

theorem copySafe_nick (hfits : bufOrig.length < 1024) (hnick : nickEnd < bufOrig.length) :
    CopySafe bufOrig 1 (nickLen bufOrig (bufOrig.drop nickEnd))
      (bufOrig.length - (bufOrig.drop nickEnd).length - 1) ↔ 0 < nickEnd := by
  have hlen := nickLen_toNat hfits hnick.le
  have hdrop := List.length_drop (i := nickEnd) (l := bufOrig)
  constructor
  · rintro ⟨hwrap, -⟩
    split at hlen <;> omega
  · intro hpos
    rw [if_neg (by omega)] at hlen
    exact ⟨by omega, by omega⟩

theorem copySafe_mask (hfits : bufOrig.length < 1024) (hpos : 0 < nickEnd)
    (hnick : nickEnd < bufOrig.length) (hmask : maskEnd < bufOrig.length) :
    CopySafe bufOrig ((nickLen bufOrig (bufOrig.drop nickEnd)).toNat + 2)
      (maskLen bufOrig (bufOrig.drop maskEnd) (nickLen bufOrig (bufOrig.drop nickEnd)))
      (bufOrig.length - (bufOrig.drop maskEnd).length -
        (nickLen bufOrig (bufOrig.drop nickEnd)).toNat - 2) ↔ nickEnd < maskEnd := by
  have hnickLen := nickLen_toNat hfits hnick.le
  rw [if_neg (by omega)] at hnickLen
  have hlen := maskLen_toNat hfits hpos hnick.le hmask.le
  have hdrop := List.length_drop (i := maskEnd) (l := bufOrig)
  constructor
  · rintro ⟨hwrap, -⟩
    split at hlen <;> omega
  · intro horder
    rw [if_pos horder] at hlen
    exact ⟨by omega, by omega⟩

/-- What it takes, by the places of the two bytes. -/
theorem sourceSafe_iff_places (hfits : bufOrig.length < 1024) :
    SourceSafe bufOrig ↔ ∀ nickEnd, memchr bufOrig 33 = some nickEnd →
      0 < nickEnd ∧ ∀ maskEnd, memchr bufOrig 32 = some maskEnd → nickEnd < maskEnd := by
  refine forall_congr' fun nickEnd => imp_congr_right fun hnick => ?_
  rw [copySafe_nick hfits (memchr_le hnick)]
  refine and_congr_right fun hpos => forall_congr' fun maskEnd => imp_congr_right fun hmask => ?_
  exact copySafe_mask hfits hpos (memchr_le hnick) (memchr_le hmask)

/-- The run faults where a copy is not safe. -/
theorem sourceSafe_iff_ok (hfits : bufOrig.length < 1024) :
    SourceSafe bufOrig ↔ ∃ source, chanEventSource bufOrig = .ok source := by
  rw [sourceSafe_iff_places hfits]
  unfold chanEventSource
  cases memchr bufOrig 33 with
  | none => simp
  | some nickEnd =>
      cases memchr bufOrig 32 with
      | none =>
          by_cases hzero : nickEnd = 0 <;> simp [hzero, Nat.pos_iff_ne_zero]
      | some maskEnd =>
          by_cases hzero : nickEnd = 0
          · simp [hzero]
          · by_cases horder : maskEnd ≤ nickEnd
            · simp [hzero, horder]
            · simp [hzero, horder, Nat.pos_iff_ne_zero]
              omega

end Lengths

/-! ## Which lines -/

/-- `get_chan_event` gets to the nick and the hostmask. -/
def ReachesSource (w : World) (srv : Nat) (line : Str) : Prop :=
  (∃ record, w.servers[srv]? = some record ∧ record.motdSent ≠ 0) ∧
    20 ≤ line.length ∧ line.length < 1024 ∧
    ∃ first event params, tokens isSpace line = first :: ChanEvent.word event :: params

/-- The lengths do not wrap and the copies stay inside the line if and only
if the line has no `!`, or its first one is not the first byte and comes
before the first blank. -/
theorem sourceSafe_iff {w : World} {srv : Nat} {line : Str} (h : ReachesSource w srv line) :
    SourceSafe line ↔
      33 ∉ line ∨ ∃ a b, line = a ++ 33 :: b ∧ a ≠ [] ∧ 33 ∉ a ∧ 32 ∉ a := by
  obtain ⟨-, -, hfits, first, event, params, hwords⟩ := h
  have hblank : 32 ∈ line := by
    by_contra hnot
    rw [tokens_of_forall_not (isSpace_of_not_mem hnot)] at hwords
    split at hwords <;> simp at hwords
  rw [sourceSafe_iff_places hfits]
  constructor
  · intro hplaces
    by_cases hbang : 33 ∈ line
    · obtain ⟨a, b, rfl, ha⟩ := List.eq_append_cons_of_mem hbang
      obtain ⟨hpos, horder⟩ := hplaces a.length (memchr_append ha b)
      refine Or.inr ⟨a, b, rfl, List.length_pos_iff.mp hpos, ha, fun hmem => ?_⟩
      -- a blank in front of the `!` would be the first one
      obtain ⟨a₁, a₂, rfl, ha₁⟩ := List.eq_append_cons_of_mem hmem
      have hfirst : memchr (a₁ ++ 32 :: a₂ ++ 33 :: b) 32 = some a₁.length := by
        rw [List.append_assoc]
        exact memchr_append ha₁ _
      have hlt := horder a₁.length hfirst
      rw [List.length_append, List.length_cons] at hlt
      omega
    · exact Or.inl hbang
  · rintro (hbang | ⟨a, b, rfl, hne, ha, hfree⟩) nickEnd hnick
    · rw [memchr_eq_none.mpr hbang] at hnick
      cases hnick
    · obtain rfl : a.length = nickEnd := Option.some.inj ((memchr_append ha b).symm.trans hnick)
      refine ⟨List.length_pos_iff.mpr hne, fun maskEnd hmask => ?_⟩
      obtain ⟨b₁, b₂, rfl, hb₁⟩ : ∃ b₁ b₂, b = b₁ ++ 32 :: b₂ ∧ 32 ∉ b₁ := by
        refine List.eq_append_cons_of_mem ?_
        simpa [hfree] using hblank
      have hfirst : memchr (a ++ 33 :: (b₁ ++ 32 :: b₂)) 32 = some (a ++ 33 :: b₁).length := by
        have happ : a ++ 33 :: (b₁ ++ 32 :: b₂) = (a ++ 33 :: b₁) ++ 32 :: b₂ := by simp
        rw [happ]
        exact memchr_append (by simp [hfree, hb₁]) b₂
      obtain rfl := Option.some.inj (hfirst.symm.trans hmask)
      simp only [List.length_append, List.length_cons]
      omega

/-- `:joona!~j@host KICK #chan bob :bye`. -/
theorem sourceSafe_iff_sample :
    SourceSafe (ascii ":joona!~j@host KICK #chan bob :bye") ↔
      33 ∉ ascii ":joona!~j@host KICK #chan bob :bye" ∨
      ∃ a b, ascii ":joona!~j@host KICK #chan bob :bye" = a ++ 33 :: b ∧ a ≠ [] ∧ 33 ∉ a ∧
        32 ∉ a := by
  have hwords : tokens isSpace (ascii ":joona!~j@host KICK #chan bob :bye") =
      ascii ":joona!~j@host" :: ChanEvent.kick.word ::
        [ascii "#chan", ascii "bob", ascii ":bye"] := by decide +kernel
  have hreaches : ReachesSource welcomedWorld 0 (ascii ":joona!~j@host KICK #chan bob :bye") :=
    ⟨⟨welcomedServer, rfl, by decide⟩, by decide, by decide, _, _, _, hwords⟩
  exact sourceSafe_iff hreaches

/-- A server kicks somebody, with a `!` in the reason: the mask is
2⁶⁴ − 21 bytes long. -/
theorem not_sourceSafe :
    ReachesSource welcomedWorld 0 (ascii ":irc.net KICK #chan bob :bye!") ∧
      ¬ SourceSafe (ascii ":irc.net KICK #chan bob :bye!") := by
  have hwords : tokens isSpace (ascii ":irc.net KICK #chan bob :bye!") =
      ascii ":irc.net" :: ChanEvent.kick.word ::
        [ascii "#chan", ascii "bob", ascii ":bye!"] := by decide +kernel
  refine ⟨⟨⟨welcomedServer, rfl, by decide⟩, by decide, by decide, _, _, _, hwords⟩, ?_⟩
  intro hsafe
  have hnick : memchr (ascii ":irc.net KICK #chan bob :bye!") 33 = some 28 := by decide +kernel
  have hmask : memchr (ascii ":irc.net KICK #chan bob :bye!") 32 = some 8 := by decide +kernel
  have hwrap := ((hsafe 28 hnick).2 8 hmask).noWrap
  revert hwrap
  decide +kernel

end Bcirc
