import Mathlib.Data.List.Basic

/-!
# UTF-8

`encode` is the encoding of a code point, surrogates included, and `first`
reads one back. Encodings are prefix-free, so a byte string is the encoding
of one text of characters at most (`encode_append_inj`), and it may be cut at
any ASCII byte (`of_text_eq_append_ascii`).
-/

namespace Utf8

abbrev Bytes := List UInt8

def encode (cp : Nat) : Bytes :=
  if cp ≤ 0x7F then [UInt8.ofNat cp]
  else if cp ≤ 0x7FF then [UInt8.ofNat (cp / 64 + 0xC0), UInt8.ofNat (cp % 64 + 0x80)]
  else if cp ≤ 0xFFFF then
    [UInt8.ofNat (cp / 4096 + 0xE0), UInt8.ofNat (cp / 64 % 64 + 0x80),
     UInt8.ofNat (cp % 64 + 0x80)]
  else
    [UInt8.ofNat (cp / 262144 + 0xF0), UInt8.ofNat (cp / 4096 % 64 + 0x80),
     UInt8.ofNat (cp / 64 % 64 + 0x80), UInt8.ofNat (cp % 64 + 0x80)]

/-- The first code point of a string, by the number of bytes its first byte
announces. -/
def first : Bytes → Option (Nat × Bytes)
  | [] => none
  | a :: s =>
      if a.toNat < 0x80 then some (a.toNat, s)
      else if a.toNat < 0xE0 then
        match s with
        | b :: s => some ((a.toNat - 0xC0) * 64 + (b.toNat - 0x80), s)
        | _ => none
      else if a.toNat < 0xF0 then
        match s with
        | b :: c :: s =>
            some ((a.toNat - 0xE0) * 4096 + (b.toNat - 0x80) * 64 + (c.toNat - 0x80), s)
        | _ => none
      else
        match s with
        | b :: c :: d :: s =>
            some ((a.toNat - 0xF0) * 262144 + (b.toNat - 0x80) * 4096 + (c.toNat - 0x80) * 64 +
              (d.toNat - 0x80), s)
        | _ => none

theorem toNat_ofNat {n : Nat} (h : n < 256) : (UInt8.ofNat n).toNat = n := by
  rw [UInt8.toNat_ofNat', Nat.mod_eq_of_lt h]

theorem first_encode {cp : Nat} (h : cp ≤ 0x10FFFF) (s : Bytes) :
    first (encode cp ++ s) = some (cp, s) := by
  unfold encode
  split
  · simp only [List.cons_append, List.nil_append, first]
    rw [toNat_ofNat (by omega), if_pos (by omega)]
  split
  · simp only [List.cons_append, List.nil_append, first]
    rw [toNat_ofNat (by omega), toNat_ofNat (by omega), if_neg (by omega), if_pos (by omega)]
    simp only [Option.some.injEq, Prod.mk.injEq, and_true]
    omega
  split
  · simp only [List.cons_append, List.nil_append, first]
    rw [toNat_ofNat (by omega), toNat_ofNat (by omega), toNat_ofNat (by omega),
      if_neg (by omega), if_neg (by omega), if_pos (by omega)]
    simp only [Option.some.injEq, Prod.mk.injEq, and_true]
    omega
  · simp only [List.cons_append, List.nil_append, first]
    rw [toNat_ofNat (by omega), toNat_ofNat (by omega), toNat_ofNat (by omega),
      toNat_ofNat (by omega), if_neg (by omega), if_neg (by omega), if_neg (by omega)]
    simp only [Option.some.injEq, Prod.mk.injEq, and_true]
    omega

/-- No encoding is the start of another one. -/
theorem encode_append_inj {a b : Nat} (ha : a ≤ 0x10FFFF) (hb : b ≤ 0x10FFFF) {s t : Bytes}
    (h : encode a ++ s = encode b ++ t) : a = b ∧ s = t := by
  have hfirst := first_encode ha s
  rw [h, first_encode hb t] at hfirst
  exact ⟨(Prod.mk.inj (Option.some.inj hfirst)).1.symm,
    (Prod.mk.inj (Option.some.inj hfirst)).2.symm⟩

theorem encode_ascii {cp : Nat} (h : cp ≤ 0x7F) : encode cp = [UInt8.ofNat cp] := by
  rw [encode, if_pos h]

theorem le_of_mem_encode {cp : Nat} (hcp : 0x7F < cp) (h : cp ≤ 0x10FFFF) {b : UInt8}
    (hb : b ∈ encode cp) : 0x80 ≤ b.toNat := by
  have hbyte : ∀ {n : Nat}, n < 256 → 0x80 ≤ n → 0x80 ≤ (UInt8.ofNat n).toNat := by
    intro n hn hle
    rwa [toNat_ofNat hn]
  unfold encode at hb
  rw [if_neg (by omega)] at hb
  split at hb
  · simp only [List.mem_cons, List.not_mem_nil, or_false] at hb
    rcases hb with rfl | rfl
    all_goals exact hbyte (by omega) (by omega)
  split at hb
  · simp only [List.mem_cons, List.not_mem_nil, or_false] at hb
    rcases hb with rfl | rfl | rfl
    all_goals exact hbyte (by omega) (by omega)
  · simp only [List.mem_cons, List.not_mem_nil, or_false] at hb
    rcases hb with rfl | rfl | rfl | rfl
    all_goals exact hbyte (by omega) (by omega)

/-! ## Text -/

theorem toNat_le (c : Char) : c.toNat ≤ 0x10FFFF := by
  rcases c.valid with h | ⟨-, h⟩
  · exact Nat.le_of_lt (Nat.lt_trans h (by decide))
  · exact Nat.le_of_lt_succ h

/-- The code points that are no characters. -/
def IsSurrogate (cp : Nat) : Prop := 0xD800 ≤ cp ∧ cp ≤ 0xDFFF

theorem not_surrogate (c : Char) : ¬ IsSurrogate c.toNat := by
  rintro ⟨hle, hge⟩
  rcases c.valid with h | ⟨h, -⟩
  · exact absurd hle (Nat.not_le_of_lt h)
  · exact absurd hge (Nat.not_le_of_lt h)

theorem exists_char {cp : Nat} (h : cp ≤ 0x10FFFF) (hnot : ¬ IsSurrogate cp) :
    ∃ c : Char, c.toNat = cp := by
  have hvalid : cp.isValidChar := by
    unfold IsSurrogate at hnot
    rcases Nat.lt_or_ge cp 0xD800 with hlt | hge
    · exact Or.inl hlt
    · exact Or.inr ⟨by omega, by omega⟩
  refine ⟨Char.ofNat cp, ?_⟩
  rw [Char.ofNat, dif_pos hvalid]
  rfl

theorem utf8EncodeChar_eq (c : Char) : String.utf8EncodeChar c = encode c.toNat := by
  have hle : c.val.toNat ≤ 0x10FFFF := toNat_le c
  show String.utf8EncodeChar c = encode c.val.toNat
  fun_cases String.utf8EncodeChar c with
  | case1 v h => rw [encode, if_pos h]
  | case2 v h h' =>
      rw [encode, if_neg h, if_pos h', Nat.mod_eq_of_lt (a := v / 64) (by omega)]
  | case3 v h h' h'' =>
      rw [encode, if_neg h, if_neg h', if_pos h'', Nat.mod_eq_of_lt (a := v / 4096) (by omega)]
  | case4 v h h' h'' =>
      rw [encode, if_neg h, if_neg h', if_neg h'',
        Nat.mod_eq_of_lt (a := v / 262144) (by omega)]

/-- The bytes of a text. -/
def text (cs : List Char) : Bytes := cs.flatMap String.utf8EncodeChar

@[simp] theorem text_nil : text [] = [] := rfl

theorem text_cons (c : Char) (cs : List Char) :
    text (c :: cs) = String.utf8EncodeChar c ++ text cs := rfl

/-- `s` is the encoding of a text. -/
def Valid (s : Bytes) : Prop := ∃ cs, s = text cs

theorem valid_nil : Valid [] := ⟨[], rfl⟩

/-- A character in front does not matter. -/
theorem valid_char_append_iff (c : Char) (s : Bytes) :
    Valid (String.utf8EncodeChar c ++ s) ↔ Valid s := by
  constructor
  · rintro ⟨ds, hds⟩
    cases ds with
    | nil =>
        have hfirst := first_encode (toNat_le c) s
        rw [← utf8EncodeChar_eq, hds] at hfirst
        cases hfirst
    | cons d ds =>
        rw [text_cons, utf8EncodeChar_eq, utf8EncodeChar_eq] at hds
        exact ⟨ds, (encode_append_inj (toNat_le c) (toNat_le d) hds).2⟩
  · rintro ⟨cs, rfl⟩
    exact ⟨c :: cs, (text_cons c cs).symm⟩

theorem valid_char (c : Char) : Valid (String.utf8EncodeChar c) :=
  ⟨[c], (List.append_nil _).symm⟩

/-- No text starts with a surrogate. -/
theorem not_valid_surrogate {cp : Nat} (h : IsSurrogate cp) (s : Bytes) :
    ¬ Valid (encode cp ++ s) := by
  have hle : cp ≤ 0x10FFFF := Nat.le_trans h.2 (by decide)
  rintro ⟨cs, hcs⟩
  cases cs with
  | nil =>
      have hfirst := first_encode hle s
      rw [hcs] at hfirst
      cases hfirst
  | cons c cs =>
      rw [text_cons, utf8EncodeChar_eq] at hcs
      obtain ⟨rfl, -⟩ := encode_append_inj hle (toNat_le c) hcs
      exact not_surrogate c h

theorem valid_encode_iff {cp : Nat} (h : cp ≤ 0x10FFFF) :
    Valid (encode cp) ↔ ¬ IsSurrogate cp := by
  constructor
  · intro hvalid hsurrogate
    rw [← List.append_nil (encode cp)] at hvalid
    exact not_valid_surrogate hsurrogate [] hvalid
  · intro hnot
    obtain ⟨c, rfl⟩ := exists_char h hnot
    rw [← utf8EncodeChar_eq]
    exact valid_char c

/-- What is encoded on its own is a text when each part is one. -/
theorem valid_encode_append_iff {cp : Nat} (h : cp ≤ 0x10FFFF) (s : Bytes) :
    Valid (encode cp ++ s) ↔ ¬ IsSurrogate cp ∧ Valid s := by
  by_cases hcp : IsSurrogate cp
  · exact iff_of_false (not_valid_surrogate hcp s) fun hboth => hboth.1 hcp
  · obtain ⟨c, rfl⟩ := exists_char h hcp
    rw [← utf8EncodeChar_eq, valid_char_append_iff]
    exact (and_iff_right hcp).symm

/-- A text may be cut at an ASCII byte, which is a character of it. -/
theorem of_text_eq_append_ascii {cs : List Char} {a b : Bytes} {c : UInt8}
    (hc : c.toNat < 0x80) (h : text cs = a ++ c :: b) :
    ∃ cs₁ d cs₂, cs = cs₁ ++ d :: cs₂ ∧ a = text cs₁ ∧ String.utf8EncodeChar d = [c] ∧
      b = text cs₂ := by
  induction cs generalizing a with
  | nil => simp at h
  | cons d cs ih =>
      rw [text_cons] at h
      rcases List.append_eq_append_iff.mp h with ⟨a', rfl, hrest⟩ | ⟨e, hd, hrest⟩
      · obtain ⟨cs₁, d', cs₂, rfl, rfl, hd', rfl⟩ := ih hrest
        exact ⟨d :: cs₁, d', cs₂, rfl, (text_cons d cs₁).symm, hd', rfl⟩
      · cases e with
        | nil =>
            obtain ⟨cs₁, d', cs₂, rfl, ha', hd', rfl⟩ := ih (a := []) hrest.symm
            rw [List.append_nil] at hd
            refine ⟨d :: cs₁, d', cs₂, rfl, ?_, hd', rfl⟩
            rw [text_cons, ← ha', hd, List.append_nil]
        | cons c' e =>
            obtain ⟨rfl, rfl⟩ := List.cons.inj hrest
            -- the byte is inside `d`, so `d` is that byte
            have hmem : c ∈ encode d.toNat := by
              rw [← utf8EncodeChar_eq, hd]
              exact List.mem_append_right a List.mem_cons_self
            have hascii : d.toNat ≤ 0x7F := by
              by_contra hlarge
              have hle := le_of_mem_encode (by omega) (toNat_le d) hmem
              omega
            have hone := utf8EncodeChar_eq d
            rw [encode_ascii hascii, hd] at hone
            have hlen := congrArg List.length hone
            rw [List.length_append, List.length_cons, List.length_singleton] at hlen
            obtain rfl : a = [] := List.eq_nil_of_length_eq_zero (by omega)
            obtain rfl : e = [] := List.eq_nil_of_length_eq_zero (by omega)
            exact ⟨[], d, cs, rfl, rfl, hd, rfl⟩

/-! ## Tests of bytes -/

/-- A test of bytes that only ASCII fails, and the same test of characters. -/
structure ByteTest (p : UInt8 → Bool) (q : Char → Bool) : Prop where
  ascii : ∀ c : Char, c.toNat ≤ 0x7F → p (UInt8.ofNat c.toNat) = q c
  beyond : ∀ c : Char, 0x7F < c.toNat → q c = true
  high : ∀ b : UInt8, 0x80 ≤ b.toNat → p b = true

section ByteTest

variable {p : UInt8 → Bool} {q : Char → Bool}

/-- A character passes with all its bytes, or is a byte that fails. -/
theorem ByteTest.char (h : ByteTest p q) (c : Char) :
    (q c = true ∧ ∀ b ∈ String.utf8EncodeChar c, p b = true) ∨
      (q c = false ∧ ∃ b, String.utf8EncodeChar c = [b] ∧ p b = false) := by
  rw [utf8EncodeChar_eq]
  by_cases hascii : c.toNat ≤ 0x7F
  · rw [encode_ascii hascii, ← h.ascii c hascii]
    cases hp : p (UInt8.ofNat c.toNat) with
    | true => exact Or.inl ⟨rfl, by simpa using hp⟩
    | false => exact Or.inr ⟨rfl, _, rfl, hp⟩
  · have hlarge : 0x7F < c.toNat := Nat.lt_of_not_le hascii
    exact Or.inl ⟨h.beyond c hlarge, fun b hb =>
      h.high b (le_of_mem_encode hlarge (toNat_le c) hb)⟩

theorem ByteTest.filter_text (h : ByteTest p q) (cs : List Char) :
    (text cs).filter p = text (cs.filter q) := by
  induction cs with
  | nil => rfl
  | cons c cs ih =>
      rw [text_cons, List.filter_append, ih]
      rcases h.char c with ⟨hq, hall⟩ | ⟨hq, b, hb, hp⟩
      · rw [List.filter_cons_of_pos hq, text_cons, List.filter_eq_self.mpr hall]
      · rw [List.filter_cons_of_neg (by rw [hq]; exact Bool.false_ne_true), hb,
          List.filter_cons_of_neg (by rw [hp]; exact Bool.false_ne_true)]
        rfl

theorem ByteTest.takeWhile_text (h : ByteTest p q) (cs : List Char) :
    (text cs).takeWhile p = text (cs.takeWhile q) := by
  induction cs with
  | nil => rfl
  | cons c cs ih =>
      rw [text_cons]
      rcases h.char c with ⟨hq, hall⟩ | ⟨hq, b, hb, hp⟩
      · rw [List.takeWhile_append_of_pos hall, ih, List.takeWhile_cons_of_pos hq, text_cons]
      · rw [List.takeWhile_cons_of_neg (by rw [hq]; exact Bool.false_ne_true), hb,
          List.singleton_append,
          List.takeWhile_cons_of_neg (by rw [hp]; exact Bool.false_ne_true)]
        rfl

end ByteTest

end Utf8
