/-
UTF-8 as a format. The front of some bytes is a character exactly when the bytes begin with its
encoding (`front_char`, `front_encodeChar`): so what is read is never cut short, overlong or a
surrogate, and the reading with replacements (`decodeLossy_read`) gives the characters that stand
there and U+FFFD in place of stretches that no character begins with.
-/
import Maintainability.Text.Utf8

namespace Maintainability.Utf8

/-! ## Bytes -/

theorem toNat_byte {n : Nat} (h : n < 256) : n.toUInt8.toNat = n := UInt8.toNat_ofNat_of_lt' h

theorem byte_eq {b : UInt8} {n : Nat} (h : n = b.toNat) : n.toUInt8 = b := by
  rw [h]
  exact UInt8.ofNat_toNat

theorem isTail_iff {b : UInt8} : isTail b = true ↔ 0x80 ≤ b.toNat ∧ b.toNat ≤ 0xBF := by
  simp [isTail, UInt8.le_iff_toNat_le]

/-- A second byte is a continuation byte; after four of the first bytes its range is narrower. -/
theorem isSecond_iff {b c : UInt8} : isSecond b c = true ↔
    (0x80 ≤ c.toNat ∧ c.toNat ≤ 0xBF) ∧ (b.toNat = 0xE0 → 0xA0 ≤ c.toNat) ∧ (b.toNat = 0xED → c.toNat ≤ 0x9F) ∧
      (b.toNat = 0xF0 → 0x90 ≤ c.toNat) ∧ (b.toNat = 0xF4 → c.toNat ≤ 0x8F) := by
  simp only [isSecond, secondRange, ← UInt8.toNat_inj, Bool.and_eq_true, decide_eq_true_eq,
    UInt8.le_iff_toNat_le, UInt8.reduceToNat]
  repeat' split
  all_goals simp only [UInt8.reduceToNat]; omega

/-! ## Characters -/

/-- The numbers of characters: all code points but the surrogates. -/
theorem toNat_valid (c : Char) : c.toNat < 0xD800 ∨ 0xDFFF < c.toNat ∧ c.toNat < 0x110000 := c.valid

theorem toNat_ofNat {n : Nat} (h : n < 0xD800 ∨ 0xDFFF < n ∧ n < 0x110000) : (Char.ofNat n).toNat = n := by
  have hv : n.isValidChar := h
  rw [Char.ofNat, dif_pos hv]
  rfl

theorem encodeChar_one {c : Char} (h : c.toNat < 0x80) : encodeChar c = [c.toNat.toUInt8] := by
  simp [encodeChar, h]

theorem encodeChar_two {c : Char} (h : 0x80 ≤ c.toNat) (h' : c.toNat < 0x800) :
    encodeChar c = [(0xC0 + c.toNat / 64).toUInt8, (0x80 + c.toNat % 64).toUInt8] := by
  simp only [encodeChar, if_neg (Nat.not_lt.2 h), if_pos h']

theorem encodeChar_three {c : Char} (h : 0x800 ≤ c.toNat) (h' : c.toNat < 0x10000) :
    encodeChar c = [(0xE0 + c.toNat / 4096).toUInt8, (0x80 + c.toNat / 64 % 64).toUInt8,
      (0x80 + c.toNat % 64).toUInt8] := by
  have h1 : ¬ c.toNat < 0x80 := by omega
  simp only [encodeChar, if_neg h1, if_neg (Nat.not_lt.2 h), if_pos h']

theorem encodeChar_four {c : Char} (h : 0x10000 ≤ c.toNat) :
    encodeChar c = [(0xF0 + c.toNat / 262144).toUInt8, (0x80 + c.toNat / 4096 % 64).toUInt8,
      (0x80 + c.toNat / 64 % 64).toUInt8, (0x80 + c.toNat % 64).toUInt8] := by
  have h1 : ¬ c.toNat < 0x80 := by omega
  have h2 : ¬ c.toNat < 0x800 := by omega
  simp only [encodeChar, if_neg h1, if_neg h2, if_neg (Nat.not_lt.2 h)]

/-! ## The front of some bytes -/

/-- The bytes of a character of one byte; likewise below for two, three and four. -/
theorem encodeChar_read_one {b : UInt8} (hb : b.toNat < 0x80) : encodeChar (Char.ofNat b.toNat) = [b] := by
  have hn := toNat_ofNat (n := b.toNat) (by omega)
  rw [encodeChar_one (by omega), byte_eq hn]

theorem encodeChar_read_two {b c : UInt8} (hb : 0xC2 ≤ b.toNat) (hb' : b.toNat < 0xE0) (hc : isTail c = true) :
    encodeChar (Char.ofNat (b.toNat % 32 * 64 + c.toNat % 64)) = [b, c] := by
  obtain ⟨h1, h1'⟩ := isTail_iff.1 hc
  have hn := toNat_ofNat (n := b.toNat % 32 * 64 + c.toNat % 64) (by omega)
  rw [encodeChar_two (by omega) (by omega), hn, byte_eq (b := b) (by omega), byte_eq (b := c) (by omega)]

theorem encodeChar_read_three {b c d : UInt8} (hb : 0xE0 ≤ b.toNat) (hb' : b.toNat < 0xF0)
    (hc : isSecond b c = true) (hd : isTail d = true) :
    encodeChar (Char.ofNat (b.toNat % 16 * 4096 + c.toNat % 64 * 64 + d.toNat % 64)) = [b, c, d] := by
  obtain ⟨⟨h1, h1'⟩, hlow, hhigh, -⟩ := isSecond_iff.1 hc
  obtain ⟨h2, h2'⟩ := isTail_iff.1 hd
  have hn := toNat_ofNat (n := b.toNat % 16 * 4096 + c.toNat % 64 * 64 + d.toNat % 64) (by omega)
  rw [encodeChar_three (by omega) (by omega), hn, byte_eq (b := b) (by omega), byte_eq (b := c) (by omega),
    byte_eq (b := d) (by omega)]

theorem encodeChar_read_four {b c d e : UInt8} (hb : 0xF0 ≤ b.toNat) (hb' : b.toNat < 0xF5)
    (hc : isSecond b c = true) (hd : isTail d = true) (he : isTail e = true) :
    encodeChar (Char.ofNat (b.toNat % 8 * 262144 + c.toNat % 64 * 4096 + d.toNat % 64 * 64 + e.toNat % 64)) =
      [b, c, d, e] := by
  obtain ⟨⟨h1, h1'⟩, -, -, hlow, hhigh⟩ := isSecond_iff.1 hc
  obtain ⟨h2, h2'⟩ := isTail_iff.1 hd
  obtain ⟨h3, h3'⟩ := isTail_iff.1 he
  have hn := toNat_ofNat
    (n := b.toNat % 8 * 262144 + c.toNat % 64 * 4096 + d.toNat % 64 * 64 + e.toNat % 64) (by omega)
  rw [encodeChar_four (by omega), hn, byte_eq (b := b) (by omega), byte_eq (b := c) (by omega),
    byte_eq (b := d) (by omega), byte_eq (b := e) (by omega)]

/-- Where a character is read, its encoding stands. -/
theorem front_char {b : UInt8} {rest : List UInt8} {c : Char} {w : Nat} :
    front b rest = .char c w → b :: rest = encodeChar c ++ rest.drop (w - 1) := by
  fun_cases front b rest
  -- a fault is no character; four cases are left, one for each width
  all_goals rintro ⟨⟩
  all_goals
    simp only [UInt8.lt_iff_toNat_lt, UInt8.reduceToNat, Nat.not_lt, Bool.not_eq_true', Bool.not_eq_false] at *
  · next hb => rw [encodeChar_read_one hb]; rfl
  · next c _ hc _ hb hb' => rw [encodeChar_read_two hb hb' hc]; rfl
  · next c d _ hd _ _ hb hb' hc => rw [encodeChar_read_three hb hb' hc hd]; rfl
  · next c d e _ he _ _ _ hb hb' hc hd => rw [encodeChar_read_four hb hb' hc hd he]; rfl

theorem front_one {b : UInt8} (hb : b.toNat < 0x80) (rest : List UInt8) :
    front b rest = .char (Char.ofNat b.toNat) 1 := by
  simp [front, UInt8.lt_iff_toNat_lt, hb]

theorem front_two {b c : UInt8} (hb : 0xC2 ≤ b.toNat) (hb' : b.toNat < 0xE0) (hc : isTail c = true)
    (rest : List UInt8) :
    front b (c :: rest) = .char (Char.ofNat (b.toNat % 32 * 64 + c.toNat % 64)) 2 := by
  have h1 : ¬ b.toNat < 0x80 := by omega
  simp [front, UInt8.lt_iff_toNat_lt, h1, Nat.not_lt.2 hb, hb', hc]

theorem front_three {b c d : UInt8} (hb : 0xE0 ≤ b.toNat) (hb' : b.toNat < 0xF0) (hc : isSecond b c = true)
    (hd : isTail d = true) (rest : List UInt8) :
    front b (c :: d :: rest) =
      .char (Char.ofNat (b.toNat % 16 * 4096 + c.toNat % 64 * 64 + d.toNat % 64)) 3 := by
  have h1 : ¬ b.toNat < 0x80 := by omega
  have h2 : ¬ b.toNat < 0xC2 := by omega
  simp [front, UInt8.lt_iff_toNat_lt, h1, h2, Nat.not_lt.2 hb, hb', hc, hd]

theorem front_four {b c d e : UInt8} (hb : 0xF0 ≤ b.toNat) (hb' : b.toNat < 0xF5) (hc : isSecond b c = true)
    (hd : isTail d = true) (he : isTail e = true) (rest : List UInt8) :
    front b (c :: d :: e :: rest) =
      .char (Char.ofNat (b.toNat % 8 * 262144 + c.toNat % 64 * 4096 + d.toNat % 64 * 64 + e.toNat % 64)) 4 := by
  have h1 : ¬ b.toNat < 0x80 := by omega
  have h2 : ¬ b.toNat < 0xC2 := by omega
  have h3 : ¬ b.toNat < 0xE0 := by omega
  simp [front, UInt8.lt_iff_toNat_lt, h1, h2, h3, Nat.not_lt.2 hb, hb', hc, hd, he]

theorem isTail_low (n : Nat) : isTail (0x80 + n % 64).toUInt8 = true := by
  have h := toNat_byte (n := 0x80 + n % 64) (by omega)
  exact isTail_iff.2 (by omega)

/-- Where the encoding of a character stands, the character is read. -/
theorem front_encodeChar (c : Char) (rest : List UInt8) :
    ∃ b tail, encodeChar c = b :: tail ∧ front b (tail ++ rest) = .char c (tail.length + 1) := by
  -- by the width; in each case the payloads of the bytes make up the number of the character again
  have hn := toNat_valid c
  by_cases h1 : c.toNat < 0x80
  · have hb := toNat_byte (n := c.toNat) (by omega)
    refine ⟨_, _, encodeChar_one h1, ?_⟩
    rw [front_one (by omega), hb, Char.ofNat_toNat]
    rfl
  by_cases h2 : c.toNat < 0x800
  · have hb := toNat_byte (n := 0xC0 + c.toNat / 64) (by omega)
    have hlow := toNat_byte (n := 0x80 + c.toNat % 64) (by omega)
    have hall : (0xC0 + c.toNat / 64) % 32 * 64 + (0x80 + c.toNat % 64) % 64 = c.toNat := by omega
    refine ⟨_, _, encodeChar_two (by omega) h2, ?_⟩
    rw [List.singleton_append, front_two (by omega) (by omega) (isTail_low _), hb, hlow, hall, Char.ofNat_toNat]
    rfl
  by_cases h3 : c.toNat < 0x10000
  · have hb := toNat_byte (n := 0xE0 + c.toNat / 4096) (by omega)
    have hmid := toNat_byte (n := 0x80 + c.toNat / 64 % 64) (by omega)
    have hlow := toNat_byte (n := 0x80 + c.toNat % 64) (by omega)
    have hall : (0xE0 + c.toNat / 4096) % 16 * 4096 + (0x80 + c.toNat / 64 % 64) % 64 * 64 +
        (0x80 + c.toNat % 64) % 64 = c.toNat := by omega
    refine ⟨_, _, encodeChar_three (by omega) h3, ?_⟩
    rw [List.cons_append, List.singleton_append,
      front_three (by omega) (by omega) (isSecond_iff.2 (by omega)) (isTail_low _), hb, hmid, hlow, hall,
      Char.ofNat_toNat]
    rfl
  · have hb := toNat_byte (n := 0xF0 + c.toNat / 262144) (by omega)
    have hhigh := toNat_byte (n := 0x80 + c.toNat / 4096 % 64) (by omega)
    have hmid := toNat_byte (n := 0x80 + c.toNat / 64 % 64) (by omega)
    have hlow := toNat_byte (n := 0x80 + c.toNat % 64) (by omega)
    have hall : (0xF0 + c.toNat / 262144) % 8 * 262144 + (0x80 + c.toNat / 4096 % 64) % 64 * 4096 +
        (0x80 + c.toNat / 64 % 64) % 64 * 64 + (0x80 + c.toNat % 64) % 64 = c.toNat := by omega
    refine ⟨_, _, encodeChar_four (by omega), ?_⟩
    rw [List.cons_append, List.cons_append, List.singleton_append,
      front_four (by omega) (by omega) (isSecond_iff.2 (by omega)) (isTail_low _) (isTail_low _), hb, hhigh,
      hmid, hlow, hall, Char.ofNat_toNat]
    rfl

/-- Where a fault is found, no encoding stands. -/
theorem front_fault {b : UInt8} {rest : List UInt8} {why : Fault} {w : Nat} (h : front b rest = .fault why w)
    (c : Char) : ¬ encodeChar c <+: b :: rest := by
  rintro ⟨more, hmore⟩
  obtain ⟨b', tail, hc, hfront⟩ := front_encodeChar c more
  rw [hc, List.cons_append, List.cons.injEq] at hmore
  rw [hmore.1, hmore.2, h] at hfront
  cases hfront

/-! ## Reading with replacements -/

/-- Bytes read with replacements: the characters whose encodings stand there, and U+FFFD for every
stretch that no encoding begins. -/
inductive Read : List UInt8 → List Char → Prop
  | done : Read [] []
  | char {bytes : List UInt8} {cs : List Char} (c : Char) (rest : Read bytes cs) :
      Read (encodeChar c ++ bytes) (c :: cs)
  | stretch {bytes : List UInt8} {cs : List Char} (found : List UInt8) (nonempty : found ≠ [])
      (illFormed : ∀ c, ¬ encodeChar c <+: found ++ bytes) (rest : Read bytes cs) :
      Read (found ++ bytes) ('\uFFFD' :: cs)

theorem decodeLossy_read (bytes : List UInt8) : Read bytes (decodeLossy bytes) := by
  fun_induction decodeLossy bytes with
  | case1 => exact .done
  | case2 b rest c w h ih =>
    rw [front_char h]
    exact .char c ih
  | case3 b rest why w h ih =>
    have hsplit : b :: rest = (b :: rest.take (w - 1)) ++ rest.drop (w - 1) := by simp
    have hfault := front_fault h
    rw [hsplit] at hfault ⊢
    exact .stretch _ (by simp) hfault ih

end Maintainability.Utf8
