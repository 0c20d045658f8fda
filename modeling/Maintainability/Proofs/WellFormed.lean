/-
Well-formed UTF-8. The standard says which bytes are UTF-8 by a table of ranges, and `WellFormed`
is that table; nothing in it speaks of characters. The encodings of characters are the rows of the
table (`exists_row`, `exists_char`), so well-formed bytes are those that encode a list of characters
(`wellFormed_iff`), and reading gives that list (`decode_eq_ok`).

`unmarked` is what is left of some bytes without one byte order mark in front. The encoding of a text
begins with a mark only if its first character is U+FEFF (`unmarked_encode`), so no other text is
mistaken for a marked one.
-/
import Mathlib.Data.List.Forall2
import Maintainability.Proofs.Encoding
import Maintainability.Proofs.Hashing

namespace Maintainability.Utf8

/-! ## The table -/

/-- The range of a byte that is not the first of its character. -/
def tail : Nat × Nat := (0x80, 0xBF)

/-- The ranges of the bytes of one character, in order. The second byte has a narrower range where
the character would be overlong, a surrogate or beyond the last code point. -/
def table : List (List (Nat × Nat)) :=
  [[(0x00, 0x7F)],
    [(0xC2, 0xDF), tail],
    [(0xE0, 0xE0), (0xA0, 0xBF), tail],
    [(0xE1, 0xEC), tail, tail],
    [(0xED, 0xED), (0x80, 0x9F), tail],
    [(0xEE, 0xEF), tail, tail],
    [(0xF0, 0xF0), (0x90, 0xBF), tail, tail],
    [(0xF1, 0xF3), tail, tail, tail],
    [(0xF4, 0xF4), (0x80, 0x8F), tail, tail]]

/-- As many bytes as ranges, each in its range. -/
def Fits (row : List (Nat × Nat)) (bytes : List UInt8) : Prop :=
  List.Forall₂ (fun range b => range.1 ≤ b.toNat ∧ b.toNat ≤ range.2) row bytes

/-- Bytes that rows of the table make up. -/
inductive WellFormed : List UInt8 → Prop
  | nil : WellFormed []
  | char {row : List (Nat × Nat)} {seq rest : List UInt8} (listed : row ∈ table) (fits : Fits row seq)
      (h : WellFormed rest) : WellFormed (seq ++ rest)

theorem Fits.single {r : Nat × Nat} {seq : List UInt8} (h : Fits [r] seq) :
    ∃ b, seq = [b] ∧ r.1 ≤ b.toNat ∧ b.toNat ≤ r.2 := by
  cases h with
  | cons hb h => cases h; exact ⟨_, rfl, hb⟩

theorem Fits.uncons {r : Nat × Nat} {row : List (Nat × Nat)} {seq : List UInt8} (h : Fits (r :: row) seq) :
    ∃ b rest, seq = b :: rest ∧ (r.1 ≤ b.toNat ∧ b.toNat ≤ r.2) ∧ Fits row rest := by
  cases h with
  | cons hb h => exact ⟨_, _, rfl, hb, h⟩

/-- A row of the table is the encoding of a character. -/
theorem exists_char {row : List (Nat × Nat)} {seq : List UInt8} (hrow : row ∈ table) (h : Fits row seq) :
    ∃ c, seq = encodeChar c := by
  simp only [table, tail, List.mem_cons, List.not_mem_nil, or_false] at hrow
  rcases hrow with rfl | rfl | rfl | rfl | rfl | rfl | rfl | rfl | rfl
  · obtain ⟨b, rfl, -, hb⟩ := h.single
    exact ⟨_, (encodeChar_read_one (by omega)).symm⟩
  · obtain ⟨b, _, rfl, ⟨hb, hb'⟩, h⟩ := h.uncons
    obtain ⟨c, rfl, hc⟩ := h.single
    exact ⟨_, (encodeChar_read_two hb (by omega) (isTail_iff.2 hc)).symm⟩
  -- four rows of three bytes, then three of four; the ranges of a row make its second byte allowed
  iterate 4
    · obtain ⟨b, _, rfl, ⟨hb, hb'⟩, h⟩ := h.uncons
      obtain ⟨c, _, rfl, ⟨hc, hc'⟩, h⟩ := h.uncons
      obtain ⟨d, rfl, hd⟩ := h.single
      have hsecond : isSecond b c = true := isSecond_iff.2 (by omega)
      exact ⟨_, (encodeChar_read_three (by omega) (by omega) hsecond (isTail_iff.2 hd)).symm⟩
  iterate 3
    · obtain ⟨b, _, rfl, ⟨hb, hb'⟩, h⟩ := h.uncons
      obtain ⟨c, _, rfl, ⟨hc, hc'⟩, h⟩ := h.uncons
      obtain ⟨d, _, rfl, hd, h⟩ := h.uncons
      obtain ⟨e, rfl, he⟩ := h.single
      have hsecond : isSecond b c = true := isSecond_iff.2 (by omega)
      exact ⟨_, (encodeChar_read_four (by omega) (by omega) hsecond (isTail_iff.2 hd) (isTail_iff.2 he)).symm⟩

theorem fits_three {b c d : UInt8} (hb : 0xE0 ≤ b.toNat) (hb' : b.toNat < 0xF0) (hc : isSecond b c = true)
    (hd : isTail d = true) : ∃ row ∈ table, Fits row [b, c, d] := by
  have hd := isTail_iff.1 hd
  obtain ⟨hc, hE0, hED, -⟩ := isSecond_iff.1 hc
  by_cases h0 : b.toNat = 0xE0
  · exact ⟨[(0xE0, 0xE0), (0xA0, 0xBF), tail], by simp [table],
      .cons (by omega) (.cons (by omega) (.cons hd .nil))⟩
  by_cases h1 : b.toNat < 0xED
  · exact ⟨[(0xE1, 0xEC), tail, tail], by simp [table], .cons (by omega) (.cons hc (.cons hd .nil))⟩
  by_cases h2 : b.toNat = 0xED
  · exact ⟨[(0xED, 0xED), (0x80, 0x9F), tail], by simp [table],
      .cons (by omega) (.cons (by omega) (.cons hd .nil))⟩
  · exact ⟨[(0xEE, 0xEF), tail, tail], by simp [table], .cons (by omega) (.cons hc (.cons hd .nil))⟩

theorem fits_four {b c d e : UInt8} (hb : 0xF0 ≤ b.toNat) (hb' : b.toNat < 0xF5) (hc : isSecond b c = true)
    (hd : isTail d = true) (he : isTail e = true) : ∃ row ∈ table, Fits row [b, c, d, e] := by
  have hd := isTail_iff.1 hd
  have he := isTail_iff.1 he
  obtain ⟨hc, -, -, hF0, hF4⟩ := isSecond_iff.1 hc
  by_cases h0 : b.toNat = 0xF0
  · exact ⟨[(0xF0, 0xF0), (0x90, 0xBF), tail, tail], by simp [table],
      .cons (by omega) (.cons (by omega) (.cons hd (.cons he .nil)))⟩
  by_cases h1 : b.toNat < 0xF4
  · exact ⟨[(0xF1, 0xF3), tail, tail, tail], by simp [table],
      .cons (by omega) (.cons hc (.cons hd (.cons he .nil)))⟩
  · exact ⟨[(0xF4, 0xF4), (0x80, 0x8F), tail, tail], by simp [table],
      .cons (by omega) (.cons (by omega) (.cons hd (.cons he .nil)))⟩

/-- The encoding of a character is a row of the table. -/
theorem exists_row (c : Char) : ∃ row ∈ table, Fits row (encodeChar c) := by
  have hn := toNat_valid c
  by_cases h1 : c.toNat < 0x80
  · have hb := toNat_byte (n := c.toNat) (by omega)
    rw [encodeChar_one h1]
    exact ⟨[(0x00, 0x7F)], by simp [table], .cons (by omega) .nil⟩
  by_cases h2 : c.toNat < 0x800
  · have hb := toNat_byte (n := 0xC0 + c.toNat / 64) (by omega)
    rw [encodeChar_two (by omega) h2]
    exact ⟨[(0xC2, 0xDF), tail], by simp [table], .cons (by omega) (.cons (isTail_iff.1 (isTail_low _)) .nil)⟩
  by_cases h3 : c.toNat < 0x10000
  · have hb := toNat_byte (n := 0xE0 + c.toNat / 4096) (by omega)
    have hc := toNat_byte (n := 0x80 + c.toNat / 64 % 64) (by omega)
    rw [encodeChar_three (by omega) h3]
    exact fits_three (by omega) (by omega) (isSecond_iff.2 (by omega)) (isTail_low _)
  · have hb := toNat_byte (n := 0xF0 + c.toNat / 262144) (by omega)
    have hc := toNat_byte (n := 0x80 + c.toNat / 4096 % 64) (by omega)
    rw [encodeChar_four (by omega)]
    exact fits_four (by omega) (by omega) (isSecond_iff.2 (by omega)) (isTail_low _) (isTail_low _)

/-- Well-formed bytes are the encodings of lists of characters. -/
theorem wellFormed_iff {bytes : List UInt8} : WellFormed bytes ↔ ∃ cs, bytes = encode cs := by
  constructor
  · intro h
    induction h with
    | nil => exact ⟨[], rfl⟩
    | char hlisted hfits _ ih =>
      obtain ⟨c, rfl⟩ := exists_char hlisted hfits
      obtain ⟨cs, rfl⟩ := ih
      exact ⟨c :: cs, rfl⟩
  · rintro ⟨cs, rfl⟩
    induction cs with
    | nil => exact .nil
    | cons c cs ih =>
      obtain ⟨row, hlisted, hfits⟩ := exists_row c
      exact .char hlisted hfits ih

/-! ## Reading and writing -/

theorem decodeFrom_encode (cs : List Char) : ∀ pos, decodeFrom pos (encode cs) = .ok cs := by
  induction cs with
  | nil =>
    intro pos
    rw [encode, List.flatMap_nil, decodeFrom]
  | cons c cs ih =>
    intro pos
    obtain ⟨b, more, hc, hfront⟩ := front_encodeChar c (encode cs)
    have hbytes : encode (c :: cs) = b :: (more ++ encode cs) := by
      rw [encode, List.flatMap_cons, hc]
      rfl
    rw [hbytes, decodeFrom, hfront]
    simp only [Nat.add_sub_cancel, List.drop_left, ih]

theorem encode_of_decodeFrom (bytes : List UInt8) :
    ∀ pos cs, decodeFrom pos bytes = .ok cs → bytes = encode cs := by
  intro pos
  fun_induction decodeFrom pos bytes with
  | case1 => rintro cs ⟨⟩; rfl
  | case2 => rintro cs ⟨⟩
  | case3 pos b rest c w hfront cs hrest ih =>
    rintro _ ⟨⟩
    rw [front_char hfront, ih cs hrest]
    rfl
  | case4 => rintro cs ⟨⟩

/-- Reading gives the characters that the bytes encode. -/
theorem decode_eq_ok {bytes : List UInt8} {cs : List Char} : decode bytes = .ok cs ↔ bytes = encode cs := by
  constructor
  · exact encode_of_decodeFrom bytes 0 cs
  · rintro rfl
    exact decodeFrom_encode cs 0

/-! ## Marks -/

/-- Bytes without one mark in front. -/
def unmarked (bytes : List UInt8) : List UInt8 := if mark.isPrefixOf bytes then bytes.drop mark.length else bytes

theorem decodeMarked_eq (bytes : List UInt8) : decodeMarked bytes = decode (unmarked bytes) := rfl

theorem unmarked_mark (bytes : List UInt8) : unmarked (mark ++ bytes) = bytes := by
  have h : mark.isPrefixOf (mark ++ bytes) = true := List.isPrefixOf_iff_prefix.2 (List.prefix_append _ _)
  rw [unmarked, if_pos h, List.drop_left]

/-- The mark is the encoding of U+FEFF. -/
theorem encodeChar_mark : encodeChar '\uFEFF' = mark := by decide

/-- No encoding is the start of another. -/
theorem encodeChar_prefix {c d : Char} {rest rest' : List UInt8} (h : encodeChar c ++ rest = encodeChar d ++ rest') :
    c = d := by
  obtain ⟨b, more, hc, hfront⟩ := front_encodeChar c rest
  obtain ⟨b', more', hd, hfront'⟩ := front_encodeChar d rest'
  rw [hc, hd, List.cons_append, List.cons_append, List.cons.injEq] at h
  rw [h.1, h.2, hfront'] at hfront
  exact (Front.char.inj hfront).1.symm

/-- An encoding begins with a mark only if the text begins with U+FEFF. -/
theorem unmarked_encode {cs : List Char} (h : cs.head? ≠ some '\uFEFF') : unmarked (encode cs) = encode cs := by
  rw [unmarked, if_neg]
  intro hmark
  obtain ⟨more, hmore⟩ := List.isPrefixOf_iff_prefix.1 hmark
  rw [← encodeChar_mark] at hmore
  cases cs with
  | nil => simp [encodeChar_mark, mark, encode] at hmore
  | cons c cs =>
    have hc : '\uFEFF' = c := encodeChar_prefix (hmore.trans List.flatMap_cons)
    exact h (by rw [← hc]; rfl)

end Maintainability.Utf8

namespace Maintainability.Text

theorem toChar?_ofChar (c : Char) : (CodePoint.ofChar c).toChar? = some c := by
  have hclean := ofChars_encodable [c] (CodePoint.ofChar c) (by simp [ofChars])
  rw [CodePoint.toChar?, hclean]
  have hc : Char.ofNat c.toNat = c := Char.ofNat_toNat c
  exact congrArg some hc

theorem filterMap_ofChars (cs : List Char) : (ofChars cs).filterMap CodePoint.toChar? = cs := by
  rw [ofChars, List.filterMap_map]
  have hsome : CodePoint.toChar? ∘ CodePoint.ofChar = some := funext toChar?_ofChar
  rw [hsome, List.filterMap_some]

/-- A text without surrogates is a text of characters. -/
theorem exists_chars {t : Text} (h : t.Encodable) : ∃ cs, t = ofChars cs := by
  induction t with
  | nil => exact ⟨[], rfl⟩
  | cons c t ih =>
    obtain ⟨cs, rfl⟩ := ih fun x hx => h x (List.mem_cons_of_mem _ hx)
    have hc := h c List.mem_cons_self
    refine ⟨Char.ofNat c.val :: cs, ?_⟩
    rw [ofChars, ofChars, List.map_cons]
    congr 1
    rw [← Bool.not_eq_true, CodePoint.isSurrogate_iff] at hc
    have hval : (Char.ofNat c.val).toNat = c.val := Utf8.toNat_ofNat (by omega)
    exact Fin.ext hval.symm

end Maintainability.Text

namespace Maintainability.Utf8

/-- The bytes of a text of characters. -/
theorem encodeText_ofChars (cs : List Char) : encodeText (.ofChars cs) = .ok (encode cs) := by
  have hnone := Text.unencodable?_eq_none.2 (Text.ofChars_encodable cs)
  rw [encodeText, hnone, Text.filterMap_ofChars]

end Maintainability.Utf8
