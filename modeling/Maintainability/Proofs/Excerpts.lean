/-
Texts cut out of a file. A file is encoded once, its methods are cut out of the bytes and read back with
replacements. Where the cuts fall between characters nothing is replaced: a boundary is told from the
bytes alone, as the end or a byte that goes on no character (`IsBoundary`), and the boundaries of an
encoded text are the ends of its encoded beginnings (`isBoundary_encode`), so what is cut out is the
encoding of a part of the text, and reading gives this part (`decodeLossy_encode`).
-/
import Maintainability.Proofs.WellFormed

namespace Maintainability

namespace Utf8

variable {cs : List Char} {bytes : List UInt8} {n start stop : Nat}

/-! ## Boundaries -/

/-- An offset at which no character is cut. -/
def IsBoundary (bytes : List UInt8) (n : Nat) : Prop :=
  n = bytes.length ∨ ∃ b, bytes[n]? = some b ∧ isTail b = false

theorem encode_nil : encode [] = [] := rfl

theorem encode_cons (c : Char) (cs : List Char) : encode (c :: cs) = encodeChar c ++ encode cs := List.flatMap_cons

theorem encode_append (cs ds : List Char) : encode (cs ++ ds) = encode cs ++ encode ds := List.flatMap_append

/-- In the table, the first byte of a character is no continuation byte, and the others are. -/
theorem table_shape : ∀ row ∈ table, row ≠ [] ∧ (∀ r ∈ row.head?, r.2 < 0x80 ∨ 0xBF < r.1) ∧
    ∀ r ∈ row.tail, 0x80 ≤ r.1 ∧ r.2 ≤ 0xBF := by
  decide

theorem Fits.isTail {row : List (Nat × Nat)} (h : Fits row bytes) (hrow : ∀ r ∈ row, 0x80 ≤ r.1 ∧ r.2 ≤ 0xBF) :
    ∀ b ∈ bytes, isTail b = true := by
  induction h with
  | nil => simp
  | @cons r b row bytes hb _ ih =>
    obtain ⟨hr, hmore⟩ := List.forall_mem_cons.1 hrow
    exact List.forall_mem_cons.2 ⟨isTail_iff.2 (by omega), ih hmore⟩

theorem encodeChar_shape (c : Char) :
    ∃ b more, encodeChar c = b :: more ∧ isTail b = false ∧ ∀ x ∈ more, isTail x = true := by
  obtain ⟨row, hrow, hfits⟩ := exists_row c
  obtain ⟨hne, hfirst, hmore⟩ := table_shape row hrow
  obtain ⟨r, rs, rfl⟩ := List.exists_cons_of_ne_nil hne
  obtain ⟨b, more, hc, hb, hrest⟩ := hfits.uncons
  have hr := hfirst r rfl
  refine ⟨b, more, hc, ?_, hrest.isTail hmore⟩
  rw [← Bool.not_eq_true, isTail_iff]
  omega

theorem length_encodeChar_pos (c : Char) : 0 < (encodeChar c).length := by
  obtain ⟨b, more, hc, -⟩ := encodeChar_shape c
  simp [hc]

/-- The boundaries of an encoded text are the ends of its encoded beginnings. -/
theorem isBoundary_encode : IsBoundary (encode cs) n ↔
    ∃ before after, cs = before ++ after ∧ n = (encode before).length := by
  constructor
  · intro h
    induction cs generalizing n with
    | nil =>
      refine ⟨[], [], rfl, ?_⟩
      simpa [IsBoundary, encode_nil] using h
    | cons c cs ih =>
      obtain ⟨b, more, hc, -, hmore⟩ := encodeChar_shape c
      rw [encode_cons] at h
      by_cases hzero : n = 0
      · exact ⟨[], c :: cs, rfl, hzero⟩
      by_cases hin : n < (encodeChar c).length
      · -- inside the first character
        exfalso
        rcases h with h | ⟨x, hx, htail⟩
        · simp at h
          omega
        · rw [List.getElem?_append_left hin, hc] at hx
          obtain ⟨m, rfl⟩ := Nat.exists_eq_succ_of_ne_zero hzero
          rw [List.getElem?_cons_succ] at hx
          simp [hmore x (List.mem_of_getElem? hx)] at htail
      · obtain ⟨m, rfl⟩ := Nat.exists_eq_add_of_le (Nat.not_lt.1 hin)
        have hrest : IsBoundary (encode cs) m := by
          simpa [IsBoundary, List.getElem?_append_right] using h
        obtain ⟨before, after, rfl, rfl⟩ := ih hrest
        exact ⟨c :: before, after, rfl, by rw [encode_cons, List.length_append]⟩
  · rintro ⟨before, after, rfl, rfl⟩
    rw [encode_append]
    cases after with
    | nil => exact .inl (by simp [encode_nil])
    | cons c after =>
      obtain ⟨b, more, hc, hb, -⟩ := encodeChar_shape c
      refine .inr ⟨b, ?_, hb⟩
      simp [encode_cons, hc]

theorem encode_eq_nil (h : encode cs = []) : cs = [] := by
  cases cs with
  | nil => rfl
  | cons c cs =>
    have hpos := length_encodeChar_pos c
    simp [encode_cons] at h
    simp [h.1] at hpos

/-- Two boundaries part a text into three. -/
theorem exists_between (hstart : IsBoundary (encode cs) start) (hstop : IsBoundary (encode cs) stop)
    (hle : start ≤ stop) : ∃ before found after, cs = before ++ found ++ after ∧
      start = (encode before).length ∧ stop = (encode (before ++ found)).length := by
  obtain ⟨before, rest, rfl, rfl⟩ := isBoundary_encode.1 hstart
  obtain ⟨upTo, after, hsplit, rfl⟩ := isBoundary_encode.1 hstop
  rcases List.append_eq_append_iff.1 hsplit with ⟨found, rfl, rfl⟩ | ⟨extra, rfl, rfl⟩
  · exact ⟨before, found, after, by simp, rfl, rfl⟩
  · -- the second boundary is not in front of the first
    have hextra : extra = [] := by
      apply encode_eq_nil
      rw [encode_append, List.length_append] at hle
      exact List.eq_nil_of_length_eq_zero (by omega)
    subst hextra
    exact ⟨upTo, [], rest, by simp, by simp, by simp⟩

/-! ## Cutting and reading -/

theorem slice_encode (before found after : List Char) :
    Concrete.slice (encode (before ++ found ++ after)) (encode before).length (encode (before ++ found)).length =
      encode found := by
  rw [Concrete.slice, encode_append (before ++ found), List.take_left, encode_append, List.drop_left]

/-- Nothing is replaced in an encoded text. -/
theorem decodeLossy_encode (cs : List Char) : decodeLossy (encode cs) = cs := by
  induction cs with
  | nil => rw [encode_nil, decodeLossy]
  | cons c cs ih =>
    obtain ⟨b, more, hc, hfront⟩ := front_encodeChar c (encode cs)
    rw [encode_cons, hc, List.cons_append, decodeLossy, hfront]
    simp only [Nat.add_sub_cancel, List.drop_left, ih]

end Utf8

/-! ## Methods -/

/-- The UTF-8 of a text has so many bytes. -/
def Text.Fills (t : Text) (n : Nat) : Prop := ∃ bytes, Utf8.encodeText t = .ok bytes ∧ bytes.length = n

namespace Concrete

/-- A node that begins and ends between characters of a file. -/
structure Aligned (bytes : List UInt8) (c : Concrete) : Prop where
  start : Utf8.IsBoundary bytes c.start
  stop : Utf8.IsBoundary bytes c.stop
  start_le_stop : c.start ≤ c.stop

/-- What stands in a text from the start of a node to its end. -/
structure Excerpt (t : Text) (bytes : List UInt8) (c : Concrete) (found : Text) : Prop where
  stands : ∃ before after, t = before ++ found ++ after ∧ before.Fills c.start ∧ (before ++ found).Fills c.stop
  encoded : Utf8.encodeText found = .ok (slice bytes c.start c.stop)

theorem Aligned.excerpt {cs : List Char} {c : Concrete} (h : c.Aligned (Utf8.encode cs)) :
    Excerpt (.ofChars cs) (Utf8.encode cs) c (.ofChars (c.content (Utf8.encode cs))) := by
  obtain ⟨before, found, after, rfl, hstart, hstop⟩ := Utf8.exists_between h.start h.stop h.start_le_stop
  have hslice : slice (Utf8.encode (before ++ found ++ after)) c.start c.stop = Utf8.encode found := by
    rw [hstart, hstop, Utf8.slice_encode]
  have hcontent : c.content (Utf8.encode (before ++ found ++ after)) = found := by
    rw [content, hslice, Utf8.decodeLossy_encode]
  have hfills : ∀ ds : List Char, (Text.ofChars ds).Fills (Utf8.encode ds).length := fun ds =>
    ⟨_, Utf8.encodeText_ofChars ds, rfl⟩
  rw [hcontent]
  refine ⟨⟨.ofChars before, .ofChars after, ?_, ?_, ?_⟩, ?_⟩
  · simp [Text.ofChars]
  · exact hstart ▸ hfills before
  · have happend : Text.ofChars before ++ Text.ofChars found = Text.ofChars (before ++ found) := by
      simp [Text.ofChars]
    rw [happend, hstop]
    exact hfills _
  · rw [hslice, Utf8.encodeText_ofChars]

end Concrete

/-- **The text of a method is cut out exactly.** A text without surrogates has bytes, and the methods found
in it are those of nodes, with these bytes. Whatever the node, if it begins and ends between characters,
the text of its method is what stands there: a part of the text, nothing in it replaced, and its UTF-8 is
the bytes of the node. Likewise for the name and the node of the name. -/
theorem method_text_exact (t : Text) (ht : t.Encodable) :
    ∃ bytes, Utf8.encodeText t = .ok bytes ∧
      (∀ (l : Language) (grammar : Recognizer) ms, l.parse grammar t = .ok ms →
        ∀ m ∈ ms, ∃ parent c, m = Concrete.toMethod l bytes parent c) ∧
      ∀ (l : Language) (parent : Option String) (c : Concrete),
        (c.Aligned bytes → c.Excerpt t bytes (c.toMethod l bytes parent).source) ∧
        ∀ n, c.child? "name" = some n → n.Aligned bytes →
          n.Excerpt t bytes (.ofString (c.toMethod l bytes parent).name) := by
  obtain ⟨cs, rfl⟩ := Text.exists_chars ht
  refine ⟨Utf8.encode cs, Utf8.encodeText_ofChars cs, fun l grammar ms hms m hm => ?_, fun l parent c => ⟨?_, ?_⟩⟩
  · obtain ⟨bytes, parsed, hbytes, -, rfl⟩ := Language.parse_inv hms
    cases hbytes.symm.trans (Utf8.encodeText_ofChars cs)
    obtain ⟨⟨parent, c⟩, -, rfl⟩ := List.mem_map.1 hm
    exact ⟨parent, c, rfl⟩
  · exact Concrete.Aligned.excerpt
  · intro n hn haligned
    have hname : (c.toMethod l (Utf8.encode cs) parent).name = String.ofList (n.content (Utf8.encode cs)) := by
      simp [Concrete.toMethod, hn]
    rw [hname, Text.ofString, String.toList_ofList]
    exact haligned.excerpt

/-- A method of a character of three bytes and one of four, between others; its name is the first. -/
theorem method_text_exact_wide :
    let bytes := Utf8.encode "ä€😀z".toList
    let name : Concrete := .node "identifier" true false (some "name") 2 5 []
    let m := Concrete.toMethod .python bytes none (.node "function_definition" true false none 2 9 [name])
    Utf8.encodeText m.source = .ok [0xE2, 0x82, 0xAC, 0xF0, 0x9F, 0x98, 0x80] ∧
      Utf8.encodeText (.ofString m.name) = .ok [0xE2, 0x82, 0xAC] := by
  intro bytes name m
  obtain ⟨found, hfound, -, hcut⟩ := method_text_exact (.ofString "ä€😀z") (Text.ofChars_encodable _)
  cases hfound.symm.trans (Utf8.encodeText_ofChars "ä€😀z".toList)
  obtain ⟨hsource, hname⟩ := hcut .python none (.node "function_definition" true false none 2 9 [name])
  have haligned : Concrete.Aligned bytes (.node "function_definition" true false none 2 9 [name]) :=
    ⟨.inr ⟨0xE2, by decide, by decide⟩, .inr ⟨0x7A, by decide, by decide⟩, by decide⟩
  have hnamed : name.Aligned bytes :=
    ⟨.inr ⟨0xE2, by decide, by decide⟩, .inr ⟨0xF0, by decide, by decide⟩, by decide⟩
  exact ⟨(hsource haligned).encoded, (hname name rfl hnamed).encoded⟩

end Maintainability
