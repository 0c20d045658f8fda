/-
JSON as a text. `Document` is the grammar of RFC 8259 with the value that a text stands for: which
characters a string may hold and how they are escaped, how a number is written, where blanks may be. It
says nothing of how a value is written or read here. A string is one of characters, so a lone surrogate
escape has no value; a number without a fraction or an exponent is an integer, and any other keeps its
literal.

The reader reads every document as the value it stands for (`Document.parse`), so a text is a document of
one value at most (`Document.unique`).
-/
import Mathlib.Data.List.DropRight
import Maintainability.Json
import Maintainability.Number.Literal

namespace Maintainability.Json

/-! ## The format -/

/-- Blanks, as many as there may be between tokens. -/
def Blank (cs : List Char) : Prop := ∀ c ∈ cs, isBlank c = true

/-- Digits, one or more. -/
structure Digits (cs : List Char) : Prop where
  nonempty : cs ≠ []
  digits : ∀ c ∈ cs, c.isDigit = true

/-- The digits before the point. No zero stands in front of another digit. -/
inductive Whole : List Char → Prop
  | zero : Whole ['0']
  | digits {c : Char} {cs : List Char} (hc : c.isDigit = true) (hne : c ≠ '0') (hcs : ∀ x ∈ cs, x.isDigit = true) :
      Whole (c :: cs)

/-- The point and the digits behind it, if there are any. -/
inductive Fraction : List Char → Prop
  | none : Fraction []
  | digits {ds : List Char} (h : Digits ds) : Fraction ('.' :: ds)

/-- The exponent, if there is one. -/
inductive Exponent : List Char → Prop
  | none : Exponent []
  | digits {e : Char} {sign ds : List Char} (he : e = 'e' ∨ e = 'E') (hsign : sign ∈ [[], ['+'], ['-']])
      (h : Digits ds) : Exponent (e :: (sign ++ ds))

/-- Digits with a fraction or an exponent. -/
inductive Scaled : List Char → Prop
  | intro {whole fraction exponent : List Char} (hwhole : Whole whole) (hfraction : Fraction fraction)
      (hexponent : Exponent exponent) (hne : fraction ++ exponent ≠ []) : Scaled (whole ++ (fraction ++ exponent))

/-- A number with a fraction or an exponent. -/
inductive Fractional : List Char → Prop
  | positive {s : List Char} (h : Scaled s) : Fractional s
  | negative {s : List Char} (h : Scaled s) : Fractional ('-' :: s)

/-- A hexadecimal digit and its value. -/
inductive HexDigit : Char → Nat → Prop
  | digit {n : Nat} (h : n < 10) : HexDigit (Char.ofNat (0x30 + n)) n
  | small {n : Nat} (h : n < 6) : HexDigit (Char.ofNat (0x61 + n)) (10 + n)
  | capital {n : Nat} (h : n < 6) : HexDigit (Char.ofNat (0x41 + n)) (10 + n)

/-- Four hexadecimal digits and the UTF-16 unit that they write. -/
inductive UnitDigits : List Char → Nat → Prop
  | intro {a b c d : Char} {i j k l : Nat} (ha : HexDigit a i) (hb : HexDigit b j) (hc : HexDigit c k)
      (hd : HexDigit d l) : UnitDigits [a, b, c, d] (i * 4096 + j * 256 + k * 16 + l)

/-- The escapes of one letter and the characters that they stand for. -/
def shortEscapes : List (Char × Char) :=
  [('"', '"'), ('\\', '\\'), ('/', '/'), ('b', '\x08'), ('f', '\x0c'), ('n', '\n'), ('r', '\r'), ('t', '\t')]

/-- The inside of a string and the characters that it stands for. -/
inductive Inside : List Char → List Char → Prop
  | done : Inside [] []
  | plain {c : Char} {s t : List Char} (hcontrol : 0x20 ≤ c.toNat) (hquote : c ≠ '"') (hslash : c ≠ '\\')
      (rest : Inside s t) : Inside (c :: s) (c :: t)
  | short {e c : Char} {s t : List Char} (h : (e, c) ∈ shortEscapes) (rest : Inside s t) :
      Inside ('\\' :: e :: s) (c :: t)
  | unit {u s t : List Char} {n : Nat} (hu : UnitDigits u n) (hn : n < 0xD800 ∨ 0xDFFF < n) (rest : Inside s t) :
      Inside ('\\' :: 'u' :: (u ++ s)) (Char.ofNat n :: t)
  | pair {u v s t : List Char} {hi lo : Nat} (hu : UnitDigits u (0xD800 + hi)) (hv : UnitDigits v (0xDC00 + lo))
      (hhi : hi < 0x400) (hlo : lo < 0x400) (rest : Inside s t) :
      Inside ('\\' :: 'u' :: (u ++ ('\\' :: 'u' :: (v ++ s)))) (Char.ofNat (0x10000 + hi * 0x400 + lo) :: t)

/-- What a stretch of a text stands for: a value, or what is between the brackets of one. -/
inductive Phrase where
  | value (v : Json)
  | items (xs : List Json)
  | members (ms : List (String × Json))

/-- A stretch of a text and what it stands for. Blanks around a value belong to what holds it. -/
inductive Written : List Char → Phrase → Prop
  | null : Written ['n', 'u', 'l', 'l'] (.value .null)
  | yes : Written ['t', 'r', 'u', 'e'] (.value (.bool true))
  | no : Written ['f', 'a', 'l', 's', 'e'] (.value (.bool false))
  | natural {ds : List Char} (h : Whole ds) : Written ds (.value (.int (Literal.natural ds)))
  | negative {ds : List Char} (h : Whole ds) : Written ('-' :: ds) (.value (.int (-Literal.natural ds)))
  | fractional {s : List Char} (h : Fractional s) : Written s (.value (.real (String.ofList s)))
  | string {s t : List Char} (h : Inside s t) : Written ('"' :: (s ++ ['"'])) (.value (.str (String.ofList t)))
  | noItems {w : List Char} (hw : Blank w) : Written ('[' :: (w ++ [']'])) (.value (.arr []))
  | array {s : List Char} {xs : List Json} (h : Written s (.items xs)) :
      Written ('[' :: (s ++ [']'])) (.value (.arr xs))
  | noMembers {w : List Char} (hw : Blank w) : Written ('\x7b' :: (w ++ ['\x7d'])) (.value (.obj []))
  | object {s : List Char} {ms : List (String × Json)} (h : Written s (.members ms)) :
      Written ('\x7b' :: (s ++ ['\x7d'])) (.value (.obj ms))
  | lastItem {w s w' : List Char} {v : Json} (hw : Blank w) (h : Written s (.value v)) (hw' : Blank w') :
      Written (w ++ (s ++ w')) (.items [v])
  | item {w s w' more : List Char} {v : Json} {xs : List Json} (hw : Blank w) (h : Written s (.value v))
      (hw' : Blank w') (hmore : Written more (.items xs)) : Written (w ++ (s ++ (w' ++ ',' :: more))) (.items (v :: xs))
  | lastMember {w k name w₁ w₂ s w' : List Char} {v : Json} (hw : Blank w) (hname : Inside k name) (hw₁ : Blank w₁)
      (hw₂ : Blank w₂) (h : Written s (.value v)) (hw' : Blank w') :
      Written (w ++ '"' :: (k ++ '"' :: (w₁ ++ ':' :: (w₂ ++ (s ++ w'))))) (.members [(String.ofList name, v)])
  | member {w k name w₁ w₂ s w' more : List Char} {v : Json} {ms : List (String × Json)} (hw : Blank w)
      (hname : Inside k name) (hw₁ : Blank w₁) (hw₂ : Blank w₂) (h : Written s (.value v)) (hw' : Blank w')
      (hmore : Written more (.members ms)) :
      Written (w ++ '"' :: (k ++ '"' :: (w₁ ++ ':' :: (w₂ ++ (s ++ (w' ++ ',' :: more))))))
        (.members ((String.ofList name, v) :: ms))

/-- A text and the value that it stands for. -/
inductive Document : List Char → Json → Prop
  | intro {w s w' : List Char} {v : Json} (hw : Blank w) (h : Written s (.value v)) (hw' : Blank w') :
      Document (w ++ (s ++ w')) v

/-! ## Strings are read -/

theorem hexValue?_of_hexDigit {c : Char} {n : Nat} (h : HexDigit c n) : hexValue? c = some n := by
  have hdigit : ∀ n < 10, hexValue? (Char.ofNat (0x30 + n)) = some n := by decide
  have hsmall : ∀ n < 6, hexValue? (Char.ofNat (0x61 + n)) = some (10 + n) := by decide
  have hcapital : ∀ n < 6, hexValue? (Char.ofNat (0x41 + n)) = some (10 + n) := by decide
  cases h with
  | digit h => exact hdigit _ h
  | small h => exact hsmall _ h
  | capital h => exact hcapital _ h

theorem unitValue?_of_hexDigits {a b c d : Char} {i j k l : Nat} (ha : HexDigit a i) (hb : HexDigit b j)
    (hc : HexDigit c k) (hd : HexDigit d l) : unitValue? a b c d = some (i * 4096 + j * 256 + k * 16 + l) := by
  simp [unitValue?, hexValue?_of_hexDigit ha, hexValue?_of_hexDigit hb, hexValue?_of_hexDigit hc,
    hexValue?_of_hexDigit hd]

/-- A unit that is no surrogate stands for its character, whatever follows it. -/
theorem stringBody?_unit {a b c d : Char} {n : Nat} (h : unitValue? a b c d = some n)
    (hn : n < 0xD800 ∨ 0xDFFF < n) (rest : List Char) :
    stringBody? ('\\' :: 'u' :: a :: b :: c :: d :: rest) =
      (stringBody? rest).map fun (s, r) => (Char.ofNat n :: s, r) := by
  have hsurrogate : ¬ (0xD800 ≤ n ∧ n < 0xE000) := by omega
  by_cases hmore : ∃ e f g i r, rest = '\\' :: 'u' :: e :: f :: g :: i :: r
  · -- the reader looks for the other half of a pair, and finds that this is no half
    obtain ⟨e, f, g, i, r, rfl⟩ := hmore
    rw [stringBody?.eq_3, h]
    cases hunit : unitValue? e f g i with
    | none =>
      -- nor is there a value in what follows, whether another unit stands behind it or not
      have hbad : stringBody? ('\\' :: 'u' :: e :: f :: g :: i :: r) = none := by
        by_cases hpair : ∃ e' f' g' i' r', r = '\\' :: 'u' :: e' :: f' :: g' :: i' :: r'
        · obtain ⟨e', f', g', i', r', rfl⟩ := hpair
          rw [stringBody?.eq_3, hunit]
        · rw [stringBody?.eq_4 _ _ _ _ _ fun e' f' g' i' r' hr => hpair ⟨e', f', g', i', r', hr⟩, hunit]
      rw [hbad]
      rfl
    | some m =>
      have hpair : ¬ (0xD800 ≤ n ∧ n < 0xDC00 ∧ 0xDC00 ≤ m ∧ m < 0xE000) := by omega
      simp only [hpair, hsurrogate, if_false]
  · rw [stringBody?.eq_4 _ _ _ _ _ fun e f g i r hr => hmore ⟨e, f, g, i, r, hr⟩, h]
    simp only [hsurrogate, if_false]

theorem stringBody?_pair {a b c d e f g i : Char} {hi lo : Nat} (hhi : unitValue? a b c d = some (0xD800 + hi))
    (hlo : unitValue? e f g i = some (0xDC00 + lo)) (h₁ : hi < 0x400) (h₂ : lo < 0x400) (rest : List Char) :
    stringBody? ('\\' :: 'u' :: a :: b :: c :: d :: '\\' :: 'u' :: e :: f :: g :: i :: rest) =
      (stringBody? rest).map fun (s, r) => (Char.ofNat (0x10000 + hi * 0x400 + lo) :: s, r) := by
  have hpair : 0xD800 ≤ 0xD800 + hi ∧ 0xD800 + hi < 0xDC00 ∧ 0xDC00 ≤ 0xDC00 + lo ∧ 0xDC00 + lo < 0xE000 := by omega
  rw [stringBody?.eq_3, hhi, hlo]
  simp only [hpair, and_self, if_true, Nat.add_sub_cancel_left]

theorem stringBody?_short {e c : Char} (h : (e, c) ∈ shortEscapes) (rest : List Char) :
    stringBody? ('\\' :: e :: rest) = (stringBody? rest).map fun (s, r) => (c :: s, r) := by
  have hletters : ∀ x ∈ shortEscapes, x.1 ≠ 'u' ∧ escaped? x.1 = some x.2 := by decide
  obtain ⟨hu, hescaped⟩ := hletters _ h
  rw [stringBody?.eq_5 e rest (fun _ _ _ _ _ _ _ _ _ he _ => hu he) (fun _ _ _ _ _ he _ => hu he), hescaped]

theorem stringBody?_plain {c : Char} (hquote : c ≠ '"') (hslash : c ≠ '\\') (rest : List Char) :
    stringBody? (c :: rest) = (stringBody? rest).map fun (s, r) => (c :: s, r) :=
  stringBody?.eq_6 c rest hquote (fun _ _ _ _ _ _ _ _ _ he _ => hslash he) (fun _ _ _ _ _ he _ => hslash he)
    fun _ _ he _ => hslash he

theorem Inside.read {s t : List Char} (h : Inside s t) (rest : List Char) :
    stringBody? (s ++ '"' :: rest) = some (t, rest) := by
  induction h with
  | done => rfl
  | plain _ hquote hslash _ ih => rw [List.cons_append, stringBody?_plain hquote hslash, ih]; rfl
  | short hescape _ ih => rw [List.cons_append, List.cons_append, stringBody?_short hescape, ih]; rfl
  | unit hu hn _ ih =>
    obtain ⟨ha, hb, hc, hd⟩ := hu
    have hunit := unitValue?_of_hexDigits ha hb hc hd
    simp only [List.cons_append, List.nil_append, stringBody?_unit hunit hn, ih, Option.map_some]
  | @pair u v s t hi lo hu hv hhi hlo _ ih =>
    generalize hn : 0xD800 + hi = n at hu
    generalize hm : 0xDC00 + lo = m at hv
    obtain ⟨ha, hb, hc, hd⟩ := hu
    obtain ⟨ha', hb', hc', hd'⟩ := hv
    have hunit := unitValue?_of_hexDigits ha hb hc hd
    have hunit' := unitValue?_of_hexDigits ha' hb' hc' hd'
    rw [← hn] at hunit
    rw [← hm] at hunit'
    simp only [List.cons_append, List.nil_append, stringBody?_pair hunit hunit' hhi hlo, ih, Option.map_some]

/-! ## Numbers are read -/

/-- What may follow a number: nothing that would make it longer. -/
def Follows (rest : List Char) : Prop := ∀ c ∈ rest.head?, isNumeral c = false

theorem isNumeral_of_isDigit {c : Char} (h : c.isDigit = true) : isNumeral c = true := by simp [isNumeral, h]

theorem Whole.digit {ds : List Char} (h : Whole ds) : ∀ c ∈ ds, c.isDigit = true := by
  cases h with
  | zero => simp
  | digits hc _ hcs => exact List.forall_mem_cons.2 ⟨hc, hcs⟩

theorem Whole.ne_nil {ds : List Char} (h : Whole ds) : ds ≠ [] := by cases h <;> simp

theorem Whole.take {ds : List Char} (h : Whole ds) {k : Nat} (hk : 0 < k) : Whole (ds.take k) := by
  obtain ⟨k, rfl⟩ := Nat.exists_eq_add_one_of_ne_zero (Nat.ne_of_gt hk)
  cases h with
  | zero =>
    rw [List.take_succ_cons, List.take_nil]
    exact .zero
  | digits hc hne hcs => exact .digits hc hne fun x hx => hcs x (List.mem_of_mem_take hx)

theorem Whole.head_ne {ds : List Char} (h : Whole ds) (rest : List Char) : ∀ cs, ds ++ rest ≠ '-' :: cs := by
  intro cs he
  cases h with
  | zero => simp at he
  | digits hc =>
    simp only [List.cons_append, List.cons.injEq] at he
    rw [he.1] at hc
    exact absurd hc (by decide)

theorem numeral?_unsigned {ds : List Char} (h : ∀ cs, ds ≠ '-' :: cs) :
    numeral? ds = if ds.isEmpty then none
      else if ds.all Char.isDigit then some (.int (Literal.natural ds))
      else if ds.any Char.isDigit then some (.real (String.ofList ds))
      else none := by
  unfold numeral?
  split
  next negative ds' heq =>
    split at heq
    · exact absurd rfl (h _)
    · cases heq
      simp only [Literal.natural, Bool.false_eq_true, if_false]

theorem numeral?_natural {ds : List Char} (h : Whole ds) : numeral? ds = some (.int (Literal.natural ds)) := by
  have hall : ds.all Char.isDigit = true := List.all_eq_true.2 h.digit
  have hnil : ds.isEmpty = false := by simpa using h.ne_nil
  rw [numeral?_unsigned (by simpa using h.head_ne []), hnil, hall]
  rfl

theorem numeral?_negative {ds : List Char} (h : Whole ds) :
    numeral? ('-' :: ds) = some (.int (-Literal.natural ds)) := by
  have hall : ds.all Char.isDigit = true := List.all_eq_true.2 h.digit
  have hnil : ds.isEmpty = false := by simpa using h.ne_nil
  simp only [numeral?, hnil, hall, Literal.natural, Bool.false_eq_true, if_false, if_true]

theorem Fraction.numeral {s : List Char} (h : Fraction s) : ∀ c ∈ s, isNumeral c = true := by
  cases h with
  | none => simp
  | digits h => exact List.forall_mem_cons.2 ⟨by decide, fun c hc => isNumeral_of_isDigit (h.digits c hc)⟩

theorem Exponent.numeral {s : List Char} (h : Exponent s) : ∀ c ∈ s, isNumeral c = true := by
  cases h with
  | none => simp
  | @digits e sign ds he hsign h =>
    have hmark : isNumeral e = true := by rcases he with rfl | rfl <;> decide
    have hsigns : ∀ sign ∈ [[], ['+'], ['-']], sign.all isNumeral = true := by decide
    refine List.forall_mem_cons.2 ⟨hmark, fun c hc => ?_⟩
    rcases List.mem_append.1 hc with hc | hc
    · exact List.all_eq_true.1 (hsigns sign hsign) c hc
    · exact isNumeral_of_isDigit (h.digits c hc)

theorem Scaled.numeral {s : List Char} (h : Scaled s) : ∀ c ∈ s, isNumeral c = true := by
  obtain ⟨hwhole, hfraction, hexponent, -⟩ := h
  intro c hc
  simp only [List.mem_append] at hc
  rcases hc with hc | hc | hc
  · exact isNumeral_of_isDigit (hwhole.digit c hc)
  · exact hfraction.numeral c hc
  · exact hexponent.numeral c hc

theorem Fractional.numeral {s : List Char} (h : Fractional s) : ∀ c ∈ s, isNumeral c = true := by
  cases h with
  | positive h => exact h.numeral
  | negative h => exact List.forall_mem_cons.2 ⟨by decide, h.numeral⟩

/-- A fraction or an exponent begins with a mark. -/
theorem not_all_isDigit {fraction exponent : List Char} (hf : Fraction fraction) (he : Exponent exponent)
    (hne : fraction ++ exponent ≠ []) : (fraction ++ exponent).all Char.isDigit = false := by
  cases hf with
  | digits => rfl
  | none =>
    cases he with
    | none => exact absurd rfl hne
    | digits he => rcases he with rfl | rfl <;> rfl

theorem Scaled.isEmpty {s : List Char} (h : Scaled s) : s.isEmpty = false := by
  obtain ⟨hwhole, -⟩ := h
  simp [hwhole.ne_nil]

theorem Scaled.all_isDigit {s : List Char} (h : Scaled s) : s.all Char.isDigit = false := by
  obtain ⟨-, hfraction, hexponent, hne⟩ := h
  rw [List.all_append, not_all_isDigit hfraction hexponent hne, Bool.and_false]

theorem Scaled.any_isDigit {s : List Char} (h : Scaled s) : s.any Char.isDigit = true := by
  obtain ⟨hwhole, -⟩ := h
  obtain ⟨d, ds, hds⟩ := List.exists_cons_of_ne_nil hwhole.ne_nil
  have hdigit : d.isDigit = true := hwhole.digit d (by simp [hds])
  simp [hds, hdigit]

theorem numeral?_fractional {s : List Char} (h : Fractional s) : numeral? s = some (.real (String.ofList s)) := by
  cases h with
  | positive h =>
    have hsign : ∀ cs, s ≠ '-' :: cs := by
      obtain ⟨hwhole, -⟩ := h
      exact hwhole.head_ne _
    rw [numeral?_unsigned hsign, h.isEmpty, h.all_isDigit, h.any_isDigit]
    rfl
  | negative h =>
    simp only [numeral?, h.isEmpty, h.all_isDigit, h.any_isDigit, Bool.false_eq_true, if_false, if_true]

/-! ## Values are read -/

theorem skip_append {w : List Char} (h : Blank w) (cs : List Char) : skip (w ++ cs) = skip cs :=
  List.dropWhile_append_of_pos h

theorem skip_blank {w : List Char} (h : Blank w) : skip w = [] := List.dropWhile_eq_nil_iff.2 h

theorem skip_cons {c : Char} (h : isBlank c = false) (cs : List Char) : skip (c :: cs) = c :: cs := by
  simp [skip, h]

theorem skip_skip (cs : List Char) : skip (skip cs) = skip cs := List.dropWhile_idempotent _ _

theorem isBlank_of_isNumeral {c : Char} (h : isNumeral c = true) : isBlank c = false := by
  rw [← Bool.not_eq_true]
  intro hblank
  simp only [isBlank, Bool.or_eq_true, beq_iff_eq] at hblank
  rcases hblank with ((rfl | rfl) | rfl) | rfl <;> exact absurd h (by decide)

theorem follows_nil : Follows [] := by simp [Follows]

theorem follows_cons {c : Char} (h : isNumeral c = false) (rest : List Char) : Follows (c :: rest) := by
  simpa [Follows] using h

theorem follows_blank {w rest : List Char} (hw : Blank w) (h : Follows rest) : Follows (w ++ rest) := by
  cases w with
  | nil => exact h
  | cons c w =>
    refine follows_cons ?_ _
    rw [← Bool.not_eq_true]
    intro hc
    have hblank := hw c (by simp)
    simp [isBlank_of_isNumeral hc] at hblank

theorem value?_number {s : List Char} (hs : ∀ c ∈ s, isNumeral c = true) (hne : s ≠ []) {rest : List Char}
    (hrest : Follows rest) (fuel : Nat) : value? (fuel + 1) (s ++ rest) = (numeral? s).map fun n => (n, rest) := by
  have hstop : rest.takeWhile isNumeral = [] ∧ rest.dropWhile isNumeral = rest := by
    cases rest with
    | nil => simp
    | cons c rest => simp [hrest c (by simp)]
  have htake : (s ++ rest).takeWhile isNumeral = s := by
    rw [List.takeWhile_append_of_pos hs, hstop.1, List.append_nil]
  have hdrop : (s ++ rest).dropWhile isNumeral = rest := by rw [List.dropWhile_append_of_pos hs, hstop.2]
  obtain ⟨c, s, rfl⟩ := List.exists_cons_of_ne_nil hne
  have hc := hs c (by simp)
  rw [value?, List.cons_append, skip_cons (isBlank_of_isNumeral hc)]
  -- none of the characters with which another value begins is part of a number
  split
  all_goals first
    | next heq =>
      rw [(List.cons.inj heq).1] at hc
      exact absurd hc (by decide)
    | simp only [← List.cons_append, htake, hdrop]

/-- Blanks in front make no difference to a reader. -/
theorem read_skip (fuel : Nat) (cs : List Char) :
    value? fuel (skip cs) = value? fuel cs ∧ items? fuel (skip cs) = items? fuel cs ∧
      members? fuel (skip cs) = members? fuel cs := by
  have hvalue : ∀ fuel, value? fuel (skip cs) = value? fuel cs := by
    intro fuel
    cases fuel with
    | zero => rfl
    | succ fuel => rw [value?, value?, skip_skip]
  cases fuel with
  | zero => exact ⟨rfl, rfl, rfl⟩
  | succ fuel =>
    refine ⟨hvalue _, ?_, ?_⟩
    · rw [items?, items?, hvalue]
    · rw [members?, members?, skip_skip]

theorem value?_append {w : List Char} (h : Blank w) (fuel : Nat) (cs : List Char) :
    value? fuel (w ++ cs) = value? fuel cs := by
  rw [← (read_skip fuel (w ++ cs)).1, skip_append h, (read_skip fuel cs).1]

/-- There is no item where the bracket closes, and no member where the brace does. -/
theorem read_closed (fuel : Nat) (cs rest : List Char) :
    (skip cs = ']' :: rest → items? fuel cs = none) ∧ (skip cs = '\x7d' :: rest → members? fuel cs = none) := by
  cases fuel with
  | zero => exact ⟨fun _ => rfl, fun _ => rfl⟩
  | succ fuel =>
    constructor
    · intro h
      have hvalue : value? fuel cs = none := by
        cases fuel with
        | zero => rfl
        | succ fuel =>
          rw [value?, h]
          rfl
      rw [items?, hvalue]
      rfl
    · intro h
      rw [members?, h]
      rfl

/-- The reader makes of a stretch what it stands for, and leaves what follows. -/
def Phrase.Read (s : List Char) : Phrase → Prop
  | .value v => ∀ fuel rest, s.length ≤ fuel → Follows rest → value? fuel (s ++ rest) = some (v, rest)
  | .items xs => ∀ fuel rest, s.length < fuel → items? fuel (s ++ ']' :: rest) = some (xs, rest)
  | .members ms => ∀ fuel rest, s.length < fuel → members? fuel (s ++ '\x7d' :: rest) = some (ms, rest)

theorem Phrase.read_number {s : List Char} {v : Json} (hs : ∀ c ∈ s, isNumeral c = true) (hv : numeral? s = some v) :
    (Phrase.value v).Read s := by
  have hne : s ≠ [] := by
    rintro rfl
    cases hv
  intro fuel rest hfuel hrest
  cases fuel with
  | zero => exact absurd (List.length_eq_zero_iff.1 (Nat.le_zero.1 hfuel)) hne
  | succ fuel =>
    rw [value?_number hs hne hrest, hv]
    rfl

/-- Of a value that begins with a character of its own, one unit of fuel reads the character. -/
theorem Phrase.read_head {c : Char} {s : List Char} {v : Json}
    (h : ∀ fuel rest, s.length ≤ fuel → value? (fuel + 1) (c :: (s ++ rest)) = some (v, rest)) :
    (Phrase.value v).Read (c :: s) := by
  intro fuel rest hfuel _
  cases fuel with
  | zero => simp at hfuel
  | succ fuel => exact h fuel rest (by simpa using hfuel)

theorem value?_bracket (fuel : Nat) (cs : List Char) :
    value? (fuel + 1) ('[' :: cs) = match skip cs with
      | ']' :: rest => some (.arr [], rest)
      | rest => (items? fuel rest).map fun (xs, r) => (.arr xs, r) :=
  rfl

theorem value?_brace (fuel : Nat) (cs : List Char) :
    value? (fuel + 1) ('\x7b' :: cs) = match skip cs with
      | '\x7d' :: rest => some (.obj [], rest)
      | rest => (members? fuel rest).map fun (ms, r) => (.obj ms, r) :=
  rfl

theorem value?_quote (fuel : Nat) (cs : List Char) :
    value? (fuel + 1) ('"' :: cs) = (stringBody? cs).map fun (s, r) => (.str (String.ofList s), r) :=
  rfl

theorem value?_array {s : List Char} {xs : List Json} (h : (Phrase.items xs).Read s) :
    (Phrase.value (.arr xs)).Read ('[' :: (s ++ [']'])) := by
  refine Phrase.read_head fun fuel rest hfuel => ?_
  have hitems := h fuel rest (by simp at hfuel; omega)
  rw [List.append_assoc, List.singleton_append, value?_bracket]
  split
  · next heq =>
    rw [(read_closed _ _ _).1 heq] at hitems
    cases hitems
  · rw [(read_skip _ _).2.1, hitems]
    rfl

theorem value?_object {s : List Char} {ms : List (String × Json)} (h : (Phrase.members ms).Read s) :
    (Phrase.value (.obj ms)).Read ('\x7b' :: (s ++ ['\x7d'])) := by
  refine Phrase.read_head fun fuel rest hfuel => ?_
  have hmembers := h fuel rest (by simp at hfuel; omega)
  rw [List.append_assoc, List.singleton_append, value?_brace]
  split
  · next heq =>
    rw [(read_closed _ _ _).2 heq] at hmembers
    cases hmembers
  · rw [(read_skip _ _).2.2, hmembers]
    rfl

/-- A value with blanks around it is read up to what closes it. -/
theorem Phrase.read_padded {w s w' : List Char} {v : Json} (hw : Blank w) (h : (Phrase.value v).Read s)
    (hw' : Blank w') {c : Char} (hc : isNumeral c = false) (fuel : Nat) (hfuel : s.length ≤ fuel) (rest : List Char) :
    value? fuel (w ++ (s ++ (w' ++ c :: rest))) = some (v, w' ++ c :: rest) := by
  rw [value?_append hw, h fuel _ hfuel (follows_blank hw' (follows_cons hc rest))]

theorem Written.read {s : List Char} {p : Phrase} (h : Written s p) : p.Read s := by
  induction h with
  | null | yes | no => exact Phrase.read_head fun fuel rest _ => rfl
  | natural hd => exact Phrase.read_number (fun c hc => isNumeral_of_isDigit (hd.digit c hc)) (numeral?_natural hd)
  | negative hd =>
    refine Phrase.read_number ?_ (numeral?_negative hd)
    exact List.forall_mem_cons.2 ⟨by decide, fun c hc => isNumeral_of_isDigit (hd.digit c hc)⟩
  | fractional hs => exact Phrase.read_number hs.numeral (numeral?_fractional hs)
  | string hs =>
    refine Phrase.read_head fun fuel rest _ => ?_
    rw [value?_quote, List.append_assoc, List.singleton_append, hs.read]
    rfl
  | noItems hw =>
    refine Phrase.read_head fun fuel rest _ => ?_
    rw [List.append_assoc, List.singleton_append, value?_bracket, skip_append hw, skip_cons (by decide)]
    rfl
  | noMembers hw =>
    refine Phrase.read_head fun fuel rest _ => ?_
    rw [List.append_assoc, List.singleton_append, value?_brace, skip_append hw, skip_cons (by decide)]
    rfl
  | array _ ih => exact value?_array ih
  | object _ ih => exact value?_object ih
  | lastItem hw hs hw' ih =>
    intro fuel rest hfuel
    simp only [List.length_append] at hfuel
    obtain ⟨fuel, rfl⟩ := Nat.exists_eq_add_one_of_ne_zero (n := fuel) (by omega)
    rw [items?, List.append_assoc, List.append_assoc, Phrase.read_padded hw ih hw' (by decide) fuel (by omega)]
    simp [skip_append hw', skip_cons (c := ']') (by decide)]
  | item hw hs hw' hmore ih ihmore =>
    intro fuel rest hfuel
    simp only [List.length_append, List.length_cons] at hfuel
    obtain ⟨fuel, rfl⟩ := Nat.exists_eq_add_one_of_ne_zero (n := fuel) (by omega)
    rw [items?, List.append_assoc, List.append_assoc, List.append_assoc, List.cons_append,
      Phrase.read_padded hw ih hw' (by decide) fuel (by omega)]
    simp [skip_append hw', skip_cons (c := ',') (by decide), ihmore fuel rest (by omega)]
  | lastMember hw hname hw₁ hw₂ hs hw' ih =>
    intro fuel rest hfuel
    simp only [List.length_append, List.length_cons] at hfuel
    obtain ⟨fuel, rfl⟩ := Nat.exists_eq_add_one_of_ne_zero (n := fuel) (by omega)
    simp only [List.append_assoc, List.cons_append]
    rw [members?, skip_append hw, skip_cons (by decide)]
    simp [hname.read, skip_append hw₁, skip_cons (c := ':') (by decide),
      Phrase.read_padded hw₂ ih hw' (c := '\x7d') (by decide) fuel (by omega), skip_append hw',
      skip_cons (c := '\x7d') (by decide)]
  | member hw hname hw₁ hw₂ hs hw' hmore ih ihmore =>
    intro fuel rest hfuel
    simp only [List.length_append, List.length_cons] at hfuel
    obtain ⟨fuel, rfl⟩ := Nat.exists_eq_add_one_of_ne_zero (n := fuel) (by omega)
    simp only [List.append_assoc, List.cons_append]
    rw [members?, skip_append hw, skip_cons (by decide)]
    simp [hname.read, skip_append hw₁, skip_cons (c := ':') (by decide),
      Phrase.read_padded hw₂ ih hw' (c := ',') (by decide) fuel (by omega), skip_append hw',
      skip_cons (c := ',') (by decide), ihmore fuel rest (by omega)]

/-- **The reader reads every document** as the value that it stands for. -/
theorem Document.parse {text : String} {v : Json} (h : Document text.toList v) : parse? text = some v := by
  unfold parse?
  generalize text.toList = cs at h ⊢
  obtain ⟨hw, hs, hw'⟩ := h
  rename_i w s w'
  have hfollows : Follows w' := by simpa using follows_blank hw' follows_nil
  have hfuel : s.length ≤ (w ++ (s ++ w')).length + 1 := by simp; omega
  have hread := (value?_append hw _ (s ++ w')).trans (hs.read _ w' hfuel hfollows)
  simp only [hread, skip_blank hw', List.isEmpty_nil, if_true]

theorem Document.unique {cs : List Char} {v v' : Json} (h : Document cs v) (h' : Document cs v') : v = v' := by
  rw [← String.toList_ofList (l := cs)] at h h'
  exact Option.some.inj (h.parse.symm.trans h'.parse)

end Maintainability.Json
