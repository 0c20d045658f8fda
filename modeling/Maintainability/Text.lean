/-
Text as the analyzer sees it: a list of code points. A text read from a file never holds a
surrogate, but a caller may hand one in, and then encoding it is the step that fails; so text is
kept apart from `String`, whose characters exclude surrogates by construction.
-/
namespace Maintainability

/-- A Unicode code point, surrogates included. -/
abbrev CodePoint := Fin 0x110000

/-- A text: its code points in order. -/
abbrev Text := List CodePoint

namespace CodePoint

theorem toNat_lt (c : Char) : c.toNat < 0x110000 := by
  have h := c.valid
  simp only [UInt32.isValidChar, Nat.isValidChar] at h
  have : c.toNat = c.val.toNat := rfl
  omega

/-- The code point of a character. -/
def ofChar (c : Char) : CodePoint := ⟨c.toNat, toNat_lt c⟩

/-- Halves of a surrogate pair; no encoding form can write one alone. -/
def isSurrogate (c : CodePoint) : Bool := 0xD800 ≤ c.val && c.val ≤ 0xDFFF

/-- The character of a code point, unless it is a surrogate. -/
def toChar? (c : CodePoint) : Option Char :=
  if c.isSurrogate then none else some (Char.ofNat c.val)

/-- White space: the separators of Unicode, the tab and line controls and the four
information separators. -/
def isBlank (c : CodePoint) : Bool :=
  (0x09 ≤ c.val && c.val ≤ 0x0D) || (0x1C ≤ c.val && c.val ≤ 0x20) || c.val == 0x85 ||
  c.val == 0xA0 || c.val == 0x1680 || (0x2000 ≤ c.val && c.val ≤ 0x200A) || c.val == 0x2028 ||
  c.val == 0x2029 || c.val == 0x202F || c.val == 0x205F || c.val == 0x3000

/-- An ASCII letter, digit or underscore. -/
def isWord (c : CodePoint) : Bool :=
  (0x30 ≤ c.val && c.val ≤ 0x39) || (0x41 ≤ c.val && c.val ≤ 0x5A) || c.val == 0x5F ||
  (0x61 ≤ c.val && c.val ≤ 0x7A)

/-- The space U+0020. -/
def space : CodePoint := 0x20

/-- Carriage return. -/
def cr : CodePoint := 0x0D

/-- Line feed. -/
def lf : CodePoint := 0x0A

end CodePoint

namespace Text

/-- The text of a list of characters. -/
def ofChars (cs : List Char) : Text := cs.map CodePoint.ofChar

/-- The text of a string. -/
def ofString (s : String) : Text := ofChars s.toList

/-- The characters of a text, if it holds no surrogate. -/
def toChars? (t : Text) : Option (List Char) := t.mapM CodePoint.toChar?

/-- The string of a text, if it holds no surrogate. -/
def toString? (t : Text) : Option String := t.toChars?.map String.ofList

/-- A run of surrogates, the first that encoding meets: where it starts and how many they are. -/
structure Unencodable where
  /-- The offset of the first surrogate. -/
  start : Nat
  /-- The code point found there. -/
  found : CodePoint
  /-- The number of surrogates in a row. -/
  count : Nat
  deriving DecidableEq, Repr

/-- The first run of surrogates of a text, if it has one. -/
def unencodable? (t : Text) : Option Unencodable :=
  match t.dropWhile (!·.isSurrogate) with
  | [] => none
  | c :: cs =>
    some ⟨(t.takeWhile (!·.isSurrogate)).length, c, 1 + (cs.takeWhile (·.isSurrogate)).length⟩

/-- The text that would be shown for a failed encoding. -/
def Unencodable.message (e : Unencodable) : String :=
  if e.count = 1 then
    "'utf-8' codec can't encode character '\\u" ++ String.ofList (Nat.toDigits 16 e.found.val) ++
      "' in position " ++ toString e.start ++ ": surrogates not allowed"
  else
    "'utf-8' codec can't encode characters in position " ++ toString e.start ++ "-" ++
      toString (e.start + e.count - 1) ++ ": surrogates not allowed"

/-- The string of a text as it leaves the program, or the surrogates that cannot be encoded. -/
def encoded (t : Text) : Except Unencodable String :=
  match t.unencodable? with
  | some e => .error e
  | none => .ok (String.ofList (t.filterMap CodePoint.toChar?))

/-- Drops white space from both ends. -/
def trim (t : Text) : Text :=
  ((t.dropWhile (·.isBlank)).reverse.dropWhile (·.isBlank)).reverse

end Text

namespace Characters

/-- White space, as `CodePoint.isBlank`. -/
def isBlank (c : Char) : Bool := (CodePoint.ofChar c).isBlank

/-- Drops white space from both ends of a list of characters. -/
def trim (cs : List Char) : List Char := ((cs.dropWhile isBlank).reverse.dropWhile isBlank).reverse

/-- The capital letters of ASCII in lower case, all else as it is. -/
def lower (cs : List Char) : List Char := cs.map Char.toLower

/-- Cuts a list at every separator; one piece more than there are separators. -/
def splitOn {α : Type} [DecidableEq α] (sep : α) : List α → List (List α)
  | [] => [[]]
  | c :: cs =>
    if c = sep then [] :: splitOn sep cs
    else
      match splitOn sep cs with
      | [] => [[c]]
      | p :: ps => (c :: p) :: ps

end Characters

end Maintainability
