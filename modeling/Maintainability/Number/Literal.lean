/-
Reading numbers. An integer is a sign and decimal digits; a number with a fraction adds a point and
an exponent, or is one of the words for infinity and NaN. Digits of any script count by their
value, and single underscores may stand between two digits. Doubles are the nearest to what is
written.
-/
import Maintainability.Number.Binary64
import Maintainability.Text

namespace Maintainability.Literal

/-- The zeros of all decimal digits; the other nine digits of a script follow its zero. -/
def zeros : List Nat :=
  [0x30, 0x660, 0x6F0, 0x7C0, 0x966, 0x9E6, 0xA66, 0xAE6, 0xB66, 0xBE6, 0xC66, 0xCE6, 0xD66, 0xDE6,
    0xE50, 0xED0, 0xF20, 0x1040, 0x1090, 0x17E0, 0x1810, 0x1946, 0x19D0, 0x1A80, 0x1A90, 0x1B50,
    0x1BB0, 0x1C40, 0x1C50, 0xA620, 0xA8D0, 0xA900, 0xA9D0, 0xA9F0, 0xAA50, 0xABF0, 0xFF10, 0x104A0,
    0x10D30, 0x11066, 0x110F0, 0x11136, 0x111D0, 0x112F0, 0x11450, 0x114D0, 0x11650, 0x116C0,
    0x11730, 0x118E0, 0x11950, 0x11C50, 0x11D50, 0x11DA0, 0x16A60, 0x16AC0, 0x16B50, 0x1D7CE,
    0x1D7D8, 0x1D7E2, 0x1D7EC, 0x1D7F6, 0x1E140, 0x1E2F0, 0x1E950, 0x1FBF0]

/-- The value of a decimal digit. -/
def digit? (c : Char) : Option Nat :=
  (zeros.find? fun z => z ≤ c.toNat && c.toNat < z + 10).map (c.toNat - ·)

/-- Every digit as the ASCII digit of the same value. -/
def plainDigits (cs : List Char) : List Char :=
  cs.map fun c => match digit? c with
    | some d => Nat.digitChar d
    | none => c

/-- Drops the underscores that stand between two digits; other underscores stay. -/
def joinDigits : List Char → List Char
  | [] => []
  | [c] => [c]
  | [c, d] => [c, d]
  | c :: d :: e :: rest =>
    if c.isDigit ∧ d = '_' ∧ e.isDigit then c :: joinDigits (e :: rest)
    else c :: joinDigits (d :: e :: rest)

/-- The number that ASCII digits write. -/
def natural (ds : List Char) : Nat := ds.foldl (fun n c => 10 * n + (c.toNat - 48)) 0

/-- The sign in front, and what follows it. -/
def sign : List Char → Bool × List Char
  | '-' :: rest => (true, rest)
  | '+' :: rest => (false, rest)
  | rest => (false, rest)

/-- Characters that write a number, reduced to ASCII digits without underscores. -/
def reduced (cs : List Char) : List Char := joinDigits (plainDigits (Characters.trim cs))

/-- An integer with as many digits as there are. -/
def int? (cs : List Char) : Option Int :=
  let (negative, ds) := sign (reduced cs)
  if ds.isEmpty ∨ ¬ ds.all Char.isDigit then none
  else some (if negative then -(natural ds : Int) else natural ds)

/-- The number of digits of an integer. -/
def digitCount (cs : List Char) : Nat := (sign (reduced cs)).2.length

/-- The most decimal digits with which an integer is read or shown. -/
def maxDigits : Nat := 4300

/-- An integer that can be written. -/
def Short (n : Int) : Prop := (Nat.toDigits 10 n.natAbs).length ≤ maxDigits

instance (n : Int) : Decidable (Short n) := inferInstanceAs (Decidable (_ ≤ _))

theorem short_iff {n : Int} : Short n ↔ n.natAbs < Nat.pow 10 maxDigits := by
  have h := Nat.length_toDigits_le_iff (b := 10) (n := n.natAbs) (k := maxDigits) (by decide) (by decide)
  simp [Short, h]

/-- The complaint about an integer beyond the limit, with what was found. -/
def beyondLimit (found : String) : String :=
  "Exceeds the limit (" ++ toString maxDigits ++ " digits) for integer string conversion" ++ found ++
    "; use sys.set_int_max_str_digits() to increase the limit"

/-- The complaint about an integer that is written with so many digits. -/
def tooLong (count : Nat) : String := beyondLimit (": value has " ++ toString count ++ " digits")

/-- `± n * 10 ^ e`, to the nearest double. An exponent that leaves all doubles far behind need not
be worked out. -/
def scaled (negative : Bool) (n : Nat) (e : Int) : Float :=
  let size : Int := (Nat.toDigits 10 n).length
  if n = 0 ∨ e + size < -400 then Binary64.ofSigned negative 0
  else if 400 < e + size then (if negative then -Binary64.infinity else Binary64.infinity)
  else if 0 ≤ e then Binary64.ofRatio negative (n * Nat.pow 10 e.toNat) 1
  else Binary64.ofRatio negative n (Nat.pow 10 (-e).toNat)

/-- An exponent: a mark, a sign and digits; nothing at all means 0. -/
def exponent? : List Char → Option Int
  | [] => some 0
  | c :: rest =>
    let (negative, ds) := sign rest
    if (c = 'e' ∨ c = 'E') ∧ ¬ ds.isEmpty ∧ ds.all Char.isDigit then
      some (if negative then -(natural ds : Int) else natural ds)
    else none

/-- Digits with or without a point, and an exponent. -/
def decimal? (negative : Bool) (cs : List Char) : Option Float :=
  let whole := cs.takeWhile Char.isDigit
  let (fraction, rest) := match cs.dropWhile Char.isDigit with
    | '.' :: more => (more.takeWhile Char.isDigit, more.dropWhile Char.isDigit)
    | rest => ([], rest)
  if whole.isEmpty ∧ fraction.isEmpty then none
  else
    (exponent? rest).map fun e =>
      scaled negative (natural (whole ++ fraction)) (e - fraction.length)

/-- A number with or without a fraction, an infinity or a NaN. -/
def real? (cs : List Char) : Option Float :=
  let (negative, rest) := sign (reduced cs)
  let word := String.ofList (Characters.lower rest)
  if word = "inf" ∨ word = "infinity" then
    some (if negative then -Binary64.infinity else Binary64.infinity)
  else if word = "nan" then some Binary64.notANumber
  else decimal? negative rest

end Maintainability.Literal
