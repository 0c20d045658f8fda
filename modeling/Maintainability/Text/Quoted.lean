/-
Texts in quotes, for messages. Single quotes are used unless the text holds one and no double
quote; the quote in use and the backslash are escaped, and so is what has no shape of its own.
-/
import Maintainability.Text.Printable

namespace Maintainability.Quoted

/-- Hexadecimal digits, filled up with zeros to a width. -/
def hex (width n : Nat) : List Char :=
  let ds := Nat.toDigits 16 n
  List.replicate (width - ds.length) '0' ++ ds

/-- A code point by its number. -/
def byNumber (n : Nat) : List Char :=
  if n < 0x100 then '\\' :: 'x' :: hex 2 n
  else if n < 0x10000 then '\\' :: 'u' :: hex 4 n
  else '\\' :: 'U' :: hex 8 n

/-- A code point between quotes. -/
def escape (quote : Nat) (c : CodePoint) : List Char :=
  if c.val = quote ∨ c.val = 0x5C then ['\\', Char.ofNat c.val]
  else if c.val = 0x0A then ['\\', 'n']
  else if c.val = 0x0D then ['\\', 'r']
  else if c.val = 0x09 then ['\\', 't']
  else if c.isPrintable then [Char.ofNat c.val]
  else byNumber c.val

/-- The quote for a text: single, unless it holds single quotes only. -/
def quoteFor (t : Text) : Nat :=
  if t.any (·.val == 0x27) && !t.any (·.val == 0x22) then 0x22 else 0x27

/-- A text in quotes. -/
def text (t : Text) : String :=
  let q := quoteFor t
  String.ofList (Char.ofNat q :: (t.flatMap (escape q) ++ [Char.ofNat q]))

/-- A string in quotes. -/
def string (s : String) : String := text (.ofString s)

/-- A byte between quotes. -/
def escapeByte (quote : Nat) (b : UInt8) : List Char :=
  let n := b.toNat
  if n = quote ∨ n = 0x5C then ['\\', Char.ofNat n]
  else if n = 0x0A then ['\\', 'n']
  else if n = 0x0D then ['\\', 'r']
  else if n = 0x09 then ['\\', 't']
  else if 0x20 ≤ n ∧ n ≤ 0x7E then [Char.ofNat n]
  else byNumber n

/-- Bytes in quotes, behind a `b`. -/
def bytes (bs : List UInt8) : String :=
  let q := if bs.contains 0x27 && !bs.contains 0x22 then 0x22 else 0x27
  String.ofList ('b' :: Char.ofNat q :: (bs.flatMap (escapeByte q) ++ [Char.ofNat q]))

end Maintainability.Quoted
