/-
The tokens of Java. Comments and white space are dropped. A sign that ends in `>` is cut into
single `>` signs, because the same characters also close nested type arguments; the grammar puts
shifts together again from signs with no space between.
-/
import Maintainability.Grammar
import Maintainability.Text.Identifier

namespace Maintainability.Java

open Grammar (Token)

/-- The reserved words. Words reserved only in places (`record`, `when`, ...) are identifiers. -/
def keywords : List String :=
  ["abstract", "assert", "boolean", "break", "byte", "case", "catch", "char", "class", "continue",
    "default", "do", "double", "else", "enum", "extends", "final", "finally", "float", "for", "if",
    "implements", "import", "instanceof", "int", "interface", "long", "native", "new", "package",
    "private", "protected", "public", "return", "short", "static", "strictfp", "super", "switch",
    "synchronized", "this", "throw", "throws", "transient", "try", "void", "volatile", "while",
    "true", "false", "null"]

/-- The signs, longer ones before those they begin with. -/
def signs : List String :=
  ["...", "<<=", "->", "::", "++", "--", "&&", "||", "==", "!=", "<=", ">=", "<<", "+=", "-=",
    "*=", "/=", "&=", "|=", "^=", "%=", "(", ")", "\x7b", "\x7d", "[", "]", ";", ",", ".", "@",
    "=", "<", ">", "!", "~", "?", ":", "+", "-", "*", "/", "&", "|", "^", "%"]

/-- White space between tokens. -/
def isBlank (c : Char) : Bool :=
  let n := c.toNat
  (0x09 ≤ n && n ≤ 0x0D) || n == 0x20 || n == 0x85 || n == 0xA0 || n == 0x1680 ||
  (0x2000 ≤ n && n ≤ 0x200A) || n == 0x2028 || n == 0x2029 || n == 0x202F || n == 0x205F ||
  n == 0x3000

/-- A character that may begin a name. -/
def isNameStart (c : Char) : Bool := Identifier.isStart c || c == '$'

/-- A character that may continue a name. -/
def isNamePart (c : Char) : Bool := Identifier.isContinue c || c == '$'

/-- The number of characters up to the end of a block comment, from behind its opening. -/
def blockComment? : List Char → Option Nat
  | [] => none
  | '*' :: '/' :: _ => some 2
  | _ :: cs => (blockComment? cs).map (· + 1)

/-- The number of characters up to the end of a quoted literal, from behind its opening. -/
def quoted? (close : Char) (multiline : Bool) : List Char → Option Nat
  | [] => none
  | '\\' :: _ :: cs => (quoted? close multiline cs).map (· + 2)
  | c :: cs =>
    if c = close then some 1
    else if c = '\n' ∧ !multiline then none
    else (quoted? close multiline cs).map (· + 1)

/-- The number of characters up to the end of a text block, from behind its opening. -/
def textBlock? : List Char → Option Nat
  | [] => none
  | '\\' :: _ :: cs => (textBlock? cs).map (· + 2)
  | '"' :: '"' :: '"' :: _ => some 3
  | _ :: cs => (textBlock? cs).map (· + 1)

/-- The length of a run of digits and underscores, if it begins with a digit. -/
def digitRun (isDigit : Char → Bool) (cs : List Char) : Nat :=
  match cs with
  | c :: _ => if isDigit c then (cs.takeWhile fun c => isDigit c || c == '_').length else 0
  | [] => 0

/-- The length of an exponent with one of two marks, if one stands here. -/
def exponent (mark capital : Char) (cs : List Char) : Nat :=
  match cs with
  | c :: cs =>
    if c = mark ∨ c = capital then
      let sign := match cs with
        | d :: _ => if d = '+' ∨ d = '-' then 1 else 0
        | [] => 0
      let n := digitRun Char.isDigit (cs.drop sign)
      if n = 0 then 0 else 1 + sign + n
    else 0
  | [] => 0

/-- A hexadecimal digit. -/
def isHexDigit (c : Char) : Bool := c.isDigit || ('a' ≤ c && c ≤ 'f') || ('A' ≤ c && c ≤ 'F')

/-- The length of a type suffix. -/
def suffix (cs : List Char) : Nat :=
  match cs with
  | c :: _ => if ['l', 'L', 'f', 'F', 'd', 'D'].contains c then 1 else 0
  | [] => 0

/-- The length of the number that stands here, 0 if there is none. -/
def number (cs : List Char) : Nat :=
  let close (n : Nat) : Nat := n + suffix (cs.drop n)
  match cs with
  | '0' :: x :: rest =>
    if (x = 'x' ∨ x = 'X') then
      let n := digitRun isHexDigit rest
      let m := match rest.drop n with
        | '.' :: more => 1 + digitRun isHexDigit more
        | _ => 0
      let e := exponent 'p' 'P' (rest.drop (n + m))
      if e = 0 then close (2 + n) else close (2 + n + m + e)
    else if x = 'b' ∨ x = 'B' then close (2 + digitRun Char.isDigit rest)
    else decimal cs
  | _ => decimal cs
where
  /-- The length of a number in decimal. -/
  decimal (cs : List Char) : Nat :=
    let n := digitRun Char.isDigit cs
    let m := match cs.drop n with
      | '.' :: more =>
        let k := digitRun Char.isDigit more
        if n = 0 ∧ k = 0 then 0 else 1 + k
      | _ => 0
    if n + m = 0 then 0
    else
      let e := exponent 'e' 'E' (cs.drop (n + m))
      n + m + e + suffix (cs.drop (n + m + e))

/-- What stands at the front of a text: the kind of token, whether it is named, and its length in
characters. An empty kind is white space or a comment. -/
def front? (cs : List Char) : Option (String × Bool × Nat) :=
  match cs with
  | [] => none
  | c :: rest =>
    if isBlank c then some ("", false, (cs.takeWhile isBlank).length)
    else if isNameStart c then
      let name := cs.takeWhile isNamePart
      let text := String.ofList name
      some (if keywords.contains text then (text, false, name.length)
        else ("identifier", true, name.length))
    else
      match cs with
      | '/' :: '/' :: more => some ("", false, 2 + (more.takeWhile (· ≠ '\n')).length)
      | '/' :: '*' :: more => (blockComment? more).map fun n => ("", false, 2 + n)
      | '"' :: '"' :: '"' :: more => (textBlock? more).map fun n => ("string_literal", true, 3 + n)
      | '"' :: more => (quoted? '"' true more).map fun n => ("string_literal", true, 1 + n)
      | '\x27' :: '\x27' :: _ => none
      | '\x27' :: more => (quoted? '\x27' false more).map fun n => ("character_literal", true, 1 + n)
      | _ =>
        let n := number cs
        if 0 < n then some ("number_literal", true, n)
        else if c = '@' ∧ "interface".toList.isPrefixOf rest ∧
            !((rest.drop 9).head?.any isNamePart) then
          some ("@interface", false, 10)
        else (signs.find? fun s => s.toList.isPrefixOf cs).map fun s => (s, false, s.length)

/-- The number of bytes of some characters in UTF-8. -/
def byteLength (cs : List Char) : Nat := cs.foldl (fun n c => n + c.utf8Size) 0

/-- All tokens of a text whose first character has offset `pos`, in front of those given with the
last one first; `none` if some character begins no token. -/
def tokensFrom : Nat → Nat → List Char → Array Token → Option (Array Token)
  | _, _, [], found => some found
  | 0, _, _ :: _, _ => none
  | fuel + 1, pos, cs, found =>
    match front? cs with
    | some (kind, named, n) =>
      if n = 0 then none
      else
        let taken := cs.take n
        let stop := pos + byteLength taken
        tokensFrom fuel stop (cs.drop n)
          (if kind.isEmpty then found
            else found.push ⟨kind, String.ofList taken, pos, stop, named, true⟩)
    | none => none

/-- The tokens of a text; a leading byte order mark is passed over. -/
def tokens? (cs : List Char) : Option (Array Token) :=
  match cs with
  | '\uFEFF' :: rest => tokensFrom rest.length 3 rest #[]
  | _ => tokensFrom cs.length 0 cs #[]

end Maintainability.Java
