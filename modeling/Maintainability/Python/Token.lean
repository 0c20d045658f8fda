/-
The tokens of Python, before line ends and indentation are considered. White space is dropped, but
every token knows whether a line break stands before it and how far its line is indented; comments
are kept, because a block reaches over those that belong to it. A formatted string becomes a pair
of tokens with the tokens of its replacement fields between them.
-/
import Maintainability.Text.Identifier

namespace Maintainability.Python

/-- A token of the text, or a comment. -/
structure Lexeme where
  /-- The kind: a keyword's or a sign's own text, or a class. -/
  kind : String
  /-- The text. -/
  text : String
  /-- The offset of the first byte. -/
  start : Nat
  /-- The offset behind the last byte. -/
  stop : Nat
  /-- Named in the tree. -/
  named : Bool
  /-- A line break stands before it. -/
  fresh : Bool
  /-- The indentation of its line, if it is the first on it. -/
  indent : Nat
  deriving Repr, Inhabited

/-- The reserved words. Words reserved only in places (`match`, `case`, ...) are identifiers. -/
def keywords : List String :=
  ["False", "None", "True", "and", "as", "assert", "async", "await", "break", "class", "continue",
    "def", "del", "elif", "else", "except", "finally", "for", "from", "global", "if", "import",
    "in", "is", "lambda", "nonlocal", "not", "or", "pass", "raise", "return", "try", "while",
    "with", "yield"]

/-- The signs, longer ones before those they begin with. -/
def signs : List String :=
  ["**=", "//=", ">>=", "<<=", "...", "!=", "==", "<=", ">=", "<>", "->", ":=", "+=", "-=", "*=",
    "/=", "%=", "&=", "|=", "^=", "@=", "**", "//", "<<", ">>", "+", "-", "*", "/", "%", "@", "&",
    "|", "^", "~", "<", ">", "(", ")", "[", "]", "\x7b", "\x7d", ",", ":", ".", ";", "="]

/-- What the characters are read as: program text inside a bracket or a replacement field, the
text of a formatted string, or the text of a format specification. -/
inductive Mode where
  | bracket
  | field
  | string (quote : Char) (triple raw : Bool)
  | format
  deriving DecidableEq, Repr

/-- The way white space moves the indentation: a tab counts for eight, and a carriage return or a
form feed starts over. -/
def indentation : List Char → Nat → Nat
  | [], n => n
  | c :: cs, n =>
    if c = '\t' then indentation cs (n + 8)
    else if c = '\n' ∨ c = '\r' ∨ c = '\x0c' then indentation cs 0
    else indentation cs (n + 1)

/-- White space between tokens. -/
def isBlank (c : Char) : Bool :=
  let n := c.toNat
  (0x09 ≤ n && n ≤ 0x0D) || n == 0x20 || n == 0x85 || n == 0xA0 || n == 0x1680 ||
  (0x2000 ≤ n && n ≤ 0x200B) || n == 0x2028 || n == 0x2029 || n == 0x202F || n == 0x205F ||
  n == 0x2060 || n == 0x3000 || n == 0xFEFF

/-- A letter that may stand before the quote of a string. -/
def isStringFlag (c : Char) : Bool := ['f', 'F', 'r', 'R', 'b', 'B', 'u', 'U'].contains c

/-- The opening of a string: its flags and its quote, and how many characters they are. -/
def opening? (cs : List Char) : Option (List Char × Char × Bool × Nat) :=
  let flags := cs.takeWhile isStringFlag
  match cs.drop flags.length with
  | '"' :: '"' :: '"' :: _ => some (flags, '"', true, flags.length + 3)
  | '\x27' :: '\x27' :: '\x27' :: _ => some (flags, '\x27', true, flags.length + 3)
  | '"' :: _ => some (flags, '"', false, flags.length + 1)
  | '\x27' :: _ => some (flags, '\x27', false, flags.length + 1)
  | _ => none

/-- The closing quotes stand here. -/
def closes (quote : Char) (triple : Bool) (cs : List Char) : Bool :=
  (if triple then [quote, quote, quote] else [quote]).isPrefixOf cs

/-- The number of characters up to the end of a plain string, from behind its opening. -/
def plainString? (quote : Char) (triple : Bool) : List Char → Option Nat
  | [] => none
  | '\\' :: '\r' :: '\n' :: cs => (plainString? quote triple cs).map (· + 3)
  | '\\' :: _ :: cs => (plainString? quote triple cs).map (· + 2)
  | c :: cs =>
    if closes quote triple (c :: cs) then some (if triple then 3 else 1)
    else if c = '\n' ∧ !triple then none
    else (plainString? quote triple cs).map (· + 1)

/-- What ends a stretch of text in a formatted string. -/
inductive Stretch where
  | close
  | field
  deriving DecidableEq, Repr

/-- The number of characters of text in a formatted string, and what comes behind them. Inside the
name of a named character everything up to the closing brace is text. -/
def stretch? (quote : Char) (triple raw : Bool) : Bool → List Char → Option (Nat × Stretch)
  | _, [] => none
  | true, c :: cs => (stretch? quote triple raw (c ≠ '\x7d') cs).map fun (n, e) => (n + 1, e)
  | false, '\x7b' :: '\x7b' :: cs =>
    (stretch? quote triple raw false cs).map fun (n, e) => (n + 2, e)
  | false, '\x7d' :: '\x7d' :: cs =>
    (stretch? quote triple raw false cs).map fun (n, e) => (n + 2, e)
  | false, '\x7b' :: _ => some (0, .field)
  | false, '\x7d' :: _ => none
  | false, '\\' :: 'N' :: '\x7b' :: cs =>
    if raw then (stretch? quote triple raw false ('\x7b' :: cs)).map fun (n, e) => (n + 2, e)
    else (stretch? quote triple raw true cs).map fun (n, e) => (n + 3, e)
  | false, '\\' :: c :: cs =>
    if c = '\x7b' ∨ c = '\x7d' then
      (stretch? quote triple raw false (c :: cs)).map fun (n, e) => (n + 1, e)
    else (stretch? quote triple raw false cs).map fun (n, e) => (n + 2, e)
  | false, c :: cs =>
    if closes quote triple (c :: cs) then some (0, .close)
    else if c = '\n' ∧ !triple then none
    else (stretch? quote triple raw false cs).map fun (n, e) => (n + 1, e)

/-- The length of a run of digits and underscores, if it begins with a digit. -/
def digitRun (isDigit : Char → Bool) (cs : List Char) : Nat :=
  match cs with
  | c :: _ => if isDigit c then (cs.takeWhile fun c => isDigit c || c == '_').length else 0
  | [] => 0

/-- A hexadecimal digit. -/
def isHexDigit (c : Char) : Bool := c.isDigit || ('a' ≤ c && c ≤ 'f') || ('A' ≤ c && c ≤ 'F')

/-- The length of an exponent, if one stands here. -/
def exponent (cs : List Char) : Nat :=
  match cs with
  | c :: cs =>
    if c = 'e' ∨ c = 'E' then
      let sign := match cs with
        | d :: _ => if d = '+' ∨ d = '-' then 1 else 0
        | [] => 0
      let n := digitRun Char.isDigit (cs.drop sign)
      if n = 0 then 0 else 1 + sign + n
    else 0
  | [] => 0

/-- The length of the number that stands here, 0 if there is none. -/
def number (cs : List Char) : Nat :=
  let based (isDigit : Char → Bool) (rest : List Char) : Nat :=
    2 + (rest.takeWhile fun c => isDigit c || c == '_').length
  match cs with
  | '0' :: x :: rest =>
    if x = 'x' ∨ x = 'X' then based isHexDigit rest
    else if x = 'o' ∨ x = 'O' ∨ x = 'b' ∨ x = 'B' then based Char.isDigit rest
    else decimal cs
  | _ => decimal cs
where
  /-- The length of a number in decimal. -/
  decimal (cs : List Char) : Nat :=
    let n := digitRun Char.isDigit cs
    let m := match cs.drop n with
      | '.' :: more =>
        let k := digitRun Char.isDigit more
        if n = 0 ∧ k = 0 then 0 else 1 + k
      | _ => 0
    if n + m = 0 then 0
    else
      let e := exponent (cs.drop (n + m))
      let suffix := match cs.drop (n + m + e) with
        | c :: _ => if ['j', 'J', 'l', 'L'].contains c then 1 else 0
        | [] => 0
      n + m + e + suffix

/-- Where the reader of characters stands. -/
structure Cursor where
  /-- The open brackets and strings, the innermost first. -/
  modes : List Mode := []
  /-- The offset of the next byte. -/
  pos : Nat := 0
  /-- A line break stands before the next token. -/
  fresh : Bool := true
  /-- The indentation so far. -/
  indent : Nat := 0

/-- The number of bytes of some characters in UTF-8. -/
def byteLength (cs : List Char) : Nat := cs.foldl (fun n c => n + c.utf8Size) 0

/-- What the characters in front are: how many of them, the token they make (its kind and whether
it is named), and the open modes behind it. No token is white space or plain text. -/
def front? (modes : List Mode) (cs : List Char) :
    Option (Nat × Option (String × Bool) × List Mode) :=
  match modes with
  | .string quote triple raw :: outer =>
    match stretch? quote triple raw false cs with
    | some (0, .close) => some (if triple then 3 else 1, some ("string_end", false), outer)
    | some (0, .field) => some (1, some ("\x7b", false), .field :: modes)
    | some (n, _) => some (n, none, modes)
    | none => none
  | .format :: outer =>
    match cs with
    | '\x7b' :: _ => some (1, some ("\x7b", false), .field :: modes)
    | '\x7d' :: _ => some (0, none, outer)
    | _ => some ((cs.takeWhile fun c => c ≠ '\x7b' && c ≠ '\x7d').length, none, modes)
  | _ =>
    match cs with
    | [] => none
    | '#' :: more => some (1 + (more.takeWhile (· ≠ '\n')).length, some ("comment", true), modes)
    | '\\' :: '\n' :: _ => some (2, none, modes)
    | '\\' :: '\r' :: '\n' :: _ => some (3, none, modes)
    | ['\\'] => some (1, none, modes)
    | c :: rest =>
      match opening? cs with
      | some (flags, quote, triple, n) =>
        let raw := flags.any fun f => f == 'r' || f == 'R'
        if flags.any fun f => f == 'f' || f == 'F' then
          some (n, some ("string_start", false), .string quote triple raw :: modes)
        else (plainString? quote triple (cs.drop n)).map fun m => (n + m, some ("string", true), modes)
      | none =>
        if Identifier.isStart c then
          let word := cs.takeWhile Identifier.isContinue
          let text := String.ofList word
          some (word.length, some (if keywords.contains text then (text, false)
            else ("identifier", true)), modes)
        else
          let n := number cs
          if 0 < n then some (n, some ("number", true), modes)
          else sign? c rest
where
  /-- A sign, or what only a replacement field gives a meaning to. -/
  sign? (c : Char) (rest : List Char) : Option (Nat × Option (String × Bool) × List Mode) :=
    let inField := modes.head? == some .field
    if inField ∧ c = '\x7d' then some (1, some ("\x7d", false), modes.tail)
    else if inField ∧ c = ':' then some (1, some (":", false), .format :: modes)
    else if inField ∧ c = '!' ∧ rest.head?.any Char.isLower then
      some (2, some ("type_conversion", true), modes)
    else
      match signs.find? fun s => s.toList.isPrefixOf (c :: rest) with
      | none => none
      | some s =>
        let modes :=
          if ["(", "[", "\x7b"].contains s then Mode.bracket :: modes
          else if [")", "]", "\x7d"].contains s ∧ modes.head? = some .bracket then modes.tail
          else modes
        some (s.length, some (s, false), modes)

/-- The modes in which the characters are program text. -/
def isProgram (modes : List Mode) : Bool :=
  match modes with
  | .string _ _ _ :: _ | .format :: _ => false
  | _ => true

/-- All tokens and comments from a cursor on; `none` if some characters make no token. -/
def lexemesFrom : Nat → Cursor → List Char → Array Lexeme → Option (Array Lexeme)
  | 0, _, cs, found => if cs.isEmpty then some found else none
  | fuel + 1, cur, cs, found =>
    let blanks := if isProgram cur.modes then cs.takeWhile isBlank else []
    if !blanks.isEmpty then
      let cur := { cur with
        pos := cur.pos + byteLength blanks
        fresh := cur.fresh || blanks.contains '\n'
        indent := indentation blanks cur.indent }
      lexemesFrom fuel cur (cs.drop blanks.length) found
    else if cs.isEmpty then
      if isProgram cur.modes then some found else none
    else
      match front? cur.modes cs with
      | none => none
      | some (n, token, modes) =>
        let taken := cs.take n
        let stop := cur.pos + byteLength taken
        match token with
        | none => lexemesFrom fuel { cur with modes := modes, pos := stop } (cs.drop n) found
        | some (kind, named) =>
          let lexeme := ⟨kind, String.ofList taken, cur.pos, stop, named, cur.fresh, cur.indent⟩
          lexemesFrom fuel { modes := modes, pos := stop, fresh := false, indent := 0 }
            (cs.drop n) (found.push lexeme)

/-- The tokens and comments of a text. -/
def lexemes? (cs : List Char) : Option (Array Lexeme) :=
  lexemesFrom (2 * cs.length + 2) {} cs #[]

end Maintainability.Python
