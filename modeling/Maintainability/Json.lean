/-
JSON values and their written form. Numbers with a fraction or an exponent are kept as the literal
that was written, so nothing is lost between writing and reading. `render` lays a value out over
lines, `compact` puts it on one; both write ASCII only, characters beyond U+FFFF as a pair of
escapes. `parse?` reads either back.
-/
namespace Maintainability

/-- A JSON value. Members keep the order in which they are written. -/
inductive Json where
  | null
  | bool (b : Bool)
  | int (n : Int)
  | real (literal : String)
  | str (s : String)
  | arr (items : List Json)
  | obj (members : List (String × Json))
  deriving Repr, Inhabited

namespace Json

/-! ## Writing -/

/-- Four hexadecimal digits. -/
def hex4 (n : Nat) : List Char :=
  [Nat.digitChar (n / 4096 % 16), Nat.digitChar (n / 256 % 16), Nat.digitChar (n / 16 % 16),
    Nat.digitChar (n % 16)]

/-- The escape of a UTF-16 unit. -/
def unitEscape (n : Nat) : List Char := '\\' :: 'u' :: hex4 n

/-- A character inside a string. -/
def escapeChar (c : Char) : List Char :=
  if c = '"' then ['\\', '"']
  else if c = '\\' then ['\\', '\\']
  else if c = '\n' then ['\\', 'n']
  else if c = '\r' then ['\\', 'r']
  else if c = '\t' then ['\\', 't']
  else if c = '\x08' then ['\\', 'b']
  else if c = '\x0c' then ['\\', 'f']
  else if 0x20 ≤ c.toNat ∧ c.toNat ≤ 0x7E then [c]
  else if c.toNat < 0x10000 then unitEscape c.toNat
  else
    let n := c.toNat - 0x10000
    unitEscape (0xD800 + n / 0x400) ++ unitEscape (0xDC00 + n % 0x400)

/-- A string in quotes. -/
def quote (s : String) : List Char := '"' :: (s.toList.flatMap escapeChar ++ ['"'])

/-- An integer in decimal. -/
def intText (n : Int) : List Char :=
  if n < 0 then '-' :: Nat.toDigits 10 n.natAbs else Nat.toDigits 10 n.natAbs

/-- A line break and two spaces a level. -/
def newline (depth : Nat) : List Char := '\n' :: List.replicate (2 * depth) ' '

mutual

/-- A value laid out over lines, at a nesting depth. -/
def write (depth : Nat) : Json → List Char
  | .null => ['n', 'u', 'l', 'l']
  | .bool true => ['t', 'r', 'u', 'e']
  | .bool false => ['f', 'a', 'l', 's', 'e']
  | .int n => intText n
  | .real literal => literal.toList
  | .str s => quote s
  | .arr [] => ['[', ']']
  | .arr (x :: xs) =>
    '[' :: (newline (depth + 1) ++ write (depth + 1) x ++ writeItems (depth + 1) xs ++
      newline depth ++ [']'])
  | .obj [] => ['\x7b', '\x7d']
  | .obj ((k, v) :: rest) =>
    '\x7b' :: (newline (depth + 1) ++ quote k ++ ':' :: ' ' :: write (depth + 1) v ++
      writeMembers (depth + 1) rest ++ newline depth ++ ['\x7d'])

/-- The items after the first. -/
def writeItems (depth : Nat) : List Json → List Char
  | [] => []
  | x :: xs => ',' :: (newline depth ++ write depth x ++ writeItems depth xs)

/-- The members after the first. -/
def writeMembers (depth : Nat) : List (String × Json) → List Char
  | [] => []
  | (k, v) :: rest =>
    ',' :: (newline depth ++ quote k ++ ':' :: ' ' :: write depth v ++ writeMembers depth rest)

end

mutual

/-- The values without parts in a value. -/
def leaves : Json → List Json
  | .arr xs => leavesOf xs
  | .obj ms => leavesIn ms
  | j => [j]

/-- The values without parts in items. -/
def leavesOf : List Json → List Json
  | [] => []
  | x :: xs => leaves x ++ leavesOf xs

/-- The values without parts in members. -/
def leavesIn : List (String × Json) → List Json
  | [] => []
  | (_, v) :: rest => leaves v ++ leavesIn rest

end

/-- The integers in a value. -/
def integers (j : Json) : List Int :=
  j.leaves.filterMap fun
    | .int n => some n
    | _ => none

/-- The literals of the numbers with a fraction in a value. -/
def literals (j : Json) : List String :=
  j.leaves.filterMap fun
    | .real literal => some literal
    | _ => none

/-- A value laid out over lines. -/
def render (j : Json) : String := String.ofList (write 0 j)

mutual

/-- A value on one line, put in front of what follows. -/
def compactOnto : Json → List Char → List Char
  | .null, k => 'n' :: 'u' :: 'l' :: 'l' :: k
  | .bool true, k => 't' :: 'r' :: 'u' :: 'e' :: k
  | .bool false, k => 'f' :: 'a' :: 'l' :: 's' :: 'e' :: k
  | .int n, k => intText n ++ k
  | .real literal, k => literal.toList ++ k
  | .str s, k => quote s ++ k
  | .arr xs, k => '[' :: compactItems xs (']' :: k)
  | .obj kvs, k => '\x7b' :: compactMembers kvs ('\x7d' :: k)

/-- Items on one line. -/
def compactItems : List Json → List Char → List Char
  | [], k => k
  | [x], k => compactOnto x k
  | x :: xs, k => compactOnto x (',' :: compactItems xs k)

/-- Members on one line. -/
def compactMembers : List (String × Json) → List Char → List Char
  | [], k => k
  | [(n, v)], k => quote n ++ ':' :: compactOnto v k
  | (n, v) :: rest, k => quote n ++ ':' :: compactOnto v (',' :: compactMembers rest k)

end

/-- A value on one line. -/
def compact (j : Json) : String := String.ofList (compactOnto j [])

/-! ## Reading -/

/-- Blanks between tokens. -/
def isBlank (c : Char) : Bool := c == ' ' || c == '\n' || c == '\r' || c == '\t'

/-- Skips blanks. -/
def skip (cs : List Char) : List Char := cs.dropWhile isBlank

/-- The value of a hexadecimal digit. -/
def hexValue? (c : Char) : Option Nat :=
  if '0' ≤ c ∧ c ≤ '9' then some (c.toNat - 48)
  else if 'a' ≤ c ∧ c ≤ 'f' then some (c.toNat - 87)
  else if 'A' ≤ c ∧ c ≤ 'F' then some (c.toNat - 55)
  else none

/-- The value of four hexadecimal digits. -/
def unitValue? (a b c d : Char) : Option Nat := do
  let a ← hexValue? a
  let b ← hexValue? b
  let c ← hexValue? c
  let d ← hexValue? d
  pure (a * 4096 + b * 256 + c * 16 + d)

/-- The character of a one-letter escape. -/
def escaped? (c : Char) : Option Char :=
  if c = '"' ∨ c = '\\' ∨ c = '/' then some c
  else if c = 'n' then some '\n'
  else if c = 'r' then some '\r'
  else if c = 't' then some '\t'
  else if c = 'b' then some '\x08'
  else if c = 'f' then some '\x0c'
  else none

/-- The rest of a string up to its closing quote. -/
def stringBody? : List Char → Option (List Char × List Char)
  | [] => none
  | '"' :: rest => some ([], rest)
  | '\\' :: 'u' :: a :: b :: c :: d :: '\\' :: 'u' :: e :: f :: g :: h :: rest =>
    match unitValue? a b c d, unitValue? e f g h with
    | some n, some m =>
      if 0xD800 ≤ n ∧ n < 0xDC00 ∧ 0xDC00 ≤ m ∧ m < 0xE000 then
        (stringBody? rest).map fun (s, r) =>
          (Char.ofNat (0x10000 + (n - 0xD800) * 0x400 + (m - 0xDC00)) :: s, r)
      else if 0xD800 ≤ n ∧ n < 0xE000 then none
      else
        (stringBody? ('\\' :: 'u' :: e :: f :: g :: h :: rest)).map fun (s, r) =>
          (Char.ofNat n :: s, r)
    | _, _ => none
  | '\\' :: 'u' :: a :: b :: c :: d :: rest =>
    match unitValue? a b c d with
    | some n =>
      if 0xD800 ≤ n ∧ n < 0xE000 then none
      else (stringBody? rest).map fun (s, r) => (Char.ofNat n :: s, r)
    | none => none
  | '\\' :: c :: rest =>
    match escaped? c with
    | some x => (stringBody? rest).map fun (s, r) => (x :: s, r)
    | none => none
  | c :: rest => (stringBody? rest).map fun (s, r) => (c :: s, r)

/-- A character of a number. -/
def isNumeral (c : Char) : Bool :=
  c.isDigit || c == '-' || c == '+' || c == '.' || c == 'e' || c == 'E'

/-- A number from the characters that make it up: an integer if they are a sign and digits, else
the literal itself. -/
def numeral? (cs : List Char) : Option Json :=
  let (negative, ds) := match cs with
    | '-' :: ds => (true, ds)
    | ds => (false, ds)
  if ds.isEmpty then none
  else if ds.all Char.isDigit then
    let n : Nat := ds.foldl (fun (n : Nat) c => 10 * n + (c.toNat - 48)) 0
    some (.int (if negative then -(n : Int) else n))
  else if ds.any Char.isDigit then some (.real (String.ofList cs))
  else none

mutual

/-- A value, and what follows it. -/
def value? : Nat → List Char → Option (Json × List Char)
  | 0, _ => none
  | fuel + 1, cs =>
    match skip cs with
    | 'n' :: 'u' :: 'l' :: 'l' :: rest => some (.null, rest)
    | 't' :: 'r' :: 'u' :: 'e' :: rest => some (.bool true, rest)
    | 'f' :: 'a' :: 'l' :: 's' :: 'e' :: rest => some (.bool false, rest)
    | '"' :: rest => (stringBody? rest).map fun (s, r) => (.str (String.ofList s), r)
    | '[' :: rest =>
      match skip rest with
      | ']' :: rest => some (.arr [], rest)
      | rest => (items? fuel rest).map fun (xs, r) => (.arr xs, r)
    | '\x7b' :: rest =>
      match skip rest with
      | '\x7d' :: rest => some (.obj [], rest)
      | rest => (members? fuel rest).map fun (kvs, r) => (.obj kvs, r)
    | cs => (numeral? (cs.takeWhile isNumeral)).map fun n => (n, cs.dropWhile isNumeral)

/-- One item or more, up to the closing bracket. -/
def items? : Nat → List Char → Option (List Json × List Char)
  | 0, _ => none
  | fuel + 1, cs => do
    let (x, rest) ← value? fuel cs
    match skip rest with
    | ']' :: rest => pure ([x], rest)
    | ',' :: rest =>
      let (xs, rest) ← items? fuel rest
      pure (x :: xs, rest)
    | _ => none

/-- One member or more, up to the closing brace. -/
def members? : Nat → List Char → Option (List (String × Json) × List Char)
  | 0, _ => none
  | fuel + 1, cs =>
    match skip cs with
    | '"' :: rest => do
      let (k, rest) ← stringBody? rest
      match skip rest with
      | ':' :: rest =>
        let (v, rest) ← value? fuel rest
        match skip rest with
        | '\x7d' :: rest => pure ([(String.ofList k, v)], rest)
        | ',' :: rest =>
          let (kvs, rest) ← members? fuel rest
          pure ((String.ofList k, v) :: kvs, rest)
        | _ => none
      | _ => none
    | _ => none

end

/-- Reads a whole text as one value. -/
def parse? (s : String) : Option Json :=
  let cs := s.toList
  match value? (cs.length + 1) cs with
  | some (v, rest) => if (skip rest).isEmpty then some v else none
  | none => none

/-! ## Access -/

/-- The value of the first member with a name. -/
def member? (j : Json) (name : String) : Option Json :=
  match j with
  | .obj kvs => (kvs.find? (·.1 == name)).map (·.2)
  | _ => none

end Json

end Maintainability
