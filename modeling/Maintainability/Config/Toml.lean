/-
Configuration files in TOML 1.0. `parse` reads a whole document as a table; any departure from
the format makes it malformed. A table or array that stands on one line is closed for good, a table
may be opened by its header once, and dotted keys may not reopen what a header opened. The format
has integers of any size and arrays of any depth, but an integer in base 10 is not read if it has too
many digits, nor a value that is nested too deep.
-/
import Maintainability.Config.Value
import Maintainability.Number.Literal

namespace Maintainability.Toml

/-- The members of a table. -/
abbrev Members := List (Text × Value)

/-- A dotted key. -/
abbrev Key := List Text

/-- What is left to read. -/
abbrev Input := List Char

/-- Why a document cannot be read. -/
inductive Trouble where
  /-- It is not TOML. -/
  | malformed
  /-- An integer has so many digits. -/
  | tooLong (digits : Nat)
  /-- A value is nested too deep. -/
  | tooDeep
  deriving DecidableEq, Repr

/-- A part without which the document is malformed. -/
def required {α : Type} : Option α → Except Trouble α
  | some a => .ok a
  | none => .error .malformed

/-! ## Characters -/

/-- A blank inside a line. -/
def isBlank (c : Char) : Bool := c == ' ' || c == '\t'

/-- A blank or a line feed. -/
def isSpace (c : Char) : Bool := isBlank c || c == '\n'

/-- A control character other than the tab; none may stand in a string or a comment. -/
def isControl (c : Char) : Bool := (c.toNat < 32 && c != '\t') || c.toNat == 127

/-- A character of a key without quotes. -/
def isBare (c : Char) : Bool := c.isAlphanum || c == '-' || c == '_'

/-- Skips blanks. -/
def skipBlanks (cs : Input) : Input := cs.dropWhile isBlank

/-- Skips a comment up to the end of its line. -/
def skipComment? (cs : Input) : Option Input :=
  match cs with
  | '#' :: rest =>
    if (rest.takeWhile (· ≠ '\n')).any isControl then none else some (rest.dropWhile (· ≠ '\n'))
  | _ => some cs

/-- Skips spaces and comments, over any number of lines. -/
def skipSpace? : Nat → Input → Option Input
  | 0, cs => some cs
  | fuel + 1, cs =>
    match cs.dropWhile isSpace with
    | '#' :: rest =>
      match skipComment? ('#' :: rest) with
      | some rest => skipSpace? fuel rest
      | none => none
    | rest => some rest

/-! ## Strings -/

/-- The value of a hexadecimal digit. -/
def hex? (c : Char) : Option Nat :=
  if c.isDigit then some (c.toNat - 48)
  else if 'a' ≤ c ∧ c ≤ 'f' then some (c.toNat - 87)
  else if 'A' ≤ c ∧ c ≤ 'F' then some (c.toNat - 55)
  else none

/-- The character with a code of so many hexadecimal digits. -/
def codedChar? (width : Nat) (cs : Input) : Option (Char × Input) := do
  let ds ← (cs.take width).mapM hex?
  if ds.length = width then
    let n := ds.foldl (fun n d => 16 * n + d) 0
    if n < 0xD800 ∨ (0xE000 ≤ n ∧ n < 0x110000) then pure (Char.ofNat n, cs.drop width) else none
  else none

/-- The character of a one-letter escape. -/
def escape? (c : Char) : Option Char :=
  if c = 'b' then some '\x08'
  else if c = 't' then some '\t'
  else if c = 'n' then some '\n'
  else if c = 'f' then some '\x0c'
  else if c = 'r' then some '\r'
  else if c = '"' ∨ c = '\\' then some c
  else none

/-- What follows a line that ends in a backslash: the next character that is not a space. -/
def joinLine? (cs : Input) : Option Input :=
  match skipBlanks cs with
  | '\n' :: rest => some (rest.dropWhile isSpace)
  | _ => none

/-- An escape after its backslash: the characters that it stands for. -/
def escaped? (multiline : Bool) (cs : Input) : Option (List Char × Input) :=
  match cs with
  | [] => none
  | 'u' :: rest => (codedChar? 4 rest).map fun (c, rest) => ([c], rest)
  | 'U' :: rest => (codedChar? 8 rest).map fun (c, rest) => ([c], rest)
  | c :: rest =>
    if multiline ∧ isSpace c then (joinLine? (c :: rest)).map fun rest => ([], rest)
    else (escape? c).map fun x => ([x], rest)

/-- A string with escapes, up to its closing quotes. -/
def basicBody? (multiline : Bool) : Nat → Input → Option (List Char × Input)
  | 0, _ => none
  | fuel + 1, cs =>
    match cs with
    | [] => none
    | '"' :: rest =>
      if !multiline then some ([], rest)
      else
        match rest with
        | '"' :: '"' :: rest => some ([], rest)
        | _ => (basicBody? multiline fuel rest).map fun (s, r) => ('"' :: s, r)
    | '\\' :: rest => do
      let (x, rest) ← escaped? multiline rest
      let (s, rest) ← basicBody? multiline fuel rest
      pure (x ++ s, rest)
    | c :: rest =>
      if isControl c ∧ ¬ (multiline ∧ c = '\n') then none
      else (basicBody? multiline fuel rest).map fun (s, r) => (c :: s, r)

/-- A string without escapes on one line. -/
def literalLine? (cs : Input) : Option (List Char × Input) :=
  let body := cs.takeWhile (· ≠ '\x27')
  match cs.dropWhile (· ≠ '\x27') with
  | _ :: rest => if body.any isControl then none else some (body, rest)
  | [] => none

/-- A string without escapes up to three quotes. -/
def literalLines? : Input → Option (List Char × Input)
  | [] => none
  | '\x27' :: '\x27' :: '\x27' :: rest => some ([], rest)
  | c :: rest =>
    if isControl c ∧ c ≠ '\n' then none
    else (literalLines? rest).map fun (s, r) => (c :: s, r)

/-- Two more quotes at most right behind three closing ones belong to the string. -/
def extraQuotes (quote : Char) (body : List Char) (cs : Input) : List Char × Input :=
  match cs with
  | c :: rest =>
    if c ≠ quote then (body, cs)
    else
      match rest with
      | d :: more => if d ≠ quote then (body ++ [quote], rest) else (body ++ [quote, quote], more)
      | [] => (body ++ [quote], rest)
  | [] => (body, cs)

/-- A line feed right behind three opening quotes does not belong to the string. -/
def afterOpening : Input → Input
  | '\n' :: rest => rest
  | cs => cs

/-- A string of one of the four kinds. -/
def string? (cs : Input) : Option (List Char × Input) :=
  match cs with
  | '"' :: '"' :: '"' :: rest =>
    (basicBody? true rest.length.succ (afterOpening rest)).map fun (s, r) => extraQuotes '"' s r
  | '"' :: rest => basicBody? false rest.length.succ rest
  | '\x27' :: '\x27' :: '\x27' :: rest =>
    (literalLines? (afterOpening rest)).map fun (s, r) => extraQuotes '\x27' s r
  | '\x27' :: rest => literalLine? rest
  | _ => none

/-! ## Keys -/

/-- One part of a key. -/
def keyPart? (cs : Input) : Option (Text × Input) :=
  match cs with
  | '"' :: rest => (basicBody? false rest.length.succ rest).map fun (s, r) => (.ofChars s, r)
  | '\x27' :: rest => (literalLine? rest).map fun (s, r) => (.ofChars s, r)
  | _ =>
    let part := cs.takeWhile isBare
    if part.isEmpty then none else some (.ofChars part, cs.dropWhile isBare)

/-- A dotted key, and the blanks after it. -/
def key? : Nat → Input → Option (Key × Input)
  | 0, _ => none
  | fuel + 1, cs => do
    let (part, rest) ← keyPart? cs
    match skipBlanks rest with
    | '.' :: rest =>
      let (parts, rest) ← key? fuel (skipBlanks rest)
      pure (part :: parts, rest)
    | rest => pure ([part], rest)

/-! ## Numbers, dates and times -/

/-- A number of exactly two digits in a range. -/
def twoDigits? (lo hi : Nat) : Input → Option (Nat × Input)
  | a :: b :: rest =>
    if a.isDigit ∧ b.isDigit ∧ lo ≤ Literal.natural [a, b] ∧ Literal.natural [a, b] ≤ hi then
      some (Literal.natural [a, b], rest)
    else none
  | _ => none

/-- One given character. -/
def expect? (c : Char) : Input → Option Input
  | d :: rest => if c = d then some rest else none
  | [] => none

/-- Millionths of a second from the digits of a fraction; digits beyond the sixth are dropped. -/
def micros (ds : List Char) : Nat :=
  Literal.natural ((ds.take 6) ++ List.replicate (6 - ds.length) '0')

/-- The digits of a fraction of a second, if there is one. -/
def fraction (cs : Input) : Nat × Input :=
  match cs with
  | '.' :: rest =>
    let ds := rest.takeWhile Char.isDigit
    if ds.isEmpty then (0, cs) else (micros ds, rest.dropWhile Char.isDigit)
  | _ => (0, cs)

/-- A time of day. -/
def time? (cs : Input) : Option (TimeOfDay × Input) := do
  let (hour, cs) ← twoDigits? 0 23 cs
  let cs ← expect? ':' cs
  let (minute, cs) ← twoDigits? 0 59 cs
  let cs ← expect? ':' cs
  let (second, cs) ← twoDigits? 0 59 cs
  let (micros, cs) := fraction cs
  pure (⟨hour, minute, second, micros⟩, cs)

/-- The digits of a date, which need not be a day of the calendar. -/
def dateShape? (cs : Input) : Option (Date × Input) := do
  let year := cs.take 4
  if year.length = 4 ∧ year.all Char.isDigit then
    let cs ← expect? '-' (cs.drop 4)
    let (month, cs) ← twoDigits? 1 12 cs
    let cs ← expect? '-' cs
    let (day, cs) ← twoDigits? 1 31 cs
    pure (⟨Literal.natural year, month, day⟩, cs)
  else none

/-- The days of a month. -/
def monthLength (year month : Nat) : Nat :=
  if month = 2 then
    if year % 4 = 0 ∧ (year % 100 ≠ 0 ∨ year % 400 = 0) then 29 else 28
  else if month = 4 ∨ month = 6 ∨ month = 9 ∨ month = 11 then 30
  else 31

/-- A day of the calendar. -/
def isDay (d : Date) : Bool := 1 ≤ d.year && d.day ≤ monthLength d.year d.month

/-- The offset of a moment, if it is written. -/
def offset (cs : Input) : Option Int × Input :=
  match cs with
  | 'Z' :: rest | 'z' :: rest => (some 0, rest)
  | c :: rest =>
    if c = '+' ∨ c = '-' then
      let found : Option (Nat × Nat × Input) := do
        let (hour, rest) ← twoDigits? 0 23 rest
        let rest ← expect? ':' rest
        let (minute, rest) ← twoDigits? 0 59 rest
        pure (hour, minute, rest)
      match found with
      | some (hour, minute, rest) =>
        let minutes : Int := 60 * hour + minute
        (some (if c = '-' then -minutes else minutes), rest)
      | none => (none, cs)
    else (none, cs)
  | [] => (none, cs)

/-- The value of a date or a moment; `none` inside if it is not a day of the calendar. -/
def moment? (cs : Input) : Option (Option Value × Input) := do
  let (date, rest) ← dateShape? cs
  let timed : Option (TimeOfDay × Input) := match rest with
    | 'T' :: more | 't' :: more | ' ' :: more => time? more
    | _ => none
  match timed with
  | some (t, rest) =>
    let (zone, rest) := offset rest
    pure (if isDay date then some (.moment date t zone) else none, rest)
  | none => pure (if isDay date then some (.date date) else none, rest)

/-- Digits with single underscores between them. -/
def digitRun (isDigit : Char → Bool) : Bool → Input → List Char × Input
  | _, [] => ([], [])
  | after, c :: rest =>
    if isDigit c then
      let (ds, r) := digitRun isDigit true rest
      (c :: ds, r)
    else if after ∧ c = '_' then
      match rest with
      | d :: _ => if isDigit d then digitRun isDigit false rest else ([], c :: rest)
      | [] => ([], c :: rest)
    else ([], c :: rest)

/-- The number that digits write in a base. -/
def inBase (base : Nat) (ds : List Char) : Nat :=
  ds.foldl (fun n c => base * n + (hex? c).getD 0) 0

/-- An integer in base 16, 8 or 2 behind its mark. -/
def based? (base : Nat) (isDigit : Char → Bool) (cs : Input) : Option (Value × Input) :=
  let (ds, rest) := digitRun isDigit false cs
  if ds.isEmpty then none else some (.int (inBase base ds), rest)

/-- The whole part of a number: a lone zero, or digits that begin with another one. -/
def whole? : Input → Option (List Char × Input)
  | '0' :: rest => some (['0'], rest)
  | c :: rest => if c.isDigit then some (digitRun Char.isDigit false (c :: rest)) else none
  | [] => none

/-- The digits after a point. -/
def fractionDigits (cs : Input) : List Char × Input :=
  match cs with
  | '.' :: rest =>
    let (ds, r) := digitRun Char.isDigit false rest
    if ds.isEmpty then ([], cs) else ('.' :: ds, r)
  | _ => ([], cs)

/-- The digits of an exponent, with its mark and sign. -/
def exponentDigits (cs : Input) : List Char × Input :=
  match cs with
  | c :: rest =>
    if c = 'e' ∨ c = 'E' then
      let (mark, digits) := match rest with
        | '+' :: more => (['+'], more)
        | '-' :: more => (['-'], more)
        | more => ([], more)
      let (ds, r) := digitRun Char.isDigit false digits
      if ds.isEmpty then ([], cs) else ('e' :: (mark ++ ds), r)
    else ([], cs)
  | [] => ([], cs)

/-- A number in base 10, an integer unless it has a fraction or an exponent. -/
def decimal (cs : Input) : Except Trouble (Value × Input) := do
  let (negative, body) := Literal.sign cs
  let (digits, rest) ← required (whole? body)
  let (fraction, rest) := fractionDigits rest
  let (exponent, rest) := exponentDigits rest
  if fraction.isEmpty ∧ exponent.isEmpty then
    if Literal.maxDigits < digits.length then .error (.tooLong digits.length)
    else
      let n : Int := Literal.natural digits
      pure (.int (if negative then -n else n), rest)
  else
    let x ← required (Literal.decimal? negative (digits ++ fraction ++ exponent))
    pure (.real x, rest)

/-- An integer in some base or a number with a fraction. -/
def number (cs : Input) : Except Trouble (Value × Input) :=
  let marked := match cs with
    | '0' :: 'x' :: rest => based? 16 (fun c => (hex? c).isSome) rest
    | '0' :: 'b' :: rest => based? 2 (fun c => c == '0' || c == '1') rest
    | '0' :: 'o' :: rest => based? 8 (fun c => '0' ≤ c && c ≤ '7') rest
    | _ => none
  match marked with
  | some found => .ok found
  | none => decimal cs

/-- An infinity or a NaN. -/
def special? (cs : Input) : Option (Value × Input) :=
  let (negative, rest) := Literal.sign cs
  match rest with
  | 'i' :: 'n' :: 'f' :: rest =>
    some (.real (if negative then -Binary64.infinity else Binary64.infinity), rest)
  | 'n' :: 'a' :: 'n' :: rest => some (.real Binary64.notANumber, rest)
  | _ => none

/-- A value that is not a string, a truth value, an array or a table. -/
def scalar (cs : Input) : Except Trouble (Value × Input) :=
  match moment? cs with
  | some (v, rest) => required (v.map (·, rest))
  | none =>
    match time? cs with
    | some (t, rest) => .ok (.time t, rest)
    | none =>
      match number cs with
      | .error .malformed => required (special? cs)
      | found => found

/-! ## Tables -/

/-- The member with a name. -/
def lookup? (name : Text) (ms : Members) : Option Value := (ms.find? (·.1 == name)).map (·.2)

/-- Replaces the member with a name, or adds it at the end. -/
def put (name : Text) (v : Value) : Members → Members
  | [] => [(name, v)]
  | (k, w) :: rest => if k = name then (k, v) :: rest else (k, w) :: put name v rest

/-- Changes the table behind a key, which is made if it is not there. If `throughLists`, an array
stands for its last table. -/
def within? (throughLists : Bool) (f : Members → Option Members) : Key → Members → Option Members
  | [], ms => f ms
  | k :: ks, ms =>
    match lookup? k ms with
    | none => (within? throughLists f ks []).map fun sub => put k (.table sub) ms
    | some (.table sub) => (within? throughLists f ks sub).map fun sub => put k (.table sub) ms
    | some (.list items) =>
      if !throughLists then none
      else
        match items.getLast? with
        | some (.table sub) =>
          (within? throughLists f ks sub).map fun sub =>
            put k (.list (items.dropLast ++ [.table sub])) ms
        | _ => none
    | some _ => none

/-- Adds a member to the table behind a key; a member of that name must not be there. -/
def insert? (throughLists : Bool) (parent : Key) (name : Text) (v : Value) (ms : Members) :
    Option Members :=
  within? throughLists
    (fun sub => if (lookup? name sub).isSome then none else some (sub ++ [(name, v)])) parent ms

/-- A key that lies at or under one of some closed keys. -/
def isClosed (closed : List Key) (key : Key) : Bool := closed.any (·.isPrefixOf key)

/-- An array or a table. -/
def isNest : Value → Bool
  | .list _ | .table _ => true
  | _ => false

/-- The calls that are left inside a value which takes some itself. -/
def within (taken calls : Nat) : Except Trouble Nat :=
  if calls < taken then .error .tooDeep else .ok (calls - taken)

mutual

/-- A value, in which so many calls may be nested: an array takes two of them, a table three. -/
def value : Nat → Nat → Input → Except Trouble (Value × Input)
  | 0, _, _ => .error .malformed
  | fuel + 1, calls, cs =>
    match cs with
    | '"' :: _ | '\x27' :: _ => do
      let (s, rest) ← required (string? cs)
      pure (.text (.ofChars s), rest)
    | 't' :: 'r' :: 'u' :: 'e' :: rest => .ok (.bool true, rest)
    | 'f' :: 'a' :: 'l' :: 's' :: 'e' :: rest => .ok (.bool false, rest)
    | '[' :: rest => do
      let calls ← within 2 calls
      let rest ← required (skipSpace? rest.length rest)
      match rest with
      | ']' :: rest => pure (.list [], rest)
      | rest =>
        let (found, rest) ← items fuel calls rest
        pure (.list found, rest)
    | '\x7b' :: rest => do
      let calls ← within 3 calls
      match skipBlanks rest with
      | '\x7d' :: rest => pure (.table [], rest)
      | rest =>
        let (ms, rest) ← members fuel calls [] [] rest
        pure (.table ms, rest)
    | _ => scalar cs

/-- The items of an array up to its bracket; a comma may follow the last. -/
def items : Nat → Nat → Input → Except Trouble (List Value × Input)
  | 0, _, _ => .error .malformed
  | fuel + 1, calls, cs => do
    let (v, rest) ← value fuel calls cs
    let rest ← required (skipSpace? rest.length rest)
    match rest with
    | ']' :: rest => pure ([v], rest)
    | ',' :: rest =>
      let rest ← required (skipSpace? rest.length rest)
      match rest with
      | ']' :: rest => pure ([v], rest)
      | rest =>
        let (vs, rest) ← items fuel calls rest
        pure (v :: vs, rest)
    | _ => .error .malformed

/-- A key, its sign and its value. -/
def pair : Nat → Nat → Input → Except Trouble (Key × Value × Input)
  | 0, _, _ => .error .malformed
  | fuel + 1, calls, cs => do
    let (key, rest) ← required (key? cs.length.succ cs)
    let rest ← required (expect? '=' rest)
    let (v, rest) ← value fuel calls (skipBlanks rest)
    pure (key, v, rest)

/-- The members of a table on one line, after those already read. -/
def members : Nat → Nat → List Key → Members → Input → Except Trouble (Members × Input)
  | 0, _, _, _, _ => .error .malformed
  | fuel + 1, calls, closed, ms, cs => do
    let (key, v, rest) ← pair fuel calls cs
    let name ← required key.getLast?
    if isClosed closed key then .error .malformed
    else
      let ms ← required (insert? false key.dropLast name v ms)
      match skipBlanks rest with
      | '\x7d' :: rest => pure (ms, rest)
      | ',' :: rest =>
        members fuel calls (if isNest v then key :: closed else closed) ms (skipBlanks rest)
      | _ => .error .malformed

end

/-! ## Documents -/

/-- A document that is being read. -/
structure Draft where
  /-- The members so far. -/
  members : Members := []
  /-- Tables that no header may open again. -/
  opened : List Key := []
  /-- Tables that become opened at the next header. -/
  pending : List Key := []
  /-- Arrays and tables that stand on one line; nothing may be added under them. -/
  closed : List Key := []
  /-- The table that members go to. -/
  header : Key := []

/-- The proper, non-empty beginnings of a key. -/
def beginnings (key : Key) : List Key :=
  (List.range (key.length - 1)).map fun i => key.take (i + 1)

/-- Adds a member under the current header. -/
def Draft.assign? (d : Draft) (key : Key) (v : Value) : Option Draft := do
  let name ← key.getLast?
  let parents := (beginnings key).map (d.header ++ ·)
  if parents.any d.opened.contains then none
  else if isClosed d.closed (d.header ++ key.dropLast) then none
  else
    let ms ← insert? true (d.header ++ key.dropLast) name v d.members
    pure { d with
      members := ms
      pending := d.pending ++ parents
      closed := if isNest v then (d.header ++ key) :: d.closed else d.closed }

/-- Makes the pending tables opened. -/
def Draft.settle (d : Draft) : Draft := { d with opened := d.pending ++ d.opened, pending := [] }

/-- Opens a table by its header. -/
def Draft.openTable? (d : Draft) (key : Key) : Option Draft :=
  if d.opened.contains key ∨ isClosed d.closed key then none
  else
    (within? true some key d.members).map fun ms =>
      { d with members := ms, opened := key :: d.opened, header := key }

/-- Adds an empty table to an array. -/
def append? (name : Text) (ms : Members) : Option Members :=
  match lookup? name ms with
  | none => some (ms ++ [(name, .list [.table []])])
  | some (.list items) => some (put name (.list (items ++ [.table []])) ms)
  | some _ => none

/-- Opens one more table of an array by its header; all that was said about the tables before it
no longer counts. -/
def Draft.openItem? (d : Draft) (key : Key) : Option Draft := do
  let name ← key.getLast?
  if isClosed d.closed key then none
  else
    let ms ← within? true (append? name) key.dropLast d.members
    let free (ks : List Key) : List Key := ks.filter fun k => !key.isPrefixOf k
    pure { d with
      members := ms
      opened := key :: free d.opened
      closed := free d.closed
      header := key }

/-- Reads one statement. -/
def statement (calls : Nat) (d : Draft) (cs : Input) : Except Trouble (Draft × Input) :=
  match cs with
  | '[' :: '[' :: rest => do
    let (key, rest) ← required (key? rest.length.succ (skipBlanks rest))
    let d ← required (d.settle.openItem? key)
    let rest ← required (expect? ']' rest)
    let rest ← required (expect? ']' rest)
    pure (d, rest)
  | '[' :: rest => do
    let (key, rest) ← required (key? rest.length.succ (skipBlanks rest))
    let d ← required (d.settle.openTable? key)
    let rest ← required (expect? ']' rest)
    pure (d, rest)
  | '#' :: _ => .ok (d, cs)
  | _ => do
    let (key, v, rest) ← pair (2 * cs.length + 2) calls cs
    let d ← required (d.assign? key v)
    pure (d, rest)

/-- Reads statements line by line. -/
def lines (calls : Nat) : Nat → Draft → Input → Except Trouble Members
  | 0, _, _ => .error .malformed
  | fuel + 1, d, cs =>
    match skipBlanks cs with
    | [] => .ok d.members
    | '\n' :: rest => lines calls fuel d rest
    | cs => do
      let (d, rest) ← statement calls d cs
      let rest ← required (skipComment? (skipBlanks rest))
      match rest with
      | [] => pure d.members
      | '\n' :: rest => lines calls fuel d rest
      | _ => .error .malformed

/-- Every CR LF as a single LF. -/
def unixLines : Input → Input
  | [] => []
  | '\r' :: '\n' :: rest => '\n' :: unixLines rest
  | c :: rest => c :: unixLines rest

/-- Reads a document, in whose values so many calls may be nested. -/
def parse (calls : Nat) (cs : Input) : Except Trouble Members :=
  let cs := unixLines cs
  lines calls cs.length.succ {} cs

end Maintainability.Toml
