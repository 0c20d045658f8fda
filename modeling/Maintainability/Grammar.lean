/-
Grammars as data. A grammar gives a pattern to each of its rules; a pattern is matched against a
list of tokens from left to right, the first alternative that fits wins, and what it matched is
kept as concrete trees. Matching the same rule at the same token twice gives the same answer, so
answers are remembered, and a file is read in time proportional to its length.

A `chain` reads operands with operators between them and groups them to the left; operators that
bind more strongly stand in the operands' own pattern.
-/
import Std.Data.HashMap
import Maintainability.Syntax.Concrete

namespace Maintainability.Grammar

/-- A token: its kind (for a keyword or a sign, its own text), its text and its range of bytes. -/
structure Token where
  /-- The kind of token. -/
  kind : String
  /-- The text of the token. -/
  text : String
  /-- The offset of its first byte. -/
  start : Nat
  /-- The offset behind its last byte. -/
  stop : Nat
  /-- Named in the tree, as identifiers and literals are. -/
  named : Bool := false
  /-- In the tree at all; line ends and indentation are not. -/
  visible : Bool := true
  deriving Repr, Inhabited

/-- A pattern over the rules `R`. -/
inductive Pattern (R : Type) where
  /-- Nothing at all. -/
  | empty
  /-- A token of a kind. -/
  | token (kind : String)
  /-- A token with a text, whatever its kind. -/
  | word (text : String)
  /-- Any one token of the kinds listed. -/
  | oneOf (kinds : List String)
  /-- No space between the last token and the next. -/
  | tight
  /-- The last token is of one of the kinds listed. -/
  | after (kinds : List String)
  /-- What a rule says. -/
  | rule (r : R)
  /-- One pattern, then another. -/
  | seq (p q : Pattern R)
  /-- One pattern, or else another. -/
  | alt (p q : Pattern R)
  /-- A pattern as often as it fits. -/
  | many (p : Pattern R)
  /-- A pattern fits here; nothing is taken. -/
  | ahead (p : Pattern R)
  /-- A pattern does not fit here; nothing is taken. -/
  | unless (p : Pattern R)
  /-- A node around what a pattern matched. -/
  | node (kind : String) (p : Pattern R)
  /-- The trees of a pattern play a part in their parent. -/
  | part (name : String) (p : Pattern R)
  /-- An operand, then links as often as they fit; each link closes a node over all before it. -/
  | chain (kind : String) (operand link : Pattern R)

namespace Pattern

variable {R : Type}

/-- Patterns one after another. -/
def seqs : List (Pattern R) → Pattern R
  | [] => .empty
  | [p] => p
  | p :: ps => .seq p (seqs ps)

/-- The first pattern that fits; `p` if all others fail. -/
def alts (p : Pattern R) : List (Pattern R) → Pattern R
  | [] => p
  | q :: qs => .alt p (alts q qs)

/-- A pattern or nothing. -/
def optional (p : Pattern R) : Pattern R := .alt p .empty

/-- A pattern once or more. -/
def many1 (p : Pattern R) : Pattern R := .seq p (.many p)

/-- A pattern once or more, with separators between. -/
def sepBy1 (p sep : Pattern R) : Pattern R := .seq p (.many (.seq sep p))

/-- A pattern any number of times, with separators between. -/
def sepBy (p sep : Pattern R) : Pattern R := optional (sepBy1 p sep)

/-- As `sepBy1`, and a separator may also stand at the end. -/
def sepEndBy1 (p sep : Pattern R) : Pattern R := .seq (sepBy1 p sep) (optional sep)

/-- As `sepEndBy1`, or nothing. -/
def sepEndBy (p sep : Pattern R) : Pattern R := optional (sepEndBy1 p sep)

end Pattern

/-- A grammar: a pattern for each rule, and a number that tells the rules apart. -/
structure Rules (R : Type) where
  /-- What a rule says. -/
  pattern : R → Pattern R
  /-- The number of a rule. -/
  number : R → Nat

/-- What a pattern made of the tokens from some position: the position behind, and the trees so
far, the last one first. -/
abbrev Match := Option (Nat × List Concrete)

/-- Answers already found, by rule and position. -/
abbrev Memo := Std.HashMap Nat Match

/-- The leaf of a token, in front of the trees so far. -/
def shift (t : Token) (trees : List Concrete) : List Concrete :=
  if t.visible then .node t.kind t.named false none t.start t.stop [] :: trees else trees

/-- A node over the tokens from `first` up to `next`, from its trees with the last one first. -/
def wrap (tokens : Array Token) (kind : String) (first next : Nat) (trees : List Concrete) :
    Concrete :=
  let start := match tokens[first]? with
    | some t => t.start
    | none => 0
  let stop := if first < next then
      match tokens[next - 1]? with
      | some t => t.stop
      | none => start
    else start
  .node kind true false none start stop trees.reverse

mutual

/-- Matches a pattern at a position, with a bound on the depth of the search. -/
def run {R : Type} (g : Rules R) (tokens : Array Token) :
    Nat → Pattern R → Nat → List Concrete → Memo → Match × Memo
  | 0, _, _, _, memo => (none, memo)
  | fuel + 1, p, pos, acc, memo =>
    match p with
    | .empty => (some (pos, acc), memo)
    | .token kind =>
      match tokens[pos]? with
      | some t => if t.kind == kind then (some (pos + 1, shift t acc), memo) else (none, memo)
      | none => (none, memo)
    | .word text =>
      match tokens[pos]? with
      | some t => if t.text == text then (some (pos + 1, shift t acc), memo) else (none, memo)
      | none => (none, memo)
    | .oneOf kinds =>
      match tokens[pos]? with
      | some t =>
        if kinds.contains t.kind then (some (pos + 1, shift t acc), memo) else (none, memo)
      | none => (none, memo)
    | .tight =>
      match tokens[pos - 1]?, tokens[pos]? with
      | some s, some t => (if s.stop = t.start then some (pos, acc) else none, memo)
      | _, _ => (none, memo)
    | .after kinds =>
      match tokens[pos - 1]? with
      | some t => (if kinds.contains t.kind then some (pos, acc) else none, memo)
      | none => (none, memo)
    | .rule r =>
      let key := g.number r * (tokens.size + 1) + pos
      match memo[key]? with
      | some found => (found.map fun (next, trees) => (next, trees ++ acc), memo)
      | none =>
        let (found, memo) := run g tokens fuel (g.pattern r) pos [] memo
        (found.map fun (next, trees) => (next, trees ++ acc), memo.insert key found)
    | .seq p q =>
      match run g tokens fuel p pos acc memo with
      | (some (next, acc), memo) => run g tokens fuel q next acc memo
      | (none, memo) => (none, memo)
    | .alt p q =>
      match run g tokens fuel p pos acc memo with
      | (none, memo) => run g tokens fuel q pos acc memo
      | found => found
    | .many p =>
      match run g tokens fuel p pos acc memo with
      | (none, memo) => (some (pos, acc), memo)
      | (some (next, acc), memo) =>
        if next ≤ pos then (some (next, acc), memo)
        else run g tokens fuel (.many p) next acc memo
    | .ahead p =>
      match run g tokens fuel p pos [] memo with
      | (some _, memo) => (some (pos, acc), memo)
      | (none, memo) => (none, memo)
    | .unless p =>
      match run g tokens fuel p pos [] memo with
      | (some _, memo) => (none, memo)
      | (none, memo) => (some (pos, acc), memo)
    | .node kind p =>
      match run g tokens fuel p pos [] memo with
      | (some (next, trees), memo) =>
        (some (next, wrap tokens kind pos next trees :: acc), memo)
      | (none, memo) => (none, memo)
    | .part name p =>
      match run g tokens fuel p pos [] memo with
      | (some (next, trees), memo) => (some (next, trees.map (Concrete.as name) ++ acc), memo)
      | (none, memo) => (none, memo)
    | .chain kind operand link =>
      match run g tokens fuel operand pos [] memo with
      | (some (next, trees), memo) => links g tokens fuel kind link pos next trees acc memo
      | (none, memo) => (none, memo)

/-- Matches the links of a chain that began at `first`; `trees` is what it has made so far. -/
def links {R : Type} (g : Rules R) (tokens : Array Token) :
    Nat → String → Pattern R → Nat → Nat → List Concrete → List Concrete → Memo → Match × Memo
  | 0, _, _, _, _, _, _, memo => (none, memo)
  | fuel + 1, kind, link, first, pos, trees, acc, memo =>
    match run g tokens fuel link pos trees memo with
    | (some (next, trees), memo) =>
      if next ≤ pos then (some (pos, trees ++ acc), memo)
      else
        links g tokens fuel kind link first next [wrap tokens kind first next trees] acc memo
    | (none, memo) => (some (pos, trees ++ acc), memo)

end

/-- The trees of a list of tokens, if a rule matches all of it. -/
def parse? {R : Type} (g : Rules R) (start : R) (tokens : Array Token) : Option (List Concrete) :=
  match (run g tokens (256 * (tokens.size + 16)) (.rule start) 0 [] ∅).1 with
  | some (next, trees) => if next = tokens.size then some trees.reverse else none
  | none => none

end Maintainability.Grammar
