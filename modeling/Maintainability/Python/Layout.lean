/-
Line ends and indentation. Outside brackets a line break ends the statement before it; after a
colon a deeper line opens a block, and a line that is indented less closes the blocks that it falls
out of. These become tokens of no width. A block that closes reaches over the comments behind it
that are indented at least as far as the block itself, up to the first that is not.
-/
import Maintainability.Grammar
import Maintainability.Python.Token

namespace Maintainability.Python

open Grammar (Token)

/-- Where the layout stands between two tokens. -/
structure Layout where
  /-- The tokens so far. -/
  tokens : Array Token := #[]
  /-- The indentations of the open blocks, the innermost first. -/
  blocks : List Nat := []
  /-- The number of open brackets. -/
  depth : Nat := 0
  /-- The kind of the last token; empty at the start. -/
  last : String := ""
  /-- The offset behind the last token, and behind the comments that belong to it. -/
  reach : Nat := 0

/-- Kinds of tokens behind which a statement cannot end, so that a line break there means
nothing. -/
def unfinished : List String :=
  ["+", "-", "/", "//", "%", "**", "&", "|", "^", "<<", ">>", "<", ">", "<=", ">=", "==", "!=",
    "and", "or", "not", "in", "is", "=", "+=", "-=", "*=", "/=", "//=", "%=", "**=", "&=", "|=",
    "^=", "<<=", ">>=", "@=", "->", ":=", ".", "lambda"]

namespace Layout

/-- The indentation of the innermost block. -/
def current (s : Layout) : Nat := s.blocks.head?.getD 0

/-- Adds a token of no width at the end of what was read. -/
def mark (s : Layout) (kind : String) : Layout :=
  { s with tokens := s.tokens.push ⟨kind, "", s.reach, s.reach, false, false⟩ }

/-- Reaches over the comments in front that are indented at least as far as the innermost block. -/
def reachOver (s : Layout) : List Lexeme → Layout × List Lexeme
  | [] => (s, [])
  | c :: cs =>
    if s.current ≤ c.indent then reachOver { s with reach := c.stop } cs else (s, c :: cs)

/-- Closes the blocks that a line with some indentation falls out of. -/
def closeBlocks (s : Layout) (indent : Nat) (comments : List Lexeme) : List Nat → Layout
  | [] => s
  | b :: outer =>
    if indent < b then
      let (s, comments) := reachOver s comments
      closeBlocks { s.mark "dedent" with blocks := outer } indent comments outer
    else s

/-- Ends a line whose comments are given, before a line with some indentation. -/
def endLine (s : Layout) (indent : Nat) (comments : List Lexeme) : Layout :=
  let (s, comments) := match comments with
    | c :: cs => if c.fresh then (s, comments) else ({ s with reach := c.stop }, cs)
    | [] => (s, [])
  if s.last == ":" ∧ s.current < indent then
    { s.mark "indent" with blocks := indent :: s.blocks }
  else if unfinished.contains s.last then closeBlocks s indent comments s.blocks
  else closeBlocks (s.mark "newline") indent comments s.blocks

/-- Reads a token, with the comments before it. -/
def step (s : Layout) (comments : List Lexeme) (l : Lexeme) : Layout :=
  let broken := l.fresh || comments.any (·.fresh)
  let s := if s.depth = 0 ∧ broken ∧ !s.last.isEmpty then s.endLine l.indent comments else s
  { s with
    tokens := s.tokens.push ⟨l.kind, l.text, l.start, l.stop, l.named, true⟩
    last := l.kind
    reach := l.stop
    depth :=
      if ["(", "[", "\x7b", "string_start"].contains l.kind then s.depth + 1
      else if [")", "]", "\x7d", "string_end"].contains l.kind then s.depth - 1
      else s.depth }

/-- Reads all tokens; `comments` are those since the last one. -/
def run (s : Layout) (comments : List Lexeme) : List Lexeme → Layout
  | [] => if s.depth = 0 ∧ !s.last.isEmpty then s.endLine 0 comments else s
  | l :: ls =>
    if l.kind == "comment" then run s (comments ++ [l]) ls
    else run (s.step comments l) [] ls

end Layout

/-- The tokens of a text with its layout. -/
def tokens? (cs : List Char) : Option (Array Token) :=
  (lexemes? cs).map fun ls => (Layout.run {} [] ls.toList).tokens

end Maintainability.Python
