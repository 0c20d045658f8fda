/-
Patterns for paths. In a segment, a star stands for any code points, a question mark for one, and a
bracket for one of a set. A relative pattern is compared with the last segments of a path, an
absolute one with all of them. A pattern may hold surrogates; a path has none.
-/
import Maintainability.Path

namespace Maintainability.Glob

/-! ## Marks -/

/-- The star. -/
abbrev star : CodePoint := .ofChar '*'

/-- The question mark. -/
abbrev question : CodePoint := .ofChar '?'

/-- The bracket that opens a set. -/
abbrev opening : CodePoint := .ofChar '['

/-- The bracket that closes a set. -/
abbrev closing : CodePoint := .ofChar ']'

/-- The exclamation mark, which negates a set. -/
abbrev negation : CodePoint := .ofChar '!'

/-- The hyphen of a range. -/
abbrev hyphen : CodePoint := .ofChar '-'

/-- The slash between segments. -/
abbrev slash : CodePoint := .ofChar '/'

/-- The dot, which alone is no segment. -/
abbrev dot : CodePoint := .ofChar '.'

/-! ## Segments -/

/-- A set of code points in brackets. -/
structure CharSet where
  /-- It stands for the code points that are not in it. -/
  negated : Bool
  /-- Its ranges; a single code point is a range of its own. -/
  ranges : List (CodePoint × CodePoint)
  deriving DecidableEq, Repr

/-- A set that holds a code point. -/
def CharSet.holds (s : CharSet) (c : CodePoint) : Bool :=
  s.negated != s.ranges.any fun (lo, hi) => lo ≤ c && c ≤ hi

/-- A piece of a pattern. -/
inductive Piece where
  | char (c : CodePoint)
  | anyChar
  | anyRun
  | oneOf (set : CharSet)
  deriving DecidableEq, Repr

/-- Cuts the inside of a bracket at the hyphens that make ranges: the last code point of one chunk
and the first of the next are the ends of a range. After a cut the next two code points are passed
over, as the second of them may not begin a range. `skip` counts the code points to pass over. -/
def chunks : Nat → Text → Text → List Text
  | _, chunk, [] => [chunk.reverse]
  | skip, chunk, c :: rest =>
    if skip = 0 ∧ c = hyphen then chunk.reverse :: chunks 2 [] rest
    else chunks (skip - 1) (c :: chunk) rest

/-- A hyphen in last place makes no range. -/
def closeLast : List Text → List Text
  | [] => []
  | [chunk] => [chunk]
  | [chunk, []] => [chunk ++ [hyphen]]
  | chunk :: rest => chunk :: closeLast rest

/-- Two chunks whose range runs backwards are put together without its ends. -/
def dropReversed : List Text → List Text
  | [] => []
  | chunk :: rest =>
    match dropReversed rest with
    | [] => [chunk]
    | next :: more =>
      match chunk.getLast?, next.head? with
      | some lo, some hi =>
        if hi < lo then (chunk.dropLast ++ next.drop 1) :: more else chunk :: next :: more
      | _, _ => chunk :: next :: more

/-- The ranges of chunks, the first of which may have given its first code point to a range. -/
def rangesOf : List Text → List (CodePoint × CodePoint)
  | [] => []
  | [chunk] => chunk.map fun c => (c, c)
  | chunk :: next :: more =>
    let range := match chunk.getLast?, next.head? with
      | some lo, some hi => [(lo, hi)]
      | _, _ => []
    chunk.dropLast.map (fun c => (c, c)) ++ range ++ rangesOf (next.drop 1 :: more)
termination_by chunks => chunks.length

/-- The chunks of the inside of a bracket. A mark of negation is passed over. -/
def chunksOf (inside : Text) : List Text :=
  let skip := if inside.head? = some negation then 2 else 1
  dropReversed (closeLast (chunks skip [] inside))

/-- The piece for the inside of a bracket: nothing at all matches nothing, a lone mark of negation
matches everything. -/
def bracket (inside : Text) : Piece :=
  match chunksOf inside with
  | (c :: chunk) :: more =>
    if c = negation then .oneOf ⟨true, rangesOf (chunk :: more)⟩
    else .oneOf ⟨false, rangesOf ((c :: chunk) :: more)⟩
  | cs => .oneOf ⟨false, rangesOf cs⟩

/-- The inside of a bracket and what follows it, if it is closed. A closing bracket in first place,
or behind a mark of negation there, belongs to the inside. -/
def inside? (cs : Text) : Option (Text × Text) :=
  let mark := cs.takeWhile (· = negation) |>.take 1
  let front := mark ++ ((cs.drop mark.length).takeWhile (· = closing) |>.take 1)
  let rest := cs.drop front.length
  match rest.dropWhile (· ≠ closing) with
  | _ :: after => some (front ++ rest.takeWhile (· ≠ closing), after)
  | [] => none

/-- The pieces of a segment of a pattern. -/
def pieces : Nat → Text → List Piece
  | 0, _ => []
  | _ + 1, [] => []
  | fuel + 1, c :: rest =>
    if c = star then .anyRun :: pieces fuel rest
    else if c = question then .anyChar :: pieces fuel rest
    else if c = opening then
      match inside? rest with
      | some (inside, after) => bracket inside :: pieces fuel after
      | none => .char opening :: pieces fuel rest
    else .char c :: pieces fuel rest

/-- A piece that stands for one given code point. -/
def Piece.accepts (c : CodePoint) : Piece → Bool
  | .char d => c == d
  | .anyChar => true
  | .anyRun => false
  | .oneOf set => set.holds c

/-- Pieces that stand for all of some code points. -/
def covers : List Piece → Text → Bool
  | [], cs => cs.isEmpty
  | .anyRun :: ps, [] => covers ps []
  | .anyRun :: ps, c :: cs => covers ps (c :: cs) || covers (.anyRun :: ps) cs
  | p :: ps, c :: cs => p.accepts c && covers ps cs
  | _ :: _, [] => false
termination_by ps cs => (cs.length, ps.length)

/-- A segment that a segment of a pattern stands for. -/
def matchesSegment (pattern segment : Text) : Bool :=
  covers (pieces pattern.length.succ pattern) segment

/-! ## Paths -/

/-- A pattern for paths. -/
structure Pattern where
  /-- The slashes in front: none, one or two. -/
  slashes : Nat
  /-- The segments, none of them empty or a single dot. -/
  segments : List Text
  deriving DecidableEq, Repr

/-- The pattern that a text writes, read like a path. -/
def Pattern.ofText (t : Text) : Pattern :=
  let n := (t.takeWhile (· = slash)).length
  ⟨if 2 < n then 1 else n, (Characters.splitOn slash t).filter fun s => !s.isEmpty && s != [dot]⟩

/-- A pattern with neither a root nor a segment. -/
def Pattern.isEmpty (p : Pattern) : Bool := p.slashes == 0 && p.segments.isEmpty

/-- A path that a pattern stands for; `none` if the pattern is empty. -/
def matches? (pattern : Pattern) (path : Path) : Option Bool :=
  let found := path.parts.map Text.ofChars
  let fits := (pattern.segments.reverse.zip found.reverse).all fun (p, s) => matchesSegment p s
  if pattern.isEmpty then none
  else if pattern.slashes ≠ 0 then
    some (pattern.slashes == path.slashes && pattern.segments.length == path.segments.length && fits)
  else some (pattern.segments.length ≤ found.length && fits)

end Maintainability.Glob
