/-
Paths with forward slashes. A path is a root, which may be missing, and segments; segments that are
empty or a single dot are dropped when it is read, and nothing else is resolved.
-/
import Maintainability.Text

namespace Maintainability

/-- A path. -/
structure Path where
  /-- The slashes in front: none, one or two. -/
  slashes : Nat
  /-- The segments, none of them empty or a single dot. -/
  segments : List (List Char)
  deriving DecidableEq, Repr, Inhabited

namespace Path

/-- A segment that names something. -/
def isProper (segment : List Char) : Bool := !segment.isEmpty && segment != ['.']

/-- The segments between the slashes of some characters. -/
def segmentsOf (cs : List Char) : List (List Char) := (Characters.splitOn '/' cs).filter isProper

/-- Three slashes in front or more count as one. -/
def slashesOf (cs : List Char) : Nat :=
  let n := (cs.takeWhile (· = '/')).length
  if 2 < n then 1 else n

/-- The path that characters write. -/
def ofChars (cs : List Char) : Path := ⟨slashesOf cs, segmentsOf cs⟩

/-- The path that a string writes. -/
def ofString (s : String) : Path := ofChars s.toList

/-- Segments with slashes between them. -/
def joined (segments : List (List Char)) : List Char := List.intercalate ['/'] segments

/-- The characters of a path; a single dot if it has none. -/
def chars (p : Path) : List Char :=
  if p.slashes = 0 ∧ p.segments.isEmpty then ['.']
  else List.replicate p.slashes '/' ++ joined p.segments

/-- The text of a path. -/
def text (p : Path) : String := String.ofList p.chars

/-- A path with a root. -/
def isAbsolute (p : Path) : Bool := p.slashes != 0

/-- The root, if there is one, and the segments. -/
def parts (p : Path) : List (List Char) :=
  if p.isAbsolute then List.replicate p.slashes '/' :: p.segments else p.segments

/-- The last segment; empty if there is none. -/
def name (p : Path) : List Char := p.segments.getLast?.getD []

/-- A path seen from another: an absolute one stays, a relative one is appended. -/
def under (base p : Path) : Path :=
  if p.isAbsolute then p else ⟨base.slashes, base.segments ++ p.segments⟩

/-- Comes no later: segment by segment, each by code points. -/
def le (a b : List (List Char)) : Bool :=
  match a, b with
  | [], _ => true
  | _ :: _, [] => false
  | s :: ss, t :: ts => if s = t then le ss ts else decide (String.ofList s < String.ofList t)

end Path

end Maintainability
