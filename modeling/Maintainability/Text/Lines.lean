/-
Counting lines. A line break is CR LF, a lone CR or a lone LF; a last line without a break counts,
and nothing is added after a final break.
-/
import Maintainability.Text

namespace Maintainability.Text

/-- The number of line breaks. -/
def breaks : Text → Nat
  | [] => 0
  | [c] => if c = CodePoint.cr ∨ c = CodePoint.lf then 1 else 0
  | c :: d :: cs =>
    if c = CodePoint.cr ∧ d = CodePoint.lf then 1 + breaks cs
    else if c = CodePoint.cr ∨ c = CodePoint.lf then 1 + breaks (d :: cs)
    else breaks (d :: cs)

/-- A text that ends with a line break. -/
def endsWithBreak (t : Text) : Bool :=
  match t.getLast? with
  | some c => c == CodePoint.cr || c == CodePoint.lf
  | none => false

/-- The number of lines of a text. -/
def countLines (t : Text) : Nat :=
  if t.isEmpty then 0
  else if t.endsWithBreak then t.breaks
  else t.breaks + 1

end Maintainability.Text
