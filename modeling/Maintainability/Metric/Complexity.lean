/-
Cyclomatic complexity: one, and one more for every decision. A branch, a loop, a handler, a
short-circuit operator and a conditional expression decide once; an arm of a multi-way branch
decides once for each of its labels.
-/
import Maintainability.Number.Total
import Maintainability.Syntax.Tree

namespace Maintainability.Tree

/-- The decisions that a node itself contributes. -/
def weight (t : Tree) : Int :=
  match t.tag with
  | .branch | .loop | .handler | .logicalAnd | .logicalOr | .ternary => 1
  | .caseArm => t.labels
  | .other => 0

/-- The cyclomatic complexity of a method's tree. -/
def complexity (t : Tree) : Int := 1 + total (t.walk.map weight)

end Maintainability.Tree
