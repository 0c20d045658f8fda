/-
Tagged trees. The parser reduces a method to a tree whose nodes carry one of eight tags; all that
the metrics ask of a node is its tag and, for an arm of a multi-way branch, how many labels it has.
-/
namespace Maintainability

/-- What a node is to the count of decisions. -/
inductive Tag where
  /-- An `if`, an `elif` or the condition of a comprehension. -/
  | branch
  /-- Any loop. -/
  | loop
  /-- One arm of a multi-way branch. -/
  | caseArm
  /-- A handler of exceptions. -/
  | handler
  /-- A conjunction that stops early. -/
  | logicalAnd
  /-- A disjunction that stops early. -/
  | logicalOr
  /-- A conditional expression. -/
  | ternary
  /-- Anything else. -/
  | other
  deriving DecidableEq, Repr, Inhabited

/-- The word for a tag. -/
def Tag.name : Tag → String
  | .branch => "branch"
  | .loop => "loop"
  | .caseArm => "case_arm"
  | .handler => "catch"
  | .logicalAnd => "logical_and"
  | .logicalOr => "logical_or"
  | .ternary => "ternary"
  | .other => "other"

/-- All tags. -/
def Tag.all : List Tag :=
  [.branch, .loop, .caseArm, .handler, .logicalAnd, .logicalOr, .ternary, .other]

/-- The tag with a name. -/
def Tag.ofName? (s : String) : Option Tag := Tag.all.find? (·.name == s)

/-- A tagged tree. `origin` is the kind of concrete node that it was built from. -/
inductive Tree where
  | node (tag : Tag) (labels : Int) (origin : String) (children : List Tree)
  deriving Repr, Inhabited

namespace Tree

/-- The tag of the root. -/
def tag : Tree → Tag
  | .node t _ _ _ => t

/-- The number of labels at the root. -/
def labels : Tree → Int
  | .node _ n _ _ => n

/-- The kind of concrete node behind the root. -/
def origin : Tree → String
  | .node _ _ o _ => o

/-- The children of the root. -/
def children : Tree → List Tree
  | .node _ _ _ cs => cs

mutual

/-- The number of nodes. -/
def size : Tree → Nat
  | .node _ _ _ cs => 1 + sizes cs

/-- The number of nodes of a forest. -/
def sizes : List Tree → Nat
  | [] => 0
  | t :: ts => size t + sizes ts

end

mutual

/-- The nodes in order of their appearance, a node before its children. -/
def preorder : Tree → List Tree
  | .node t n o cs => .node t n o cs :: preorders cs

/-- The nodes of a forest in order of their appearance. -/
def preorders : List Tree → List Tree
  | [] => []
  | t :: ts => preorder t ++ preorders ts

end

/-- Visits the trees waiting on a stack: the first is visited and gives way to its children. -/
def walkFrom (stack : List Tree) : List Tree :=
  match stack with
  | [] => []
  | .node t n o cs :: rest => .node t n o cs :: walkFrom (cs ++ rest)
termination_by sizes stack
decreasing_by
  have happ : ∀ xs ys : List Tree, sizes (xs ++ ys) = sizes xs + sizes ys := by
    intro xs ys
    induction xs with
    | nil => simp [sizes]
    | cons x xs ih => simp only [List.cons_append, sizes, ih]; omega
  simp only [sizes, size, happ]
  omega

/-- The nodes of a tree, visited with an explicit stack. -/
def walk (t : Tree) : List Tree := walkFrom [t]

end Tree

end Maintainability
