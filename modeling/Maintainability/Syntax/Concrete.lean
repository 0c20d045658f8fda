/-
Concrete syntax trees: what a grammar makes of a file. Every node has a kind, says whether it is
named or only punctuation, may play a part (a field) in its parent, and covers a range of the
file's bytes.
-/
namespace Maintainability

/-- A concrete syntax tree. -/
inductive Concrete where
  | node (kind : String) (named missing : Bool) (field : Option String) (start stop : Nat)
      (children : List Concrete)
  deriving Repr, Inhabited

namespace Concrete

/-- The kind of the root. -/
def kind : Concrete → String
  | .node k _ _ _ _ _ _ => k

/-- Whether the root is named. -/
def named : Concrete → Bool
  | .node _ n _ _ _ _ _ => n

/-- Whether the root was put in where the text lacks it. -/
def missing : Concrete → Bool
  | .node _ _ m _ _ _ _ => m

/-- The part that the root plays in its parent. -/
def field : Concrete → Option String
  | .node _ _ _ f _ _ _ => f

/-- The offset of the first byte. -/
def start : Concrete → Nat
  | .node _ _ _ _ s _ _ => s

/-- The offset behind the last byte. -/
def stop : Concrete → Nat
  | .node _ _ _ _ _ e _ => e

/-- The children of the root. -/
def children : Concrete → List Concrete
  | .node _ _ _ _ _ _ cs => cs

/-- The first child that plays a part. -/
def child? (c : Concrete) (part : String) : Option Concrete :=
  c.children.find? (·.field == some part)

/-- The same tree playing a part. -/
def as (part : String) : Concrete → Concrete
  | .node k n m _ s e cs => .node k n m (some part) s e cs

/-- The named children. -/
def namedChildren (c : Concrete) : List Concrete := c.children.filter (·.named)

mutual

/-- The number of nodes. -/
def size : Concrete → Nat
  | .node _ _ _ _ _ _ cs => 1 + sizes cs

/-- The number of nodes of a forest. -/
def sizes : List Concrete → Nat
  | [] => 0
  | c :: cs => size c + sizes cs

end

theorem sizes_append (xs ys : List Concrete) : sizes (xs ++ ys) = sizes xs + sizes ys := by
  induction xs with
  | nil => simp [sizes]
  | cons x xs ih => simp only [List.cons_append, sizes, ih]; omega

/-- Visits the trees waiting on a stack: the first is visited and gives way to its children. -/
def walkFrom (stack : List Concrete) : List Concrete :=
  match stack with
  | [] => []
  | .node k n m f s e cs :: rest => .node k n m f s e cs :: walkFrom (cs ++ rest)
termination_by sizes stack
decreasing_by simp only [sizes, size, sizes_append]; omega

/-- The nodes of a tree in order of their appearance, a node before its children, visited with an
explicit stack. -/
def walk (c : Concrete) : List Concrete := walkFrom [c]

end Concrete

end Maintainability
