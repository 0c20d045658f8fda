/-
Methods of a concrete tree. `Concrete.methods` finds the declarations of methods anywhere in a tree
and cuts out their names and texts; `Concrete.tagged` reduces a declaration to a tagged tree. Both
walk with an explicit stack, so deep trees are no harder than flat ones.
-/
import Maintainability.Number.Total
import Maintainability.Syntax.Concrete
import Maintainability.Syntax.Tree
import Maintainability.Syntax.Language
import Maintainability.Text.Utf8

namespace Maintainability

/-- A method declaration found in a file. -/
structure Method where
  /-- The name as written. -/
  name : String
  /-- The text of the declaration. -/
  source : Text
  /-- The tagged tree; a parser may fail to supply one. -/
  tree : Option Tree
  /-- The first line, from 1; 0 if unknown. -/
  startLine : Int
  /-- The last line, from 1; 0 if unknown. -/
  endLine : Int
  deriving Repr, Inhabited

namespace Concrete

/-- The bytes of a file from `start` up to `stop`. -/
def slice (bytes : List UInt8) (start stop : Nat) : List UInt8 := (bytes.take stop).drop start

/-- The characters that a node covers; bytes cut out of a character show as U+FFFD. -/
def content (bytes : List UInt8) (c : Concrete) : List Char :=
  Utf8.decodeLossy (slice bytes c.start c.stop)

/-- The number of line feeds before an offset. -/
def row (bytes : List UInt8) (offset : Nat) : Nat := (bytes.take offset).count 10

/-- The number of bytes since the last line feed before an offset. -/
def column (bytes : List UInt8) (offset : Nat) : Nat :=
  ((bytes.take offset).reverse.takeWhile (· ≠ 10)).length

/-- The values of an arm of a multi-way branch: the children of its labels that are values, and
the values that stand on the arm itself. -/
def caseValues (l : Language) (arm : Concrete) : List Concrete :=
  arm.namedChildren.flatMap fun c =>
    if l.caseLabelKinds.contains c.kind then
      c.namedChildren.filter fun v => !l.nonValueKinds.contains v.kind
    else if l.caseValueKinds.contains c.kind then [c]
    else []

/-- The number of labels of an arm: its values without those that stand for the last resort. -/
def labelCount (l : Language) (bytes : List UInt8) (arm : Concrete) : Nat :=
  (arm.caseValues l).countP fun v =>
    !(l.defaultLabels.any fun d => d.toList == Characters.trim (v.content bytes))

/-- The kind of the operator of a node; empty if it has none. -/
def operatorKind (c : Concrete) : String :=
  match c.child? "operator" with
  | some o => o.kind
  | none => ""

/-- A guard directly under an arm. -/
def isCaseGuard (l : Language) (parent : Option String) (kind : String) : Bool :=
  l.guardKinds.contains kind &&
    match parent with
    | some p => l.caseArmKinds.contains p
    | none => false

/-- The tag and the labels of a node under a parent of some kind. -/
def tagOf (l : Language) (bytes : List UInt8) (parent : Option String) (c : Concrete) :
    Tag × Nat :=
  if l.branchKinds.contains c.kind && !isCaseGuard l parent c.kind then (.branch, 0)
  else if l.loopKinds.contains c.kind then (.loop, 0)
  else if l.handlerKinds.contains c.kind then (.handler, 0)
  else if l.ternaryKinds.contains c.kind then (.ternary, 0)
  else if l.logicalKinds.contains c.kind then
    if l.andOperators.contains c.operatorKind then (.logicalAnd, 0)
    else if l.orOperators.contains c.operatorKind then (.logicalOr, 0)
    else (.other, 0)
  else if l.caseArmKinds.contains c.kind then (.caseArm, c.labelCount l bytes)
  else (.other, 0)

/-- The children that go into the tagged tree: named, and no comments. -/
def measured (l : Language) (c : Concrete) : List Concrete :=
  c.namedChildren.filter fun d => !l.commentKinds.contains d.kind

/-- A node whose children are being converted. -/
structure Frame where
  /-- The node. -/
  node : Concrete
  /-- The kind of its parent. -/
  parent : Option String
  /-- The children still to be converted. -/
  pending : List Concrete
  /-- The converted children, the last one first. -/
  built : List Tree

/-- A node none of whose children is converted yet. -/
def Frame.enter (l : Language) (parent : Option String) (c : Concrete) : Frame :=
  ⟨c, parent, c.measured l, []⟩

/-- The tagged tree of a node all of whose children are converted. -/
def Frame.leave (l : Language) (bytes : List UInt8) (f : Frame) : Tree :=
  let (tag, labels) := f.node.tagOf l bytes f.parent
  .node tag labels f.node.kind f.built.reverse

theorem sizes_filter_le (p : Concrete → Bool) (cs : List Concrete) :
    sizes (cs.filter p) ≤ sizes cs := by
  induction cs with
  | nil => simp
  | cons c cs ih =>
    by_cases h : p c = true
    · simp only [List.filter_cons, h, if_true, sizes]; omega
    · simp only [List.filter_cons, h, sizes]; simp; omega

theorem sizes_measured_lt (l : Language) (c : Concrete) : sizes (c.measured l) < size c := by
  cases c with
  | node k n m f s e cs =>
    have h₁ := sizes_filter_le (fun d => !l.commentKinds.contains d.kind)
      (namedChildren (.node k n m f s e cs))
    have h₂ : sizes (namedChildren (.node k n m f s e cs)) ≤ sizes cs := sizes_filter_le _ cs
    simp only [measured, size]
    omega

/-- Converts the children of the top frame one by one, then hands its tree to the frame below. -/
def convert (l : Language) (bytes : List UInt8) (top : Frame) (below : List Frame) : Tree :=
  match top with
  | ⟨here, parent, c :: cs, built⟩ =>
    convert l bytes (.enter l (some here.kind) c) (⟨here, parent, cs, built⟩ :: below)
  | ⟨here, parent, [], built⟩ =>
    let tree := Frame.leave l bytes ⟨here, parent, [], built⟩
    match below with
    | [] => tree
    | ⟨lower, grandparent, pending, done⟩ :: rest =>
      convert l bytes ⟨lower, grandparent, pending, tree :: done⟩ rest
termination_by 2 * (sizes top.pending + total (below.map fun f => sizes f.pending)) + below.length
decreasing_by
  · have := sizes_measured_lt l c
    simp only [Frame.enter, List.map_cons, total_cons, List.length_cons, sizes]
    omega
  · simp only [List.map_cons, total_cons, List.length_cons, sizes]
    omega

/-- The tagged tree of a node under a parent of some kind. -/
def tagged (l : Language) (bytes : List UInt8) (parent : Option String) (c : Concrete) : Tree :=
  convert l bytes (.enter l parent c) []

/-- Nodes paired with the kind of the parent that they have in common. -/
def under (parent : String) (cs : List Concrete) : List (Option String × Concrete) :=
  cs.map (some parent, ·)

theorem map_snd_under (parent : String) (cs : List Concrete) : (under parent cs).map (·.2) = cs := by
  simp [under, Function.comp_def]

/-- The nodes of a tree with the kinds of their parents, in order of their appearance. -/
def walkUnder (stack : List (Option String × Concrete)) : List (Option String × Concrete) :=
  match stack with
  | [] => []
  | (parent, .node k n m f s e cs) :: rest =>
    (parent, .node k n m f s e cs) :: walkUnder (under k cs ++ rest)
termination_by sizes (stack.map (·.2))
decreasing_by
  simp only [List.map_append, map_snd_under, List.map_cons, sizes_append, sizes, size]
  omega

/-- The method that a node declares. -/
def toMethod (l : Language) (bytes : List UInt8) (parent : Option String) (c : Concrete) :
    Method where
  name := match c.child? "name" with
    | some n => String.ofList (n.content bytes)
    | none => "<anonymous>"
  source := Text.ofChars (c.content bytes)
  tree := some (c.tagged l bytes parent)
  startLine := row bytes c.start + 1
  endLine := row bytes c.stop + 1

/-- The methods declared anywhere in a tree, in order of their appearance. -/
def methods (l : Language) (bytes : List UInt8) (root : Concrete) : List Method :=
  ((walkUnder [(none, root)]).filter fun (_, c) => l.methodKinds.contains c.kind).map
    fun (parent, c) => c.toMethod l bytes parent

/-- Where and what the first error of a tree is, if a node tells. -/
def describeError (bytes : List UInt8) (root : Concrete) : String :=
  match root.walk.find? fun c => c.kind == "ERROR" || c.missing with
  | some c =>
    (if c.missing then "missing " ++ c.kind else "syntax error") ++ " at line " ++
      toString (row bytes c.start + 1) ++ ", column " ++ toString (column bytes c.start + 1)
  | none => "syntax error"

end Concrete

end Maintainability
