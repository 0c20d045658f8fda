/-
Walks over trees, against the places of their nodes. A place in a tree is the list of child numbers
that leads to it, and the order of the text is the order of places: a node comes before what is in
it, and a child before the next one. The walk with an explicit stack meets every place once and in
that order (`walkUnder_nodes`, `mem_placed`, `placed_strict`); the conversion with an explicit stack
of half-converted nodes is a plain recursion over the tree (`convert_eq`, `tagged_eq`).
-/
import Maintainability.Syntax.Parser

namespace Maintainability

/-! ## Tagged trees -/

namespace Tree

theorem preorders_append (xs ys : List Tree) : preorders (xs ++ ys) = preorders xs ++ preorders ys := by
  induction xs with
  | nil => simp [preorders]
  | cons x xs ih => simp only [List.cons_append, preorders, ih, List.append_assoc]

/-- What waits on the stack is visited tree by tree. -/
theorem walkFrom_eq (stack : List Tree) : walkFrom stack = preorders stack := by
  fun_induction walkFrom stack with
  | case1 => rfl
  | case2 t n o cs rest ih => rw [ih, preorders_append, preorders, preorder, List.cons_append]

theorem walk_eq (t : Tree) : t.walk = t.preorder := by
  simp [walk, walkFrom_eq, preorders]

end Tree

namespace Concrete

/-! ## Places -/

/-- A node with the kind of its parent. -/
abbrev Placed := Option String × Concrete

/-- The node at a place below a node, reached through children that pass a test only. -/
def at? (keep : Concrete → Bool) (x : Placed) : List Nat → Option Placed
  | [] => some x
  | i :: place =>
    match x.2.children[i]? with
    | some c => if keep c then at? keep (some x.2.kind, c) place else none
    | none => none

mutual

/-- The places below a node that can be reached through children that pass a test, with what stands
there. -/
def placed (keep : Concrete → Bool) (parent : Option String) : Concrete → List (List Nat × Placed)
  | .node k n m f s e cs => ([], parent, .node k n m f s e cs) :: placedFrom keep k 0 cs

/-- The places below children that are numbered from `i` on. -/
def placedFrom (keep : Concrete → Bool) (parent : String) (i : Nat) :
    List Concrete → List (List Nat × Placed)
  | [] => []
  | c :: cs =>
    (if keep c then (placed keep (some parent) c).map fun x => (i :: x.1, x.2) else []) ++
      placedFrom keep parent (i + 1) cs

end

/-- The nodes below a node that can be reached through children that pass a test, in the order of
the text. -/
def nodes (keep : Concrete → Bool) (parent : Option String) (c : Concrete) : List Placed :=
  (c.placed keep parent).map (·.2)

theorem mem_placedFrom {keep : Concrete → Bool} {parent : String} {place : List Nat} {x : Placed} :
    ∀ {i : Nat} {cs : List Concrete}, (place, x) ∈ placedFrom keep parent i cs ↔
      ∃ j rest c, place = (i + j) :: rest ∧ cs[j]? = some c ∧ keep c = true ∧
        (rest, x) ∈ placed keep (some parent) c
  | i, [] => by simp [placedFrom]
  | i, c :: cs => by
    rw [placedFrom, List.mem_append, mem_placedFrom]
    constructor
    · rintro (h | ⟨j, rest, d, rfl, hd, hkeep, hx⟩)
      · split at h
        · next hkeep =>
          obtain ⟨⟨rest, y⟩, hy, he⟩ := List.mem_map.1 h
          cases he
          exact ⟨0, rest, c, rfl, rfl, hkeep, hy⟩
        · cases h
      · exact ⟨j + 1, rest, d, by rw [Nat.add_right_comm, Nat.add_assoc], hd, hkeep, hx⟩
    · rintro ⟨j | j, rest, d, rfl, hd, hkeep, hx⟩
      · cases hd
        rw [if_pos hkeep]
        exact .inl (List.mem_map.2 ⟨(rest, x), hx, rfl⟩)
      · exact .inr ⟨j, rest, d, by rw [Nat.add_right_comm, Nat.add_assoc], hd, hkeep, hx⟩

/-- Every place is listed, with what stands there, and nothing else. -/
theorem mem_placed {keep : Concrete → Bool} {x : Placed} :
    ∀ {place : List Nat} {parent : Option String} {c : Concrete},
      (place, x) ∈ c.placed keep parent ↔ at? keep (parent, c) place = some x
  | [], parent, .node k n m f s e cs => by
    have hbelow : ([], x) ∉ placedFrom keep k 0 cs := fun h => by
      obtain ⟨j, rest, -, hplace, -⟩ := mem_placedFrom.1 h
      cases hplace
    rw [placed, List.mem_cons, at?, Option.some.injEq, eq_comm (b := x)]
    simp [hbelow]
  | i :: place, parent, .node k n m f s e cs => by
    rw [placed, List.mem_cons, mem_placedFrom, at?]
    simp only [children, kind]
    constructor
    · rintro (h | ⟨j, rest, c, hplace, hc, hkeep, hx⟩)
      · cases h
      · cases hplace
        rw [Nat.zero_add, hc]
        simpa only [hkeep, if_true] using mem_placed.1 hx
    · intro h
      split at h
      · next c hc =>
        split at h
        · next hkeep => exact .inr ⟨i, place, c, by rw [Nat.zero_add], hc, hkeep, mem_placed.2 h⟩
        · cases h
      · cases h

theorem placedFrom_head {keep : Concrete → Bool} {parent : String} {i : Nat} {cs : List Concrete}
    {x : List Nat × Placed} (h : x ∈ placedFrom keep parent i cs) : ∃ j rest, x.1 = (i + j) :: rest := by
  obtain ⟨place, y⟩ := x
  obtain ⟨j, rest, -, hplace, -⟩ := mem_placedFrom.1 h
  exact ⟨j, rest, hplace⟩

mutual

/-- The places are listed in the order of the text, so none is listed twice. -/
theorem placed_strict (keep : Concrete → Bool) (parent : Option String) :
    ∀ c : Concrete, (c.placed keep parent).Pairwise fun a b => a.1 < b.1
  | .node k n m f s e cs => by
    rw [placed, List.pairwise_cons]
    refine ⟨fun x hx => ?_, placedFrom_strict keep k 0 cs⟩
    obtain ⟨j, rest, hplace⟩ := placedFrom_head hx
    rw [hplace]
    exact List.nil_lt_cons _ _

theorem placedFrom_strict (keep : Concrete → Bool) (parent : String) (i : Nat) :
    ∀ cs : List Concrete, (placedFrom keep parent i cs).Pairwise fun a b => a.1 < b.1
  | [] => by simp [placedFrom]
  | c :: cs => by
    rw [placedFrom, List.pairwise_append]
    refine ⟨?_, placedFrom_strict keep parent (i + 1) cs, fun x hx y hy => ?_⟩
    · split
      · refine List.pairwise_map.2 ((placed_strict keep (some parent) c).imp fun h => ?_)
        exact List.cons_lt_cons_iff.2 (.inr ⟨rfl, h⟩)
      · exact .nil
    · split at hx
      · obtain ⟨z, -, rfl⟩ := List.mem_map.1 hx
        obtain ⟨j, rest, hplace⟩ := placedFrom_head hy
        rw [hplace]
        exact List.cons_lt_cons_iff.2 (.inl (by omega))
      · cases hx

end

/-! ## The walk -/

theorem placedFrom_nodes (keep : Concrete → Bool) (parent : String) : ∀ (i : Nat) (cs : List Concrete),
    (placedFrom keep parent i cs).map (·.2) = (cs.filter keep).flatMap (nodes keep (some parent))
  | _, [] => by simp [placedFrom]
  | i, c :: cs => by
    rw [placedFrom, List.map_append, placedFrom_nodes keep parent (i + 1) cs]
    by_cases h : keep c = true
    · simp [h, nodes, Function.comp_def]
    · simp [h]

/-- A node comes first, then what is in its children, one child after the other. -/
theorem nodes_eq (keep : Concrete → Bool) (parent : Option String) (c : Concrete) :
    c.nodes keep parent = (parent, c) :: (c.children.filter keep).flatMap (nodes keep (some c.kind)) := by
  cases c with
  | node k n m f s e cs => rw [nodes, placed, List.map_cons, placedFrom_nodes]; rfl

/-- What waits on the stack is visited tree by tree. -/
theorem walkUnder_nodes (stack : List Placed) :
    walkUnder stack = stack.flatMap fun x => x.2.nodes (fun _ => true) x.1 := by
  fun_induction walkUnder stack with
  | case1 => rfl
  | case2 parent k n m f s e cs rest ih =>
    have hall : cs.filter (fun _ => true) = cs := List.filter_eq_self.2 fun _ _ => rfl
    rw [ih, List.flatMap_append, List.flatMap_cons, nodes_eq, under, List.flatMap_map, children, kind, hall]
    rfl

/-! ## The conversion -/

/-- A child that goes into the tagged tree: named, and no comment. -/
def isMeasured (l : Language) (c : Concrete) : Bool := c.named && !l.commentKinds.contains c.kind

mutual

/-- The tagged tree of a node under a parent of some kind, by recursion: the tag and the labels of
the node over the tagged trees of its named children that are no comments. -/
def reduced (l : Language) (bytes : List UInt8) (parent : Option String) : Concrete → Tree
  | .node k n m f s e cs =>
    let (tag, labels) := tagOf l bytes parent (.node k n m f s e cs)
    .node tag labels k (reducedAll l bytes k cs)

/-- The tagged trees of the children that count. -/
def reducedAll (l : Language) (bytes : List UInt8) (parent : String) : List Concrete → List Tree
  | [] => []
  | c :: cs =>
    if isMeasured l c then reduced l bytes (some parent) c :: reducedAll l bytes parent cs
    else reducedAll l bytes parent cs

end

theorem measured_eq (l : Language) (c : Concrete) : c.measured l = c.children.filter (isMeasured l) := by
  rw [measured, namedChildren, List.filter_filter]
  exact List.filter_congr fun d _ => Bool.and_comm _ _

theorem reducedAll_eq (l : Language) (bytes : List UInt8) (parent : String) (cs : List Concrete) :
    reducedAll l bytes parent cs = (cs.filter (isMeasured l)).map (reduced l bytes (some parent)) := by
  induction cs with
  | nil => simp [reducedAll]
  | cons c cs ih =>
    rw [reducedAll, ih, List.filter_cons]
    split <;> rfl

theorem reduced_eq (l : Language) (bytes : List UInt8) (parent : Option String) (c : Concrete) :
    c.reduced l bytes parent =
      .node (c.tagOf l bytes parent).1 (c.tagOf l bytes parent).2 c.kind
        ((c.measured l).map (reduced l bytes (some c.kind))) := by
  cases c with
  | node k n m f s e cs => rw [reduced, reducedAll_eq, measured_eq]; rfl

/-- The tagged tree that a frame comes to: the children converted so far, and then the others. -/
def Frame.finished (l : Language) (bytes : List UInt8) (f : Frame) : Tree :=
  .node (f.node.tagOf l bytes f.parent).1 (f.node.tagOf l bytes f.parent).2 f.node.kind
    (f.built.reverse ++ f.pending.map (reduced l bytes (some f.node.kind)))

/-- The tree that comes out at the bottom when a tree is handed to the frames below it. -/
def handed (l : Language) (bytes : List UInt8) (t : Tree) : List Frame → Tree
  | [] => t
  | f :: rest => handed l bytes (Frame.finished l bytes { f with built := t :: f.built }) rest

theorem Frame.finished_enter (l : Language) (bytes : List UInt8) (parent : Option String) (c : Concrete) :
    (Frame.enter l parent c).finished l bytes = c.reduced l bytes parent := by
  rw [reduced_eq]
  simp [finished, enter]

/-- A stack of frames comes to what its top frame comes to, handed down. -/
theorem convert_eq (l : Language) (bytes : List UInt8) (top : Frame) (below : List Frame) :
    convert l bytes top below = handed l bytes (top.finished l bytes) below := by
  fun_induction convert l bytes top below with
  | case1 below here parent c cs built ih =>
    rw [ih, handed, Frame.finished_enter]
    simp [Frame.finished]
  | case2 here parent built tree =>
    simp [handed, tree, Frame.leave, Frame.finished]
  | case3 here parent built tree lower grandparent pending done rest ih =>
    rw [ih, handed]
    simp [tree, Frame.leave, Frame.finished]

theorem tagged_eq (l : Language) (bytes : List UInt8) (parent : Option String) (c : Concrete) :
    c.tagged l bytes parent = c.reduced l bytes parent := by
  rw [tagged, convert_eq, handed, Frame.finished_enter]

end Concrete

end Maintainability
