/-
Walks over tagged trees, and the order of children. A walk visits what stands at the places of a tree, each
place once and in the order of the text (`traversed_walk`). Its stack loses the node on top in every round and
gains the children of this node, so it is the trees on the stack that shrink and not the stack: there are as many
rounds as nodes (`rounds_eq`, `rounds_over`). What the walk adds up is a structural sum (`complexity_eq`). A sum
does not depend on the order of its terms, so the complexity stays the same however the children of any nodes
are rearranged (`decisions_rearranged`).
-/
import Mathlib.Algebra.BigOperators.Group.List.Basic
import Mathlib.Data.List.Forall2
import Maintainability.Metric.Complexity
import Maintainability.Proofs.Traversal

namespace Maintainability

namespace Tree

/-! ## Places -/

/-- The node at a place, where a place is the list of child numbers that leads to it. -/
def at? (t : Tree) : List Nat → Option Tree
  | [] => some t
  | i :: place => t.children[i]?.bind (at? · place)

mutual

/-- The places of a tree at which there is a node, in the order of the text. -/
def places : Tree → List (List Nat)
  | .node _ _ _ cs => [] :: placesFrom 0 cs

/-- The places below children that are numbered from `i` on. -/
def placesFrom (i : Nat) : List Tree → List (List Nat)
  | [] => []
  | c :: cs => c.places.map (i :: ·) ++ placesFrom (i + 1) cs

end

/-- Nodes are those of a tree, place by place. -/
structure Traversed (t : Tree) (places : List (List Nat)) (nodes : List Tree) : Prop where
  /-- The places stand in the order of the text, none of them twice. -/
  ordered : places.Pairwise (· < ·)
  /-- They are all the places of the tree. -/
  complete : ∀ place, place ∈ places ↔ (t.at? place).isSome
  /-- One after the other, the nodes are those that stand there. -/
  matched : nodes.map some = places.map t.at?

/-- What a node has as soon as its children have it, every tree has. -/
@[elab_as_elim]
theorem children_induction {motive : Tree → Prop} (node : ∀ t : Tree, (∀ c ∈ t.children, motive c) → motive t) :
    ∀ t, motive t
  | .node _ _ _ cs => node _ fun c (_ : c ∈ cs) => children_induction node c

theorem placesFrom_eq (i : Nat) (cs : List Tree) :
    placesFrom i cs = (cs.zipIdx i).flatMap fun x => x.1.places.map (x.2 :: ·) := by
  induction cs generalizing i with
  | nil => simp [placesFrom]
  | cons c cs ih => rw [placesFrom, ih, List.zipIdx_cons, List.flatMap_cons]

theorem places_eq (t : Tree) :
    t.places = [] :: t.children.zipIdx.flatMap fun x => x.1.places.map (x.2 :: ·) := by
  cases t with
  | node tag labels origin cs => rw [places, placesFrom_eq, children]

theorem preorders_eq (ts : List Tree) : preorders ts = ts.flatMap preorder := by
  induction ts with
  | nil => simp [preorders]
  | cons t ts ih => rw [preorders, ih, List.flatMap_cons]

theorem preorder_eq (t : Tree) : t.preorder = t :: t.children.flatMap preorder := by
  cases t with
  | node tag labels origin cs => rw [preorder, preorders_eq, children]

theorem mem_places {t : Tree} {place : List Nat} : place ∈ t.places ↔ (t.at? place).isSome := by
  induction place generalizing t with
  | nil => rw [places_eq, at?]; simp
  | cons i place ih =>
    have hbelow : i :: place ∈ t.places ↔ ∃ c, t.children[i]? = some c ∧ place ∈ c.places := by
      rw [places_eq]
      simp [List.mem_zipIdx_iff_getElem?]
    rw [hbelow, at?, Option.isSome_bind]
    simp [ih, Option.any_eq_true]

/-- The places are listed in the order of the text, so none is listed twice. -/
theorem places_strict (t : Tree) : t.places.Pairwise (· < ·) := by
  induction t using children_induction with
  | node t ih =>
    rw [places_eq, List.pairwise_cons, List.pairwise_flatMap]
    refine ⟨?_, ?_, ?_⟩
    · -- the root is in front of everything below it
      intro p hp
      obtain ⟨x, -, hp⟩ := List.mem_flatMap.1 hp
      obtain ⟨place, -, rfl⟩ := List.mem_map.1 hp
      exact List.nil_lt_cons _ _
    · -- below one child, all places go on from its number
      intro x hx
      have hc : x.1 ∈ t.children := List.mem_of_getElem? (List.mem_zipIdx_iff_getElem?.1 hx)
      exact List.pairwise_map.2 ((ih _ hc).imp fun h => List.cons_lt_cons_iff.2 (.inr ⟨rfl, h⟩))
    · -- of two children, the numbers decide
      have hnumbers : t.children.zipIdx.Pairwise fun x y => x.2 < y.2 := by
        rw [← List.pairwise_map, List.zipIdx_map_snd]
        exact List.pairwise_lt_range'
      refine hnumbers.imp fun h p hp q hq => ?_
      obtain ⟨p, -, rfl⟩ := List.mem_map.1 hp
      obtain ⟨q, -, rfl⟩ := List.mem_map.1 hq
      exact List.cons_lt_cons_iff.2 (.inl h)

theorem at?_places (t : Tree) : t.preorder.map some = t.places.map t.at? := by
  induction t using children_induction with
  | node t ih =>
    have hchild : ∀ x ∈ t.children.zipIdx,
        (x.1.places.map (x.2 :: ·)).map t.at? = x.1.preorder.map some := by
      intro x hx
      have hc : t.children[x.2]? = some x.1 := List.mem_zipIdx_iff_getElem?.1 hx
      rw [ih _ (List.mem_of_getElem? hc), List.map_map]
      refine List.map_congr_left fun place _ => ?_
      simp [at?, hc]
    have hbelow : (t.children.zipIdx.flatMap fun x => x.1.preorder.map some) =
        t.children.flatMap fun c => c.preorder.map some := by
      rw [← List.flatMap_map Prod.fst fun c : Tree => c.preorder.map some, List.zipIdx_map_fst]
    rw [places_eq, preorder_eq, List.map_cons, List.map_cons, List.map_flatMap, List.map_flatMap,
      List.flatMap_congr hchild, hbelow, at?]

theorem traversed_walk (t : Tree) : t.Traversed t.places t.walk where
  ordered := places_strict t
  complete _ := mem_places
  matched := by rw [walk_eq, at?_places]

/-! ## Rounds -/

/-- One round of a walk whose stack has its top at the end: the node on top is taken off and visited, and its
children are put on, the last one first. -/
def round? (stack : List Tree) : Option (Tree × List Tree) :=
  stack.getLast?.map fun t => (t, stack.dropLast ++ t.children.reverse)

/-- What a number of rounds visit, and the stack that they leave. There is no round without anything on the
stack. -/
def rounds (stack : List Tree) : Nat → List Tree × List Tree
  | 0 => ([], stack)
  | n + 1 =>
    match round? stack with
    | none => ([], stack)
    | some (t, next) => (t :: (rounds next n).1, (rounds next n).2)

theorem round?_eq_none {stack : List Tree} : round? stack = none ↔ stack = [] := by
  simp [round?]

theorem walkFrom_cons (t : Tree) (rest : List Tree) : walkFrom (t :: rest) = t :: walkFrom (t.children ++ rest) := by
  cases t with
  | node tag labels origin cs => rw [walkFrom, children]

theorem walkFrom_eq_nil {stack : List Tree} : walkFrom stack = [] ↔ stack = [] := by
  cases stack with
  | nil => simp [walkFrom]
  | cons t rest => simp [walkFrom_cons]

/-- A round visits the first of what the stack has still to give. -/
theorem walkFrom_round {stack next : List Tree} {t : Tree} (h : round? stack = some (t, next)) :
    walkFrom stack.reverse = t :: walkFrom next.reverse := by
  obtain ⟨top, htop, he⟩ := Option.map_eq_some_iff.1 h
  obtain ⟨below, rfl⟩ := List.getLast?_eq_some_iff.1 htop
  obtain ⟨rfl, rfl⟩ := Prod.mk.inj he
  simp [walkFrom_cons]

/-- So many rounds visit so many nodes of what the stack has to give, and the rest is still on it. -/
theorem rounds_eq (stack : List Tree) (n : Nat) :
    (rounds stack n).1 = (walkFrom stack.reverse).take n ∧
      walkFrom (rounds stack n).2.reverse = (walkFrom stack.reverse).drop n := by
  induction n generalizing stack with
  | zero => simp [rounds]
  | succ n ih =>
    rw [rounds]
    cases h : round? stack with
    | none => simp [round?_eq_none.1 h, walkFrom]
    | some x =>
      obtain ⟨t, next⟩ := x
      obtain ⟨hvisited, hleft⟩ := ih next
      simp [walkFrom_round h, hvisited, hleft]

mutual

theorem length_preorder : ∀ t : Tree, t.preorder.length = t.size
  | .node _ _ _ cs => by rw [preorder, size, List.length_cons, length_preorders cs, Nat.add_comm]

theorem length_preorders : ∀ ts : List Tree, (preorders ts).length = sizes ts
  | [] => by simp [preorders, sizes]
  | t :: ts => by rw [preorders, sizes, List.length_append, length_preorder t, length_preorders ts]

end

/-- A walk is over after as many rounds as there are nodes, and not before. -/
theorem rounds_over (t : Tree) (n : Nat) : (rounds [t] n).2 = [] ↔ t.size ≤ n := by
  obtain ⟨-, hleft⟩ := rounds_eq [t] n
  rw [← List.reverse_eq_nil_iff, ← walkFrom_eq_nil, hleft, List.drop_eq_nil_iff, List.reverse_singleton]
  rw [← walk, walk_eq, length_preorder]

/-! ## Decisions -/

mutual

/-- The decisions in a tree: those of its root, and those in its children. -/
def decisions : Tree → Int
  | .node tag labels origin cs => weight (.node tag labels origin cs) + decisionsAll cs

/-- The decisions in the trees of a forest. -/
def decisionsAll : List Tree → Int
  | [] => 0
  | t :: ts => t.decisions + decisionsAll ts

end

theorem decisionsAll_eq (ts : List Tree) : decisionsAll ts = total (ts.map decisions) := by
  induction ts with
  | nil => rfl
  | cons t ts ih => rw [decisionsAll, ih, List.map_cons, total_cons]

theorem decisions_eq (t : Tree) : t.decisions = t.weight + total (t.children.map decisions) := by
  cases t with
  | node tag labels origin cs => rw [decisions, decisionsAll_eq, children]

mutual

theorem total_preorder : ∀ t : Tree, total (t.preorder.map weight) = t.decisions
  | .node _ _ _ cs => by rw [preorder, decisions, List.map_cons, total_cons, total_preorders cs]

theorem total_preorders : ∀ ts : List Tree, total ((preorders ts).map weight) = decisionsAll ts
  | [] => by simp [preorders, decisionsAll]
  | t :: ts => by
    rw [preorders, decisionsAll, List.map_append, total_append, total_preorder t, total_preorders ts]

end

theorem complexity_eq (t : Tree) : t.complexity = 1 + t.decisions := by
  rw [complexity, walk_eq, total_preorder]

/-! ## Rearrangements -/

/-- Trees that differ in the order of children only. At every node, the children are rearranged themselves and
then put into another order. -/
inductive Rearranged : Tree → Tree → Prop
  | node {tag : Tag} {labels : Int} {origin : String} {cs ds es : List Tree} (below : List.Forall₂ Rearranged cs ds)
      (order : ds.Perm es) : Rearranged (.node tag labels origin cs) (.node tag labels origin es)

mutual

theorem decisions_rearranged : ∀ {t u : Tree}, t.Rearranged u → u.decisions = t.decisions
  | .node tag labels origin cs, .node _ _ _ es, .node below order => by
    have hsum : decisionsAll es = decisionsAll cs := by
      rw [← decisionsAll_rearranged below, decisionsAll_eq, decisionsAll_eq]
      exact (order.map decisions).sum_eq.symm
    -- the roots have the same tag and labels, and so the same weight
    rw [decisions, decisions, hsum]
    rfl

theorem decisionsAll_rearranged : ∀ {ts us : List Tree}, List.Forall₂ Rearranged ts us →
    decisionsAll us = decisionsAll ts
  | [], _, .nil => rfl
  | _ :: _, _, .cons h hs => by
    rw [decisionsAll, decisionsAll, decisions_rearranged h, decisionsAll_rearranged hs]

end

end Tree

/-- **A walk is a traversal, and the complexity does not depend on the order of children.** Whatever the tree, the
walk visits its nodes as recursion does, a node before its children: what stands at its places, each of them once
and in the order of the text. With the stack turned round, a number of rounds visit so many of these nodes, and
the rounds are over after as many as there are nodes. The complexity is one more than the structural sum of the
weights, and every rearrangement of the children of any nodes has the same. -/
theorem walk_exact (t : Tree) :
    (t.walk = t.preorder ∧ ∃ places, t.Traversed places t.walk) ∧
      (∀ n, (Tree.rounds [t] n).1 = t.walk.take n ∧ ((Tree.rounds [t] n).2 = [] ↔ t.size ≤ n)) ∧
      (t.complexity = 1 + t.decisions ∧
        ∀ s : Tree, s.decisions = s.weight + total (s.children.map Tree.decisions)) ∧
      ∀ u, t.Rearranged u → u.complexity = t.complexity := by
  refine ⟨⟨t.walk_eq, _, t.traversed_walk⟩, fun n => ⟨?_, t.rounds_over n⟩, ⟨t.complexity_eq, Tree.decisions_eq⟩, ?_⟩
  · exact (Tree.rounds_eq [t] n).1
  · intro u h
    rw [Tree.complexity_eq, Tree.complexity_eq, Tree.decisions_rearranged h]

/-- An arm with three labels changes places with a loop, and what is in it is exchanged as well. -/
theorem walk_exact_exchanged :
    let t : Tree := .node .other 0 "" [.node .caseArm 3 "" [.node .ternary 0 "" [], .node .handler 0 "" []],
      .node .loop 0 "" []]
    let u : Tree := .node .other 0 "" [.node .loop 0 "" [],
      .node .caseArm 3 "" [.node .handler 0 "" [], .node .ternary 0 "" []]]
    t.Rearranged u ∧ t.complexity = 7 ∧ u.complexity = 7 := by
  intro t u
  obtain ⟨-, -, ⟨hcount, -⟩, horder⟩ := walk_exact t
  have hleaf : ∀ tag, Tree.Rearranged (.node tag 0 "" []) (.node tag 0 "" []) := fun _ => .node .nil .nil
  have harm : Tree.Rearranged (.node .caseArm 3 "" [.node .ternary 0 "" [], .node .handler 0 "" []])
      (.node .caseArm 3 "" [.node .handler 0 "" [], .node .ternary 0 "" []]) :=
    .node (.cons (hleaf _) (.cons (hleaf _) .nil)) (.swap _ _ _)
  have htu : t.Rearranged u := .node (.cons harm (.cons (hleaf _) .nil)) (.swap _ _ _)
  have hsum : t.decisions = 6 := by decide
  have ht : t.complexity = 7 := by rw [hcount, hsum]; rfl
  exact ⟨htu, ht, (horder u htu).trans ht⟩

end Maintainability
