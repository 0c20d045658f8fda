/-
The complexity of a method, against its concrete tree. What counts of a method are the nodes that can
be reached from its declaration through named children that are no comments, and among them the
decisions are counted class by class (`decisions`): branches that are no guards of an arm, loops,
handlers, conditional expressions, short-circuit operators, and the labels of arms. The languages of
the library keep these classes apart (`Language.Separate`), so the count over the tagged tree, where a
node has one tag, comes to the same (`complexity_tagged`).
-/
import Mathlib.Algebra.Order.BigOperators.Group.List
import Maintainability.Proofs.Files
import Maintainability.Proofs.Methods

namespace Maintainability

/-! ## Languages -/

/-- A language whose classes of nodes have no kind in common, so that the order in which they are
tried does not show. -/
structure Language.Separate (l : Language) : Prop where
  /-- A branch decides in no other way, -/
  branch : ∀ k ∈ l.branchKinds, k ∉ l.loopKinds ∧ k ∉ l.handlerKinds ∧ k ∉ l.ternaryKinds ∧
    k ∉ l.logicalKinds ∧ k ∉ l.caseArmKinds
  /-- nor does a loop, -/
  loop : ∀ k ∈ l.loopKinds, k ∉ l.handlerKinds ∧ k ∉ l.ternaryKinds ∧ k ∉ l.logicalKinds ∧ k ∉ l.caseArmKinds
  /-- a handler, -/
  handler : ∀ k ∈ l.handlerKinds, k ∉ l.ternaryKinds ∧ k ∉ l.logicalKinds ∧ k ∉ l.caseArmKinds
  /-- a conditional expression -/
  ternary : ∀ k ∈ l.ternaryKinds, k ∉ l.logicalKinds ∧ k ∉ l.caseArmKinds
  /-- or a node with an operator. -/
  logical : ∀ k ∈ l.logicalKinds, k ∉ l.caseArmKinds
  /-- No label is a value. -/
  labels : ∀ k ∈ l.caseLabelKinds, k ∉ l.caseValueKinds
  /-- Every operator has a name. -/
  operators : "" ∉ l.andOperators ∧ "" ∉ l.orOperators

theorem Language.separate {l : Language} (hl : l ∈ Language.all) : l.Separate := by
  simp only [Language.all, List.mem_cons, List.not_mem_nil, or_false] at hl
  rcases hl with rfl | rfl
  · exact ⟨by decide, by decide, by decide, by decide, by decide, by decide, by decide⟩
  · exact ⟨by decide, by decide, by decide, by decide, by decide, by decide, by decide⟩

namespace Concrete

/-! ## Decisions -/

/-- A branch that is not a guard directly under an arm. -/
def isBranch (l : Language) (x : Placed) : Bool :=
  x.2.kind ∈ l.branchKinds ∧ ¬ (x.2.kind ∈ l.guardKinds ∧ ∃ p ∈ x.1, p ∈ l.caseArmKinds)

/-- A node whose first operator is a short-circuit one. -/
def isShortCircuit (l : Language) (x : Placed) : Bool :=
  x.2.kind ∈ l.logicalKinds ∧
    ∃ o ∈ x.2.child? "operator", o.kind ∈ l.andOperators ∨ o.kind ∈ l.orOperators

/-- The values of an arm: the named children of its labels that are values, and those on the arm
itself. -/
def armValues (l : Language) (arm : Concrete) : List Concrete :=
  (arm.namedChildren.filter (·.kind ∈ l.caseLabelKinds)).flatMap
      (fun label => label.namedChildren.filter (·.kind ∉ l.nonValueKinds)) ++
    arm.namedChildren.filter (·.kind ∈ l.caseValueKinds)

/-- The values of an arm whose text is not one that stands for the last resort. -/
def armLabels (l : Language) (bytes : List UInt8) (arm : Concrete) : Nat :=
  (arm.armValues l).countP fun v => String.ofList (Characters.trim (v.content bytes)) ∉ l.defaultLabels

/-- The decisions of some nodes, class by class. -/
def decisions (l : Language) (bytes : List UInt8) (xs : List Placed) : Nat :=
  xs.countP (isBranch l) + xs.countP (·.2.kind ∈ l.loopKinds) + xs.countP (·.2.kind ∈ l.handlerKinds) +
    xs.countP (·.2.kind ∈ l.ternaryKinds) + xs.countP (isShortCircuit l) +
    total ((xs.filter (·.2.kind ∈ l.caseArmKinds)).map fun x => x.2.armLabels l bytes)

theorem decisions_append (l : Language) (bytes : List UInt8) (xs ys : List Placed) :
    decisions l bytes (xs ++ ys) = decisions l bytes xs + decisions l bytes ys := by
  simp only [decisions, List.countP_append, List.filter_append, List.map_append, total_append]
  omega

/-! ## Tags -/

/-- The values that are met label by label are those of the arm, in another order. -/
theorem caseValues_perm {l : Language} (h : l.Separate) (arm : Concrete) :
    (arm.caseValues l).Perm (arm.armValues l) := by
  rw [caseValues, armValues]
  induction arm.namedChildren with
  | nil => simp
  | cons c cs ih =>
    rw [List.flatMap_cons]
    by_cases hlabel : c.kind ∈ l.caseLabelKinds
    · have hvalue : c.kind ∉ l.caseValueKinds := h.labels _ hlabel
      simp only [List.contains_eq_mem, hlabel, decide_true, if_true, List.filter_cons, hvalue, decide_false,
        Bool.false_eq_true, if_false, List.flatMap_cons, List.append_assoc]
      simpa using ih.append_left _
    · by_cases hvalue : c.kind ∈ l.caseValueKinds
      · simp only [List.contains_eq_mem, hlabel, decide_false, Bool.false_eq_true, if_false, hvalue, decide_true,
          if_true, List.filter_cons, List.singleton_append]
        simpa using (ih.cons c).trans List.perm_middle.symm
      · simpa [hlabel, hvalue] using ih

theorem labelCount_eq {l : Language} (h : l.Separate) (bytes : List UInt8) (arm : Concrete) :
    arm.labelCount l bytes = arm.armLabels l bytes := by
  rw [labelCount, (caseValues_perm h arm).countP_eq, armLabels]
  refine List.countP_congr fun v _ => ?_
  have htext : ∀ (d : String) (cs : List Char), d.toList = cs ↔ d = String.ofList cs := fun d cs =>
    ⟨fun hd => by rw [← hd, String.ofList_toList], fun hd => by rw [hd, String.toList_ofList]⟩
  simp only [List.any_eq_true, beq_iff_eq, htext, Bool.not_eq_true', decide_eq_true_eq, ← Bool.not_eq_true]
  exact ⟨fun hv hmem => hv ⟨_, hmem, rfl⟩, fun hv ⟨d, hd, he⟩ => hv (he ▸ hd)⟩

theorem isCaseGuard_iff (l : Language) (x : Placed) :
    isCaseGuard l x.1 x.2.kind = true ↔ x.2.kind ∈ l.guardKinds ∧ ∃ p ∈ x.1, p ∈ l.caseArmKinds := by
  obtain ⟨parent, c⟩ := x
  cases parent <;> simp [isCaseGuard]

theorem isBranch_eq (l : Language) (x : Placed) :
    isBranch l x = (l.branchKinds.contains x.2.kind && !isCaseGuard l x.1 x.2.kind) := by
  rw [isBranch, Bool.eq_iff_iff, decide_eq_true_iff, ← isCaseGuard_iff]
  simp

/-- A node without an operator has none of the named ones. -/
theorem isShortCircuit_eq {l : Language} (h : l.Separate) (x : Placed) :
    isShortCircuit l x = (l.logicalKinds.contains x.2.kind &&
      (l.andOperators.contains x.2.operatorKind || l.orOperators.contains x.2.operatorKind)) := by
  rw [isShortCircuit, operatorKind]
  cases x.2.child? "operator" with
  | none => simp [h.operators]
  | some o => simp

/-- A node contributes the decisions of its classes. -/
theorem weight_node {l : Language} (h : l.Separate) (bytes : List UInt8) (x : Placed) (ts : List Tree) :
    (Tree.node (x.2.tagOf l bytes x.1).1 (x.2.tagOf l bytes x.1).2 x.2.kind ts).weight =
      decisions l bytes [x] := by
  simp only [decisions, List.countP_singleton, List.filter_singleton, isBranch_eq, isShortCircuit_eq h, tagOf,
    labelCount_eq h, List.contains_eq_mem]
  by_cases hbranch : x.2.kind ∈ l.branchKinds
  · obtain ⟨hloop, hhandler, hternary, hlogical, harm⟩ := h.branch _ hbranch
    cases hguard : isCaseGuard l x.1 x.2.kind <;>
      simp [hbranch, hloop, hhandler, hternary, hlogical, harm, Tree.weight, Tree.tag]
  by_cases hloop : x.2.kind ∈ l.loopKinds
  · obtain ⟨hhandler, hternary, hlogical, harm⟩ := h.loop _ hloop
    simp [hbranch, hloop, hhandler, hternary, hlogical, harm, Tree.weight, Tree.tag]
  by_cases hhandler : x.2.kind ∈ l.handlerKinds
  · obtain ⟨hternary, hlogical, harm⟩ := h.handler _ hhandler
    simp [hbranch, hloop, hhandler, hternary, hlogical, harm, Tree.weight, Tree.tag]
  by_cases hternary : x.2.kind ∈ l.ternaryKinds
  · obtain ⟨hlogical, harm⟩ := h.ternary _ hternary
    simp [hbranch, hloop, hhandler, hternary, hlogical, harm, Tree.weight, Tree.tag]
  by_cases hlogical : x.2.kind ∈ l.logicalKinds
  · have harm := h.logical _ hlogical
    by_cases hand : x.2.operatorKind ∈ l.andOperators
    · simp [hbranch, hloop, hhandler, hternary, hlogical, harm, hand, Tree.weight, Tree.tag]
    · by_cases hor : x.2.operatorKind ∈ l.orOperators <;>
        simp [hbranch, hloop, hhandler, hternary, hlogical, harm, hand, hor, Tree.weight, Tree.tag]
  by_cases harm : x.2.kind ∈ l.caseArmKinds <;>
    simp [hbranch, hloop, hhandler, hternary, hlogical, harm, Tree.weight, Tree.tag, Tree.labels]

/-! ## Reachable nodes -/

/-- What can be reached from a node that can be reached stands together. -/
theorem nodes_at {keep : Concrete → Bool} : ∀ {place : List Nat} {x y : Placed}, at? keep x place = some y →
    y.2.nodes keep y.1 <:+: x.2.nodes keep x.1
  | [], x, y, h => by
    cases h
    exact List.infix_rfl
  | i :: place, x, y, h => by
    rw [at?] at h
    split at h
    · next c hc =>
      split at h
      · next hkeep =>
        have hmem : c ∈ x.2.children.filter keep := List.mem_filter.2 ⟨List.mem_of_getElem? hc, hkeep⟩
        have hbelow : c.nodes keep (some x.2.kind) <:+:
            (x.2.children.filter keep).flatMap (nodes keep (some x.2.kind)) := by
          rw [List.flatMap_def]
          exact List.infix_of_mem_flatten (List.mem_map_of_mem hmem)
        rw [nodes_eq keep x.1 x.2]
        exact ((nodes_at h).trans hbelow).trans (List.suffix_cons _ _).isInfix
      · cases h
    · cases h

mutual

/-- The nodes of the tagged tree are those of the nodes that can be reached. -/
theorem preorder_reduced (l : Language) (bytes : List UInt8) (parent : Option String) : ∀ c : Concrete,
    (c.reduced l bytes parent).preorder =
      (c.nodes (isMeasured l) parent).map fun x => x.2.reduced l bytes x.1
  | .node k n m f s e cs => by
    rw [nodes_eq, List.map_cons, reduced, Tree.preorder, preorder_reducedAll l bytes k cs]
    rfl

theorem preorder_reducedAll (l : Language) (bytes : List UInt8) (parent : String) : ∀ cs : List Concrete,
    Tree.preorders (reducedAll l bytes parent cs) =
      ((cs.filter (isMeasured l)).flatMap (nodes (isMeasured l) (some parent))).map
        fun x => x.2.reduced l bytes x.1
  | [] => by simp [reducedAll, Tree.preorders]
  | c :: cs => by
    rw [reducedAll, List.filter_cons]
    split
    · rw [Tree.preorders, preorder_reduced l bytes (some parent) c, preorder_reducedAll l bytes parent cs,
        List.flatMap_cons, List.map_append]
    · exact preorder_reducedAll l bytes parent cs

end

theorem weights_eq {l : Language} (h : l.Separate) (bytes : List UInt8) (xs : List Placed) :
    total (xs.map fun x => (x.2.reduced l bytes x.1).weight) = decisions l bytes xs := by
  induction xs with
  | nil => rfl
  | cons x xs ih =>
    have hcons : decisions l bytes (x :: xs) = decisions l bytes [x] + decisions l bytes xs :=
      decisions_append l bytes [x] xs
    rw [List.map_cons, total_cons, ih, reduced_eq, weight_node h, hcons, Int.natCast_add]

/-- The complexity of a tagged tree is one more than the decisions of the nodes that can be reached. -/
theorem complexity_tagged {l : Language} (h : l.Separate) (bytes : List UInt8) (parent : Option String)
    (c : Concrete) :
    (c.tagged l bytes parent).complexity = 1 + decisions l bytes (c.nodes (isMeasured l) parent) := by
  rw [tagged_eq, Tree.complexity, Tree.walk_eq, preorder_reduced, List.map_map, ← weights_eq h]
  rfl

/-- What can be reached from a node decides no more than the node. -/
theorem complexity_at {l : Language} (h : l.Separate) (bytes : List UInt8) {x y : Placed} {place : List Nat}
    (hy : at? (isMeasured l) x place = some y) :
    (y.2.tagged l bytes y.1).complexity ≤ (x.2.tagged l bytes x.1).complexity := by
  obtain ⟨before, after, hsplit⟩ := nodes_at hy
  rw [complexity_tagged h, complexity_tagged h, ← hsplit, decisions_append, decisions_append]
  omega

end Concrete

/-! ## Files -/

/-- A file is at least as complex as it has methods, when each of them has a complexity of one or
more. -/
theorem Measure.methodCount_le {parser : SourceParser} {s : Source} {m : FileMetrics} {b : Recorded}
    {ms : List Method} {said : List Log.Record} (hparser : parser s = .methods ms said)
    (hone : ∀ x ∈ ms, ∀ tree, x.tree = some tree → 1 ≤ tree.complexity)
    (h : (prepare parser s).1 = .ready m b) :
    m.methodCount = ms.length ∧ max 1 m.methodCount ≤ m.complexity := by
  obtain ⟨ms', said', t, hparser', ht, hm, -⟩ := prepare_inv h
  obtain ⟨rfl, -⟩ := Parsing.methods.inj (hparser.symm.trans hparser')
  obtain ⟨hcomplexity, hcount⟩ := metrics_counts hm
  obtain ⟨trees, htrees, hsum⟩ := addMethods_complexity ht
  have hlength : trees.length = ms.length := by simpa using (congrArg List.length htrees).symm
  have hle : ∀ n ∈ trees.map Tree.complexity, 1 ≤ n := by
    intro n hn
    obtain ⟨tree, htree, rfl⟩ := List.mem_map.1 hn
    have hmem : some tree ∈ ms.map (·.tree) := htrees ▸ List.mem_map_of_mem htree
    obtain ⟨x, hx, hxt⟩ := List.mem_map.1 hmem
    exact hone x hx tree hxt
  have htotal : (ms.length : Int) ≤ total (trees.map Tree.complexity) := by
    have hcard : (trees.map Tree.complexity).length • (1 : Int) ≤ total (trees.map Tree.complexity) :=
      List.card_nsmul_le_sum _ _ hle
    simpa [hlength] using hcard
  have hzero : t.complexity = total (trees.map Tree.complexity) := hsum.trans (Int.zero_add _)
  rw [hcomplexity, hcount, hzero]
  exact ⟨rfl, by omega⟩

/-- **The complexity of a method is the count of decisions in its concrete tree.** In either language and
for every text with a tree without error: each node that declares a method has a complexity, which is
one more than the decisions among the nodes that can be reached from it, and so at least one and no
less than that of a node that can be reached from it. A file is at least as complex as it has methods,
and at least of complexity one. -/
theorem complexity_exact {l : Language} (hl : l ∈ Language.all) (grammar : Recognizer) (text : Text)
    (bytes : List UInt8) (root : Concrete) (hbytes : Utf8.encodeText text = .ok bytes)
    (hroot : grammar bytes = some ⟨root, false⟩) :
    ∃ ms, l.parse grammar text = .ok ms ∧
      (∀ place parent c, root.find? place = some (parent, c) → c.kind ∈ l.methodKinds →
        ∃ m ∈ ms, m = c.toMethod l bytes parent ∧ ∃ tree, m.tree = some tree ∧
          tree.complexity =
            1 + Concrete.decisions l bytes (c.nodes (Concrete.isMeasured l) parent) ∧
          1 ≤ tree.complexity ∧
          ∀ below parent' c' tree', Concrete.at? (Concrete.isMeasured l) (parent, c) below = some (parent', c') →
            (c'.toMethod l bytes parent').tree = some tree' → tree'.complexity ≤ tree.complexity) ∧
      ∀ path index metrics,
        (Measure.file (l.sourceParser grammar) ⟨path, text⟩ index).1 = .ok (.measured metrics) →
          metrics.methodCount = ms.length ∧ max 1 metrics.methodCount ≤ metrics.complexity := by
  have h := Language.separate hl
  have hparse : l.parse grammar text = .ok (root.methods l bytes) := by
    simp [Language.parse, hbytes, hroot]
  refine ⟨root.methods l bytes, hparse, fun place parent c hc hkind => ?_, fun path index metrics hm => ?_⟩
  · refine ⟨c.toMethod l bytes parent, ?_, rfl, c.tagged l bytes parent, rfl, ?_, ?_, ?_⟩
    · rw [Concrete.methods_eq]
      exact List.mem_map.2 ⟨(place, parent, c), Concrete.mem_declarations.2 ⟨hc, hkind⟩, rfl⟩
    · exact Concrete.complexity_tagged h bytes parent c
    · rw [Concrete.complexity_tagged h]
      omega
    · rintro below parent' c' tree' hbelow ⟨⟩
      exact Concrete.complexity_at h bytes hbelow
  · obtain ⟨b, hready, -⟩ := Measure.file_measured hm
    refine Measure.methodCount_le (Language.sourceParser_methods.2 ⟨hparse, rfl⟩) (fun x hx tree htree => ?_) hready
    rw [Concrete.methods_eq] at hx
    obtain ⟨y, -, rfl⟩ := List.mem_map.1 hx
    cases htree
    rw [Concrete.complexity_tagged h]
    omega

/-- A method with a branch, a guarded arm with one label and an operator. -/
theorem complexity_exact_guarded :
    ∃ ms, Language.java.parse (fun _ => some ⟨.node "program" true false none 0 1
        [.node "method_declaration" true false none 0 1
          [.node "if_statement" true false none 0 1 [],
            .node "switch_rule" true false none 0 1
              [.node "switch_label" true false none 0 1
                [.node "identifier" true false none 0 1 [],
                  .node "guard" true false none 0 1
                    [.node "binary_expression" true false none 0 1
                      [.node "&&" false false (some "operator") 0 1 []]]]]]], false⟩) (.ofString "a") = .ok ms ∧
      ∃ m ∈ ms, ∃ tree, m.tree = some tree ∧ tree.complexity = 4 := by
  let method : Concrete := .node "method_declaration" true false none 0 1
    [.node "if_statement" true false none 0 1 [],
      .node "switch_rule" true false none 0 1
        [.node "switch_label" true false none 0 1
          [.node "identifier" true false none 0 1 [],
            .node "guard" true false none 0 1
              [.node "binary_expression" true false none 0 1
                [.node "&&" false false (some "operator") 0 1 []]]]]]
  let root : Concrete := .node "program" true false none 0 1 [method]
  obtain ⟨ms, hms, hmethods, -⟩ := complexity_exact (l := .java) (.head _) (fun _ => some ⟨root, false⟩)
    (.ofString "a") [97] root rfl rfl
  obtain ⟨m, hm, -, tree, htree, hcount, -⟩ := hmethods [0] (some "program") method rfl (by decide)
  have hdecisions : Concrete.decisions .java [97] (method.nodes (Concrete.isMeasured .java) (some "program")) = 3 := by
    decide +kernel
  exact ⟨ms, hms, m, hm, tree, htree, by rw [hcount, hdecisions]; rfl⟩

end Maintainability
