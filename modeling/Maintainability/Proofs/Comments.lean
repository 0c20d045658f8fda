/-
Comments do not show in what is measured. `uncommented` takes the subtrees of comments out of a
concrete tree and leaves the text and all other offsets as they are. A comment can stand anywhere, and
three tests keep it from counting: the conversion passes it over, it is no value of a label, and its
kind is none of those that are looked for on an arm. That they agree is a property of the tables
(`Language.CommentsUncounted`), which both languages have.

One lemma for each thing that the conversion asks of a node says that the answer stays
(`child?_uncommented`, `labelCount_uncommented`, `tagOf_uncommented`); then the tagged tree stays, by
recursion over the tree (`reduced_uncommented`). The nodes that are not inside a comment stay in order,
each at the place that is left when the comments before it are not counted (`at?_uncommented`,
`nodes_uncommented`).
-/
import Mathlib.Data.List.Find
import Maintainability.Proofs.Methods

namespace Maintainability

/-- A language in which a comment is no label of an arm and no value, be it on the arm or on a label. -/
structure Language.CommentsUncounted (l : Language) : Prop where
  label : ∀ k ∈ l.commentKinds, k ∉ l.caseLabelKinds
  armValue : ∀ k ∈ l.commentKinds, k ∉ l.caseValueKinds
  labelValue : l.caseLabelKinds ≠ [] → ∀ k ∈ l.commentKinds, k ∈ l.nonValueKinds

theorem Language.commentsUncounted {l : Language} (hl : l ∈ Language.all) : l.CommentsUncounted := by
  simp only [Language.all, List.mem_cons, List.not_mem_nil, or_false] at hl
  rcases hl with rfl | rfl <;> exact ⟨by decide, by decide, by decide⟩

namespace Concrete

/-! ## Trees without comments -/

/-- A node that is a comment. -/
def isComment (l : Language) (c : Concrete) : Bool := l.commentKinds.contains c.kind

theorem isComment_iff {l : Language} {c : Concrete} : isComment l c = true ↔ c.kind ∈ l.commentKinds := by
  simp [isComment]

mutual

/-- The tree without the comments below its root. -/
def uncommented (l : Language) : Concrete → Concrete
  | .node k n m f s e cs => .node k n m f s e (uncommentedAll l cs)

/-- The trees that are no comments, without the comments below them. -/
def uncommentedAll (l : Language) : List Concrete → List Concrete
  | [] => []
  | c :: cs => if isComment l c then uncommentedAll l cs else uncommented l c :: uncommentedAll l cs

end

section

variable (l : Language) (c : Concrete)

@[simp] theorem kind_uncommented : (c.uncommented l).kind = c.kind := by
  cases c; rw [uncommented]; rfl

@[simp] theorem named_uncommented : (c.uncommented l).named = c.named := by
  cases c; rw [uncommented]; rfl

@[simp] theorem field_uncommented : (c.uncommented l).field = c.field := by
  cases c; rw [uncommented]; rfl

@[simp] theorem start_uncommented : (c.uncommented l).start = c.start := by
  cases c; rw [uncommented]; rfl

@[simp] theorem stop_uncommented : (c.uncommented l).stop = c.stop := by
  cases c; rw [uncommented]; rfl

@[simp] theorem content_uncommented (bytes : List UInt8) : (c.uncommented l).content bytes = c.content bytes := by
  simp [content]

theorem uncommentedAll_eq (cs : List Concrete) :
    uncommentedAll l cs = (cs.filter (!isComment l ·)).map (uncommented l) := by
  induction cs with
  | nil => simp [uncommentedAll]
  | cons c cs ih => cases h : isComment l c <;> simp [uncommentedAll, h, ih]

theorem children_uncommented :
    (c.uncommented l).children = (c.children.filter (!isComment l ·)).map (uncommented l) := by
  cases c; rw [uncommented, children, uncommentedAll_eq]; rfl

theorem namedChildren_uncommented :
    (c.uncommented l).namedChildren = (c.namedChildren.filter (!isComment l ·)).map (uncommented l) := by
  simp only [namedChildren, children_uncommented, List.filter_map, List.filter_filter, Function.comp_def,
    named_uncommented, Bool.and_comm]

end

/-! ## What the conversion asks of a node -/

variable {l : Language}

/-- No comment of the tree plays a part in its parent. -/
def Fieldless (l : Language) (c : Concrete) : Prop :=
  ∀ place parent d, c.find? place = some (parent, d) → d.kind ∈ l.commentKinds → d.field = none

theorem at?_child {keep : Concrete → Bool} {c d : Concrete} {i : Nat} (hd : c.children[i]? = some d)
    (parent : Option String) (place : List Nat) :
    at? keep (parent, c) (i :: place) = if keep d then at? keep (some c.kind, d) place else none := by
  simp [at?, hd]

theorem Fieldless.child {c d : Concrete} (h : Fieldless l c) (hd : d ∈ c.children) : Fieldless l d := by
  obtain ⟨i, hi⟩ := List.mem_iff_getElem?.1 hd
  intro place parent x hx
  -- the root of `d` has a parent in `c` and none in `d`; below it the parents are the same
  cases place with
  | nil =>
    cases hx
    exact h [i] (some c.kind) d (at?_child hi none [])
  | cons j place => exact h (i :: j :: place) parent x ((at?_child hi none (j :: place)).trans hx)

theorem Fieldless.comment {c d : Concrete} (h : Fieldless l c) (hd : d ∈ c.children)
    (hcomment : isComment l d = true) : d.field = none :=
  h.child hd [] none d rfl (isComment_iff.1 hcomment)

theorem Fieldless.below {c d : Concrete} {parent above : Option String} {place : List Nat} (h : Fieldless l c)
    (hd : at? (fun _ => true) (above, c) place = some (parent, d)) : Fieldless l d := by
  induction place generalizing above c with
  | nil =>
    cases hd
    exact h
  | cons i place ih =>
    rw [at?] at hd
    split at hd
    · next e he => exact ih (h.child (List.mem_of_getElem? he)) hd
    · cases hd

theorem fieldless_iff {c : Concrete} :
    Fieldless l c ↔ ∀ x ∈ c.placed (fun _ => true) none, x.2.2.kind ∈ l.commentKinds → x.2.2.field = none :=
  ⟨fun h x hx => h x.1 x.2.1 x.2.2 (mem_placed.1 hx),
    fun h place parent d hd => h (place, parent, d) (mem_placed.2 hd)⟩

instance (l : Language) (c : Concrete) : Decidable (Fieldless l c) := decidable_of_iff _ fieldless_iff.symm

/-- A comment is never the child that plays a part. -/
theorem child?_uncommented {c : Concrete} (h : Fieldless l c) (part : String) :
    (c.uncommented l).child? part = (c.child? part).map (uncommented l) := by
  simp only [child?, children_uncommented, List.find?_map, Function.comp_def, field_uncommented, List.find?_filter]
  refine congrArg (Option.map (uncommented l)) (List.find?_congr fun d hd => ?_)
  rw [Bool.eq_iff_iff, decide_eq_true_iff]
  cases hcomment : isComment l d with
  | true => simp [h.comment hd hcomment]
  | false => simp

theorem operatorKind_uncommented {c : Concrete} (h : Fieldless l c) :
    (c.uncommented l).operatorKind = c.operatorKind := by
  rw [operatorKind, operatorKind, child?_uncommented h]
  cases c.child? "operator" <;> simp

theorem labelValues_uncommented (hl : l.CommentsUncounted) {label : Concrete} (h : label.kind ∈ l.caseLabelKinds) :
    ((label.uncommented l).namedChildren.filter fun v => !l.nonValueKinds.contains v.kind) =
      (label.namedChildren.filter fun v => !l.nonValueKinds.contains v.kind).map (uncommented l) := by
  simp only [namedChildren_uncommented, List.filter_map, Function.comp_def, kind_uncommented, List.filter_filter]
  refine congrArg (List.map (uncommented l)) (List.filter_congr fun v _ => ?_)
  cases hcomment : isComment l v with
  | true => simp [hl.labelValue (List.ne_nil_of_mem h) _ (isComment_iff.1 hcomment)]
  | false => simp

/-- A comment is no value of an arm, and hides none. -/
theorem caseValues_uncommented (hl : l.CommentsUncounted) (arm : Concrete) :
    (arm.uncommented l).caseValues l = (arm.caseValues l).map (uncommented l) := by
  simp only [caseValues, namedChildren_uncommented l arm, List.flatMap_map, List.map_flatMap, kind_uncommented]
  induction arm.namedChildren with
  | nil => rfl
  | cons c cs ih =>
    cases hcomment : isComment l c with
    | true =>
      -- it is taken out on one side, and stands for no value on the other
      have hc := isComment_iff.1 hcomment
      simpa [hcomment, hl.label _ hc, hl.armValue _ hc] using ih
    | false =>
      simp only [hcomment, Bool.not_false, List.filter_cons_of_pos, List.flatMap_cons, ih]
      congr 1
      split
      · next hlabel => exact labelValues_uncommented hl (List.contains_iff_mem.1 hlabel)
      · split <;> rfl

theorem labelCount_uncommented (hl : l.CommentsUncounted) (bytes : List UInt8) (arm : Concrete) :
    (arm.uncommented l).labelCount l bytes = arm.labelCount l bytes := by
  rw [labelCount, labelCount, caseValues_uncommented hl, List.countP_map]
  simp [Function.comp_def]

theorem tagOf_uncommented (hl : l.CommentsUncounted) (bytes : List UInt8) (parent : Option String) {c : Concrete}
    (h : Fieldless l c) : (c.uncommented l).tagOf l bytes parent = c.tagOf l bytes parent := by
  simp only [tagOf, kind_uncommented, operatorKind_uncommented h, labelCount_uncommented hl]

/-! ## The tagged tree -/

theorem isMeasured_uncommented (c : Concrete) : isMeasured l (c.uncommented l) = isMeasured l c := by
  simp [isMeasured]

theorem isMeasured_of_isComment {c : Concrete} (h : isComment l c = true) : isMeasured l c = false := by
  simp [isMeasured, isComment_iff.1 h]

mutual

/-- The tagged tree is that of the tree without comments. -/
theorem reduced_uncommented (hl : l.CommentsUncounted) (bytes : List UInt8) (parent : Option String) :
    ∀ c : Concrete, Fieldless l c → (c.uncommented l).reduced l bytes parent = c.reduced l bytes parent
  | .node k n m f s e cs, h => by
    have htag := tagOf_uncommented hl bytes parent h
    have hcs := reducedAll_uncommented hl bytes k cs fun d hd => h.child hd
    rw [uncommented] at htag ⊢
    simp only [reduced, htag, hcs]

theorem reducedAll_uncommented (hl : l.CommentsUncounted) (bytes : List UInt8) (parent : String) :
    ∀ cs : List Concrete, (∀ c ∈ cs, Fieldless l c) →
      reducedAll l bytes parent (uncommentedAll l cs) = reducedAll l bytes parent cs
  | [], _ => by simp [uncommentedAll]
  | c :: cs, h => by
    have hc := reduced_uncommented hl bytes (some parent) c (h c (by simp))
    have hcs := reducedAll_uncommented hl bytes parent cs fun d hd => h d (by simp [hd])
    cases hcomment : isComment l c with
    | true => simp [uncommentedAll, reducedAll, hcomment, isMeasured_of_isComment hcomment, hcs]
    | false => simp [uncommentedAll, reducedAll, hcomment, isMeasured_uncommented, hc, hcs]

end

/-- A method is what its declaration without comments declares, its tree included. -/
theorem toMethod_uncommented (hl : l.CommentsUncounted) (bytes : List UInt8) (parent : Option String) {c : Concrete}
    (h : Fieldless l c) : (c.uncommented l).toMethod l bytes parent = c.toMethod l bytes parent := by
  simp only [toMethod, child?_uncommented h, content_uncommented, tagged_eq, reduced_uncommented hl bytes parent c h,
    start_uncommented, stop_uncommented]
  cases c.child? "name" <;> simp

/-! ## The nodes outside comments -/

/-- A place that no comment holds: neither the node there is one nor any above it. The root stands for
the whole file and does not count. -/
def Outside (l : Language) (root : Concrete) (place : List Nat) : Prop :=
  ∀ above parent d, above ≠ [] → above.IsPrefix place → root.find? above = some (parent, d) →
    d.kind ∉ l.commentKinds

/-- A walk through children that pass a test is a walk that meets no others. -/
theorem at?_eq_some_iff {keep : Concrete → Bool} {place : List Nat} {x y : Placed} :
    at? keep x place = some y ↔ at? (fun _ => true) x place = some y ∧
      ∀ above z, above ≠ [] → above.IsPrefix place → at? (fun _ => true) x above = some z → keep z.2 = true := by
  induction place generalizing x with
  | nil => exact ⟨fun h => ⟨h, fun above z hne hpre => absurd (List.prefix_nil.1 hpre) hne⟩, fun h => h.1⟩
  | cons i place ih =>
    obtain ⟨parent, c⟩ := x
    cases hd : c.children[i]? with
    | none => simp [at?, hd]
    | some d =>
      have hstep : ∀ place, at? (fun _ => true) (parent, c) (i :: place) =
          at? (fun _ => true) (some c.kind, d) place := fun place => at?_child hd parent place
      rw [at?_child hd, hstep, Option.ite_none_right_eq_some, ih]
      constructor
      · intro h
        obtain ⟨hkeep, hy, hall⟩ := h
        refine ⟨hy, fun above z hne hpre hz => ?_⟩
        obtain ⟨rest, rfl, hrest⟩ := (List.prefix_cons_iff.1 hpre).resolve_left hne
        rw [hstep] at hz
        cases rest with
        | nil =>
          cases hz
          exact hkeep
        | cons j rest => exact hall _ z (List.cons_ne_nil _ _) hrest hz
      · intro h
        obtain ⟨hy, hall⟩ := h
        refine ⟨hall [i] _ (List.cons_ne_nil _ _) ?_ (hstep []), hy, fun above z hne hpre hz => ?_⟩
        · exact (List.prefix_cons_inj i).2 List.nil_prefix
        · exact hall (i :: above) z (List.cons_ne_nil _ _) ((List.prefix_cons_inj i).2 hpre) ((hstep above).trans hz)

theorem at?_outside {root : Concrete} {place : List Nat} {x : Placed} :
    at? (!isComment l ·) (none, root) place = some x ↔ root.find? place = some x ∧ Outside l root place := by
  rw [at?_eq_some_iff]
  simp [Outside, find?, isComment]

/-- The place of a node when comments are not counted. -/
def moved (l : Language) (c : Concrete) : List Nat → List Nat
  | [] => []
  | i :: place =>
    (c.children.take i).countP (!isComment l ·) ::
      match c.children[i]? with
      | some d => moved l d place
      | none => []

theorem filter_getElem?_countP {α : Type} {p : α → Bool} {xs : List α} {i : Nat} {x : α} (h : xs[i]? = some x)
    (hx : p x = true) : (xs.filter p)[(xs.take i).countP p]? = some x := by
  obtain ⟨hi, rfl⟩ := List.getElem?_eq_some_iff.1 h
  have hxs : xs.filter p = (xs.take i).filter p ++ xs[i] :: (xs.drop (i + 1)).filter p := by
    rw [← List.filter_cons_of_pos hx, ← List.drop_eq_getElem_cons hi, ← List.filter_append, List.take_append_drop]
  rw [hxs, List.countP_eq_length_filter, List.getElem?_append_right (Nat.le_refl _), Nat.sub_self]
  rfl

/-- A node outside comments stands at the moved place, under a parent of the same kind. -/
theorem at?_uncommented {place : List Nat} : ∀ {parent : Option String} {c : Concrete} {x : Placed},
    at? (!isComment l ·) (parent, c) place = some x →
      at? (fun _ => true) (parent, c.uncommented l) (c.moved l place) = some (x.1, x.2.uncommented l) := by
  induction place with
  | nil =>
    intro parent c x h
    cases h
    rfl
  | cons i place ih =>
    intro parent c x h
    rw [at?] at h
    split at h
    · next d hd =>
      split at h
      · next hkeep =>
        have hmoved := filter_getElem?_countP (p := (!isComment l ·)) hd hkeep
        rw [moved, at?]
        simp only [children_uncommented, List.getElem?_map, hmoved, hd]
        simpa using ih h
      · cases h
    · cases h

mutual

/-- The nodes of the tree without comments are those outside comments, in order. -/
theorem nodes_uncommented (parent : Option String) : ∀ c : Concrete,
    (c.uncommented l).nodes (fun _ => true) parent =
      (c.nodes (!isComment l ·) parent).map fun x => (x.1, x.2.uncommented l)
  | .node k n m f s e cs => by
    rw [uncommented, nodes_eq, nodes_eq, List.map_cons, uncommented]
    simp only [children, kind]
    rw [← nodes_uncommentedAll k cs, List.filter_eq_self.2 fun _ _ => rfl]

theorem nodes_uncommentedAll (parent : String) : ∀ cs : List Concrete,
    (uncommentedAll l cs).flatMap (nodes (fun _ => true) (some parent)) =
      ((cs.filter (!isComment l ·)).flatMap (nodes (!isComment l ·) (some parent))).map
        fun x => (x.1, x.2.uncommented l)
  | [] => by simp [uncommentedAll]
  | c :: cs => by
    have hc := nodes_uncommented (some parent) c
    have hcs := nodes_uncommentedAll parent cs
    cases hcomment : isComment l c with
    | true => simpa [uncommentedAll, hcomment] using hcs
    | false =>
      simp only [uncommentedAll, hcomment, Bool.false_eq_true, if_false, Bool.not_false, List.filter_cons_of_pos,
        List.flatMap_cons, List.map_append, hc, hcs]

end

mutual

theorem placed_sublist (keep : Concrete → Bool) (parent : Option String) : ∀ c : Concrete,
    (c.placed keep parent).Sublist (c.placed (fun _ => true) parent)
  | .node k n m f s e cs => by
    rw [placed, placed]
    exact (placedFrom_sublist keep k 0 cs).cons_cons _

theorem placedFrom_sublist (keep : Concrete → Bool) (parent : String) (i : Nat) : ∀ cs : List Concrete,
    (placedFrom keep parent i cs).Sublist (placedFrom (fun _ => true) parent i cs)
  | [] => by simp [placedFrom]
  | c :: cs => by
    rw [placedFrom, placedFrom]
    refine List.Sublist.append ?_ (placedFrom_sublist keep parent (i + 1) cs)
    split
    · exact (placed_sublist keep (some parent) c).map _
    · exact List.nil_sublist _

end

/-! ## The methods outside comments -/

/-- The methods of a tree, `ms`, and those of the tree without comments, `bare`: comments change none
that they do not hold. -/
structure Unaffected (l : Language) (bytes : List UInt8) (root : Concrete) (places : List (List Nat))
    (ms bare : List Method) : Prop where
  /-- The places stand in the order of the text, none of them twice. -/
  ordered : places.Pairwise (· < ·)
  /-- They are the places of all nodes outside comments that declare a method. -/
  complete : ∀ place, place ∈ places ↔
    Outside l root place ∧ ∃ parent c, root.find? place = some (parent, c) ∧ c.kind ∈ l.methodKinds
  /-- One after the other, the declarations there are still there without comments, and declare the same
  methods: name, text, lines and tree. -/
  matched : List.Forall₂ (fun place m => ∃ parent c, root.find? place = some (parent, c) ∧
    (root.uncommented l).find? (root.moved l place) = some (parent, c.uncommented l) ∧
      c.toMethod l bytes parent = m ∧ (c.uncommented l).toMethod l bytes parent = m) places bare
  /-- They are methods of the tree, in the same order. -/
  kept : bare.Sublist ms

/-- The places outside comments where a method is declared, with what stands there. -/
def bareDeclarations (l : Language) (root : Concrete) : List (List Nat × Placed) :=
  (root.placed (!isComment l ·) none).filter fun x => l.methodKinds.contains x.2.2.kind

theorem mem_bareDeclarations {root : Concrete} {place : List Nat} {x : Placed} :
    (place, x) ∈ bareDeclarations l root ↔
      (root.find? place = some x ∧ Outside l root place) ∧ x.2.kind ∈ l.methodKinds := by
  rw [bareDeclarations, List.mem_filter, mem_placed, List.contains_iff_mem, at?_outside]

theorem methods_uncommented (hl : l.CommentsUncounted) (bytes : List UInt8) {root : Concrete} (h : Fieldless l root) :
    (root.uncommented l).methods l bytes =
      (bareDeclarations l root).map fun x => x.2.2.toMethod l bytes x.2.1 := by
  rw [methods, walkUnder_nodes, List.flatMap_singleton, nodes_uncommented, nodes, List.filter_map, List.filter_map,
    List.map_map, List.map_map]
  simp only [Function.comp_def, kind_uncommented]
  refine List.map_congr_left fun x hx => ?_
  exact toMethod_uncommented hl bytes x.2.1 (h.below (mem_bareDeclarations.1 hx).1.1)

theorem unaffected_methods (hl : l.CommentsUncounted) (bytes : List UInt8) {root : Concrete} (h : Fieldless l root) :
    Unaffected l bytes root ((bareDeclarations l root).map (·.1)) (root.methods l bytes)
      ((root.uncommented l).methods l bytes) where
  ordered := List.pairwise_map.2 ((placed_strict _ _ root).filter _)
  complete place := by
    rw [List.mem_map]
    constructor
    · intro ⟨⟨_, parent, c⟩, hx, hplace⟩
      cases hplace
      obtain ⟨⟨hc, houtside⟩, hkind⟩ := mem_bareDeclarations.1 hx
      exact ⟨houtside, parent, c, hc, hkind⟩
    · intro ⟨houtside, parent, c, hc, hkind⟩
      exact ⟨(place, parent, c), mem_bareDeclarations.2 ⟨⟨hc, houtside⟩, hkind⟩, rfl⟩
  matched := by
    rw [methods_uncommented hl bytes h, List.forall₂_map_left_iff, List.forall₂_map_right_iff, List.forall₂_same]
    intro ⟨place, parent, c⟩ hx
    have hc := (mem_bareDeclarations.1 hx).1
    have hsame := toMethod_uncommented hl bytes parent (h.below hc.1)
    exact ⟨parent, c, hc.1, at?_uncommented (at?_outside.2 hc), rfl, hsame⟩
  kept := by
    rw [methods_uncommented hl bytes h, methods_eq]
    exact ((placed_sublist _ none root).filter _).map _

end Concrete

/-- A grammar whose trees have no comments. -/
def Recognizer.uncommented (grammar : Recognizer) (l : Language) : Recognizer := fun bytes =>
  (grammar bytes).map fun parsed => { parsed with root := parsed.root.uncommented l }

/-- **Comments do not show in what is measured.** Whatever the grammar and the tree without error that it
makes of the text, if no comment plays a part in its parent: without the comments the text has the methods
that no comment holds, each as it was, so of the same complexity. -/
theorem comments_immaterial {l : Language} (hl : l ∈ Language.all) (grammar : Recognizer) (text : Text)
    (root : Concrete) (hroot : ∀ bytes, Utf8.encodeText text = .ok bytes → grammar bytes = some ⟨root, false⟩)
    (hfields : root.Fieldless l) :
    match Utf8.encodeText text with
    | .error _ => l.parse (grammar.uncommented l) text = l.parse grammar text
    | .ok bytes => ∃ ms bare places, l.parse grammar text = .ok ms ∧
        l.parse (grammar.uncommented l) text = .ok bare ∧ root.Unaffected l bytes places ms bare := by
  cases hbytes : Utf8.encodeText text with
  | error e => simp only [Language.parse, hbytes]
  | ok bytes =>
    refine ⟨root.methods l bytes, (root.uncommented l).methods l bytes, _, ?_, ?_,
      Concrete.unaffected_methods (Language.commentsUncounted hl) bytes hfields⟩
    · simp [Language.parse, hbytes, hroot bytes hbytes]
    · simp [Language.parse, Recognizer.uncommented, hbytes, hroot bytes hbytes]

/-- Comments between two values of a label and between an operator and its operand. -/
theorem comments_immaterial_label :
    ∃ root : Concrete, ∃ ms bare places, ∃ bytes : List UInt8,
      root.find? [0, 1, 0, 0, 1] = some (some "switch_label", .node "block_comment" true false none 10 14 []) ∧
      root.find? [0, 1, 0, 1, 1] = some (some "binary_expression", .node "block_comment" true false none 18 22 []) ∧
      Language.java.parse (fun _ => some ⟨root, false⟩) (.ofString "m(){case 1/**/,2:a/**/&&b}") = .ok ms ∧
      root.Unaffected .java bytes places ms bare ∧ [0] ∈ places ∧
      root.moved .java [0, 1, 0, 1, 2] = [0, 1, 0, 1, 1] := by
  let name : Concrete := .node "identifier" true false (some "name") 0 1 []
  let label : Concrete := .node "switch_label" true false none 4 16
    [.node "decimal_integer_literal" true false none 9 10 [], .node "block_comment" true false none 10 14 [],
      .node "decimal_integer_literal" true false none 15 16 []]
  let both : Concrete := .node "binary_expression" true false none 17 25
    [.node "identifier" true false (some "left") 17 18 [], .node "block_comment" true false none 18 22 [],
      .node "&&" false false (some "operator") 22 24 [], .node "identifier" true false (some "right") 24 25 []]
  let body : Concrete := .node "block" true false (some "body") 3 26
    [.node "switch_block_statement_group" true false none 4 25 [label, both]]
  let method : Concrete := .node "method_declaration" true false none 0 26 [name, body]
  let root : Concrete := .node "program" true false none 0 26 [method]
  obtain ⟨ms, bare, places, hms, -, h⟩ := comments_immaterial (l := .java) (by simp [Language.all])
    (fun _ => some ⟨root, false⟩) (.ofString "m(){case 1/**/,2:a/**/&&b}") root (fun _ _ => rfl) (by decide +kernel)
  have hout : Concrete.Outside .java root [0] := (Concrete.at?_outside (x := (some "program", method)).1 rfl).2
  have hmem := (h.complete [0]).2 ⟨hout, some "program", method, rfl, by decide⟩
  exact ⟨root, ms, bare, places, _, rfl, rfl, hms, h, hmem, rfl⟩

end Maintainability
