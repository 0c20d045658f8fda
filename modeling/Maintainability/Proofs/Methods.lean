/-
The methods of a text, against its concrete tree. A grammar makes a tree of the bytes of a text, and
the methods are those that the nodes of the tree declare: one for each place where a declaration
stands, nested ones included, in the order of the text, each with the tree that recursion gives
(`methods_exact`).
-/
import Mathlib.Data.List.Forall2
import Maintainability.Proofs.Traversal

namespace Maintainability

namespace Concrete

/-- The node at a place of a tree. -/
def find? (root : Concrete) (place : List Nat) : Option Placed := at? (fun _ => true) (none, root) place

/-- A tree declares methods, and these are their places. -/
structure Declares (l : Language) (bytes : List UInt8) (root : Concrete) (places : List (List Nat))
    (ms : List Method) : Prop where
  /-- The places stand in the order of the text, none of them twice. -/
  ordered : places.Pairwise (· < ·)
  /-- They are the places of all nodes that declare a method. -/
  complete : ∀ place, place ∈ places ↔ ∃ parent c, root.find? place = some (parent, c) ∧ c.kind ∈ l.methodKinds
  /-- One after the other, the methods are those declared there, with the trees that recursion gives. -/
  matched : List.Forall₂ (fun place m => ∃ parent c, root.find? place = some (parent, c) ∧
    m = { c.toMethod l bytes parent with tree := some (c.reduced l bytes parent) }) places ms

/-- The places of a tree where a method is declared, with what stands there. -/
def declarations (l : Language) (root : Concrete) : List (List Nat × Placed) :=
  (root.placed (fun _ => true) none).filter fun x => l.methodKinds.contains x.2.2.kind

theorem mem_declarations {l : Language} {root : Concrete} {place : List Nat} {x : Placed} :
    (place, x) ∈ declarations l root ↔ root.find? place = some x ∧ x.2.kind ∈ l.methodKinds := by
  rw [declarations, List.mem_filter, mem_placed, find?, List.contains_iff_mem]

theorem methods_eq (l : Language) (bytes : List UInt8) (root : Concrete) :
    root.methods l bytes = (declarations l root).map fun x => x.2.2.toMethod l bytes x.2.1 := by
  rw [methods, walkUnder_nodes, List.flatMap_singleton, nodes, List.filter_map, List.map_map, declarations]
  rfl

theorem declares_methods (l : Language) (bytes : List UInt8) (root : Concrete) :
    Declares l bytes root ((declarations l root).map (·.1)) (root.methods l bytes) where
  ordered := List.pairwise_map.2 ((placed_strict _ _ root).filter _)
  complete place := by
    rw [List.mem_map]
    constructor
    · rintro ⟨⟨p, parent, c⟩, hx, rfl⟩
      exact ⟨parent, c, mem_declarations.1 hx⟩
    · rintro ⟨parent, c, hx⟩
      exact ⟨(place, parent, c), mem_declarations.2 hx, rfl⟩
  matched := by
    rw [methods_eq, List.forall₂_map_left_iff, List.forall₂_map_right_iff, List.forall₂_same]
    rintro ⟨place, parent, c⟩ hx
    exact ⟨parent, c, (mem_declarations.1 hx).1, by rw [← tagged_eq]; rfl⟩

end Concrete

/-- **The methods of a text are those that its tree declares.** Whatever the language, the grammar and
the tree without error that it makes of the text: a text without bytes is refused, and any other has
one method for each node that declares one, in the order of the text. -/
theorem methods_exact (l : Language) (grammar : Recognizer) (text : Text) (root : Concrete)
    (hroot : ∀ bytes, Utf8.encodeText text = .ok bytes → grammar bytes = some ⟨root, false⟩) :
    match Utf8.encodeText text with
    | .error _ => l.parse grammar text = .error "encoding error: surrogates not allowed"
    | .ok bytes => ∃ ms places, l.parse grammar text = .ok ms ∧ root.Declares l bytes places ms := by
  cases hbytes : Utf8.encodeText text with
  | error e => simp only [Language.parse, hbytes]
  | ok bytes =>
    refine ⟨root.methods l bytes, _, ?_, Concrete.declares_methods l bytes root⟩
    simp [Language.parse, hbytes, hroot bytes hbytes]

/-- A declaration inside another one, below a node that the conversion passes over. -/
theorem methods_exact_nested :
    ∃ ms, ∃ places : List (List Nat), Language.python.parse (fun _ => some ⟨.node "module" true false none 0 3
        [.node "function_definition" true false none 0 3
          [.node ":" false false none 1 2 [.node "function_definition" true false none 1 2 []]]], false⟩)
      (.ofString "abc") = .ok ms ∧ [0] ∈ places ∧ [0, 0, 0] ∈ places ∧ places.length = ms.length := by
  let inner : Concrete := .node "function_definition" true false none 1 2 []
  let outer : Concrete := .node "function_definition" true false none 0 3 [.node ":" false false none 1 2 [inner]]
  let root : Concrete := .node "module" true false none 0 3 [outer]
  obtain ⟨ms, places, hms, h⟩ := methods_exact .python (fun _ => some ⟨root, false⟩) (.ofString "abc") root
    fun _ _ => rfl
  refine ⟨ms, places, hms, ?_, ?_, h.matched.length_eq⟩
  · exact (h.complete _).2 ⟨some "module", outer, rfl, by decide⟩
  · exact (h.complete _).2 ⟨some ":", inner, rfl, by decide⟩

end Maintainability
