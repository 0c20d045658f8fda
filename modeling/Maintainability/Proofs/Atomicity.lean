/-
The work on one file is atomic. A file that ends without metrics, whatever the reason, leaves the index
as it found it; a file that ends with metrics found the index open and appended one batch to its log:
the digests of its methods that have one, in order. A method without a digest is missing from the batch
and from nothing else, since the sums over the methods do not ask for it (`Totals`).

The sums and the batch are made method by method (`totals_of_metrics`, `digests_hashable`), and the index is
asked once, behind the last method; so there is no step at which a failure could leave a part of a batch.
-/
import Maintainability.Proofs.Hashing
import Maintainability.Proofs.Refinement

namespace Maintainability

namespace Measure

/-! ## The sums of a file -/

/-- The metrics of a source with the given methods, all of which count. -/
structure Totals (s : Source) (ms : List Method) (m : FileMetrics) : Prop where
  path : m.path = s.path
  lines : m.lines = s.text.countLines
  methodCount : m.methodCount = ms.length
  complexity : ∃ trees : List Tree, ms.map (·.tree) = trees.map some ∧
    m.complexity = max 1 (total (trees.map Tree.complexity))
  volume : m.volume = .real (ms.foldl (fun v x => v + x.source.volume) 0.0)
  score : ∃ x, maintainability? m.volume m.complexity m.lines = some x ∧ m.maintainability = .real x
  links : m.duplicatedWith = []

theorem addMethods_volume {path : String} : ∀ {ms : List Method} {t t' : Tally},
    (addMethods path t ms).1 = .ok t' → t'.volume = ms.foldl (fun v x => v + x.source.volume) t.volume
  | [], t, t', h => by
    cases h
    rfl
  | m :: ms, t, t', h => by
    simp only [addMethods] at h
    split at h
    · cases h
    · next t₁ _ hm =>
      obtain ⟨-, -, -, -, -, hvolume, -⟩ := addMethod_inv hm
      rw [addMethods_volume h, hvolume, List.foldl_cons]

theorem totals_of_metrics {s : Source} {ms : List Method} {t : Tally} {m : FileMetrics}
    (ht : (addMethods s.path {} ms).1 = .ok t) (hm : metrics s ms.length t = .ok m) : Totals s ms m := by
  obtain ⟨trees, htrees, hcomplexity⟩ := addMethods_complexity ht
  have hvolume := addMethods_volume ht
  have hsum : t.complexity = total (trees.map Tree.complexity) := by rw [hcomplexity, Int.zero_add]
  simp only [metrics] at hm
  split at hm
  · cases hm
  · next x hx =>
    cases hm
    exact {
      path := rfl
      lines := rfl
      methodCount := rfl
      complexity := ⟨trees, htrees, by rw [hsum]⟩
      volume := congrArg Quantity.real hvolume
      score := ⟨x, hx, rfl⟩
      links := rfl }

/-! ## When a file has metrics -/

/-- A method that can be measured: it has a tree, and its lines and its complexity can be written. -/
structure Noted (m : Method) (tree : Tree) : Prop where
  parsed : m.tree = some tree
  startLine : Literal.Short m.startLine
  endLine : Literal.Short m.endLine
  complexity : Literal.Short tree.complexity

/-- The parser finds the methods of a source, each can be measured, and their complexity has a double. -/
def Measurable (parser : SourceParser) (s : Source) : Prop :=
  ∃ ms said trees, parser s = .methods ms said ∧ List.Forall₂ Noted ms trees ∧
    (Binary64.ofInt? (max 1 (total (trees.map Tree.complexity)))).isSome

theorem maintainability?_isSome (volume : Quantity) (complexity lines : Int) :
    (maintainability? volume complexity lines).isSome = (Binary64.ofInt? complexity).isSome := by
  unfold maintainability?
  cases Binary64.ofInt? complexity <;> rfl

theorem exists_addMethod (path : String) (t : Tally) (m : Method) :
    (∃ t' notes, addMethod path t m = .ok (t', notes)) ↔ ∃ tree, Noted m tree := by
  constructor
  · rintro ⟨t', notes, h⟩
    obtain ⟨tree, note, htree, hnote, -⟩ := addMethod_inv h
    obtain ⟨hstart, hend, hcomplexity⟩ := noteOf_ok.1 ⟨note, hnote⟩
    exact ⟨tree, htree, hstart, hend, hcomplexity⟩
  · rintro ⟨tree, h⟩
    have hnoted : ∃ note, noteOf path m tree.complexity m.source.volume = .ok note :=
      noteOf_ok.2 ⟨h.startLine, h.endLine, h.complexity⟩
    obtain ⟨note, hnote⟩ := hnoted
    simp only [addMethod, h.parsed, hnote]
    split <;> exact ⟨_, _, rfl⟩

theorem exists_addMethods (path : String) : ∀ (t : Tally) (ms : List Method),
    (∃ t', (addMethods path t ms).1 = .ok t') ↔ ∃ trees, List.Forall₂ Noted ms trees
  | t, [] => ⟨fun _ => ⟨[], .nil⟩, fun _ => ⟨t, rfl⟩⟩
  | t, m :: ms => by
    have hm := exists_addMethod path t m
    simp only [addMethods]
    constructor
    · rintro ⟨t', h⟩
      split at h
      · cases h
      · next t₁ notes hadded =>
        obtain ⟨tree, htree⟩ := hm.1 ⟨t₁, notes, hadded⟩
        obtain ⟨trees, htrees⟩ := (exists_addMethods path t₁ ms).1 ⟨t', h⟩
        exact ⟨tree :: trees, .cons htree htrees⟩
    · rintro ⟨trees, h⟩
      cases h with
      | cons htree htrees =>
        obtain ⟨t₁, notes, hadded⟩ := hm.2 ⟨_, htree⟩
        obtain ⟨t', ht'⟩ := (exists_addMethods path t₁ ms).2 ⟨_, htrees⟩
        exact ⟨t', by simpa only [hadded] using ht'⟩

theorem map_tree_of_noted {ms : List Method} {trees : List Tree} (h : List.Forall₂ Noted ms trees) :
    ms.map (·.tree) = trees.map some := by
  induction h with
  | nil => rfl
  | cons hm _ ih => rw [List.map_cons, List.map_cons, hm.parsed, ih]

theorem prepare_eq_ready {parser : SourceParser} {s : Source} {ms : List Method} {said : List Log.Record} {t : Tally}
    {m : FileMetrics} (hp : parser s = .methods ms said) (ht : (addMethods s.path {} ms).1 = .ok t)
    (hm : metrics s ms.length t = .ok m) : (prepare parser s).1 = .ready m t.batch := by
  have hmethods : (methods s ms).1 = .ok (m, t.batch) := by
    unfold methods
    split
    · next h => rw [h] at ht; cases ht
    · next h =>
      rw [h] at ht
      cases ht
      simp only [hm]
  simp only [prepare, hp]
  split
  · next h => rw [h] at hmethods; cases hmethods
  · next h => rw [h] at hmethods; cases hmethods; rfl

/-- The methods that can be measured are those of the trees whose complexity is added up. -/
theorem complexity_of_noted {path : String} {ms : List Method} {trees : List Tree} {t : Tally}
    (ht : (addMethods path {} ms).1 = .ok t) (h : List.Forall₂ Noted ms trees) :
    t.complexity = total (trees.map Tree.complexity) := by
  obtain ⟨trees', htrees', hcomplexity⟩ := addMethods_complexity ht
  have hsame : trees' = trees :=
    List.map_injective_iff.2 (Option.some_injective _) (htrees'.symm.trans (map_tree_of_noted h))
  rw [hcomplexity, hsame]
  exact Int.zero_add _

theorem exists_ready_iff {parser : SourceParser} {s : Source} :
    (∃ m b, (prepare parser s).1 = .ready m b) ↔ Measurable parser s := by
  constructor
  · rintro ⟨m, b, hready⟩
    obtain ⟨ms, said, t, hp, ht, hm, -⟩ := prepare_inv hready
    obtain ⟨trees, htrees⟩ := (exists_addMethods s.path {} ms).1 ⟨t, ht⟩
    obtain ⟨x, hx, -⟩ := (totals_of_metrics ht hm).score
    refine ⟨ms, said, trees, hp, htrees, ?_⟩
    rw [← complexity_of_noted ht htrees, ← (metrics_counts hm).1, ← maintainability?_isSome m.volume _ m.lines, hx]
    rfl
  · rintro ⟨ms, said, trees, hp, htrees, hfits⟩
    obtain ⟨t, ht⟩ := (exists_addMethods s.path {} ms).2 ⟨trees, htrees⟩
    have hscore : (maintainability? (.real t.volume) (max 1 t.complexity) s.text.countLines).isSome := by
      rw [maintainability?_isSome, complexity_of_noted ht htrees]
      exact hfits
    obtain ⟨x, hx⟩ := Option.isSome_iff_exists.1 hscore
    obtain ⟨m, hm⟩ : ∃ m, metrics s ms.length t = .ok m := by
      simp only [metrics, hx]
      exact ⟨_, rfl⟩
    exact ⟨m, _, prepare_eq_ready hp ht hm⟩

/-! ## The batch of a file -/

/-- The batch holds a pair for each method whose text can be encoded, in order, and nothing else. -/
theorem digests_hashable (path : String) (ms : List Method) :
    List.Forall₂ (DigestOf path) (ms.filter fun m => m.source.unencodable?.isNone) (digests path ms) := by
  induction ms with
  | nil => exact .nil
  | cons m ms ih =>
    cases hm : m.source.unencodable? with
    | none =>
      obtain ⟨d, hd⟩ := bodyDigest_ok.2 (Text.unencodable?_eq_none.1 hm)
      have hdigest : m.digest? = some d := by rw [Method.digest?, hd]; rfl
      rw [List.filter_cons_of_pos (by simp [hm]), digests, List.filterMap_cons, hdigest]
      exact .cons ⟨hd, rfl⟩ ih
    | some e =>
      have hnone : ¬ ∃ d, bodyDigest m.source = .ok d := fun h => by
        rw [bodyDigest_ok, ← Text.unencodable?_eq_none, hm] at h
        cases h
      have hdigest : m.digest? = none := by
        unfold Method.digest?
        cases hd : bodyDigest m.source with
        | ok d => exact absurd ⟨d, hd⟩ hnone
        | error _ => rfl
      rw [List.filter_cons_of_neg (by simp [hm]), digests, List.filterMap_cons, hdigest]
      exact ih

/-! ## One file and the index -/

/-- Whatever a file comes to, without metrics it leaves the index alone. -/
theorem file_unmeasured {parser : SourceParser} {s : Source} {i : Index}
    (h : ∀ m, (file parser s i).1 ≠ .ok (.measured m)) : (file parser s i).2.1 = i := by
  simp only [file] at h ⊢
  cases hw : (prepare parser s).1 with
  | refused reason => rfl
  | failed f => rfl
  | ready m b =>
    cases hs : i.isSealed with
    | true => exact Prepared.record_sealed_index hs _
    | false =>
      -- an open index takes the batch, and the file has metrics
      rw [hw] at h
      have hmeasured := h m
      simp [Prepared.record, Index.recordDigests, hs] at hmeasured

theorem file_measured_iff {parser : SourceParser} {s : Source} {i : Index} :
    (∃ m, (file parser s i).1 = .ok (.measured m)) ↔ i.isSealed = false ∧ Measurable parser s := by
  rw [← exists_ready_iff]
  constructor
  · rintro ⟨m, hm⟩
    obtain ⟨b, hready, htaken⟩ := file_measured hm
    refine ⟨?_, m, b, hready⟩
    cases hs : i.isSealed with
    | false => rfl
    | true =>
      rw [Index.recordDigests_sealed hs] at htaken
      cases htaken
  · rintro ⟨hs, m, b, hready⟩
    refine ⟨m, ?_⟩
    simp [file, hready, Prepared.record, Index.recordDigests, hs]

end Measure

/-- **The work on one file is atomic.** Whatever the parser makes of a source, on an index after any
history of calls: if the file ends without metrics, with an outcome or a fault, the index is as it was;
if it ends with metrics, the index was open, and what it holds is its log with one batch behind it, a
pair of a digest and a place for each method whose text can be encoded, in order, while all methods count
in the metrics. The file ends with metrics exactly when the index is open, each of its methods has a tree and
numbers that can be written, and their complexity is not too large. -/
theorem file_atomic (parser : SourceParser) (s : Source) (calls : List Index.Call) (i : Index)
    (hi : i = Index.run {} calls) :
    ((∀ m, (Measure.file parser s i).1 ≠ .ok (.measured m)) → (Measure.file parser s i).2.1 = i) ∧
    (∀ m, (Measure.file parser s i).1 = .ok (.measured m) → i.isSealed = false ∧
      ∃ ms said batch, parser s = .methods ms said ∧ Measure.Totals s ms m ∧
        List.Forall₂ (Measure.DigestOf s.path) (ms.filter fun x => x.source.unencodable?.isNone) batch ∧
        i = Recorded.index (Index.logged calls) ∧
        (Measure.file parser s i).2.1 = Recorded.index (Index.logged calls ++ batch)) ∧
    ((∃ m, (Measure.file parser s i).1 = .ok (.measured m)) ↔
      i.isSealed = false ∧ Measure.Measurable parser s) := by
  refine ⟨Measure.file_unmeasured, fun m hm => ?_, Measure.file_measured_iff⟩
  have hopen := (Measure.file_measured_iff.1 ⟨m, hm⟩).1
  obtain ⟨batch, hready, htaken⟩ := Measure.file_measured hm
  obtain ⟨ms, said, t, hp, ht, hmetrics, rfl⟩ := Measure.prepare_inv hready
  have hbatch : t.batch = Measure.digests s.path ms := by simpa using Measure.addMethods_batch ht
  have hlog : i = Recorded.index (Index.logged calls) := by
    rw [hi, Index.run_isSealed] at hopen
    rw [hi, Index.run_open hopen]
  refine ⟨hopen, ms, said, t.batch, hp, Measure.totals_of_metrics ht hmetrics, ?_, hlog, ?_⟩
  · rw [hbatch]
    exact Measure.digests_hashable s.path ms
  · rw [hlog, Recorded.recordDigests_index] at htaken
    rw [hlog]
    exact (congrArg Prod.snd htaken).symm

/-- Two methods, the first of which is a lone surrogate: it counts like the other, and is not recorded. -/
theorem file_atomic_surrogate :
    let parser : SourceParser := fun s => .methods [⟨"f", [0xD800], some (.node .loop 0 "" []), 1, 1⟩,
      ⟨"g", s.text, some (.node .loop 0 "" []), 2, 2⟩] []
    ∃ m d, (Measure.file parser ⟨"b", []⟩ (Index.run {} [.recordDigests [("d", ⟨"a", "f", 1⟩)]])).1 =
        .ok (.measured m) ∧ m.methodCount = 2 ∧ m.complexity = 4 ∧
      (Measure.file parser ⟨"b", []⟩ (Index.run {} [.recordDigests [("d", ⟨"a", "f", 1⟩)]])).2.1 =
        Recorded.index [("d", ⟨"a", "f", 1⟩), (d, ⟨"b", "g", 2⟩)] := by
  intro parser
  let tree : Tree := .node .loop 0 "" []
  obtain ⟨-, hrecorded, hends⟩ := file_atomic parser ⟨"b", []⟩ [.recordDigests [("d", ⟨"a", "f", 1⟩)]] _ rfl
  have hcomplexity : max 1 (total ([tree, tree].map Tree.complexity)) = 4 := by decide +kernel
  have hfits : (Binary64.ofInt? 4).isSome := by decide +kernel
  have hnoted : ∀ (name : String) (source : Text) (line : Int), line ∈ [1, 2] →
      Measure.Noted ⟨name, source, some tree, line, line⟩ tree := fun name source line hline => by
    have hshort : ∀ n ∈ [1, 2], Literal.Short n := by decide
    exact ⟨rfl, hshort line hline, hshort line hline, by decide +kernel⟩
  have hmethods := List.Forall₂.cons (hnoted "f" [0xD800] 1 (by simp)) (.cons (hnoted "g" [] 2 (by simp)) .nil)
  obtain ⟨m, hm⟩ := hends.2 ⟨rfl, _, _, [tree, tree], rfl, hmethods, by rw [hcomplexity]; exact hfits⟩
  obtain ⟨-, ms, said, batch, hp, htotals, hbatch, -, hindex⟩ := hrecorded m hm
  cases hp
  obtain ⟨trees, htrees, hsum⟩ := htotals.complexity
  have hsame : trees = [tree, tree] := by
    refine List.map_injective_iff.2 (Option.some_injective _) (htrees.symm.trans ?_)
    rfl
  rw [hsame, hcomplexity] at hsum
  -- the surrogate has no digest, the empty text has one
  have hkept : ([⟨"f", [0xD800], some tree, 1, 1⟩, ⟨"g", [], some tree, 2, 2⟩].filter
      fun x : Method => x.source.unencodable?.isNone) = [⟨"g", [], some tree, 2, 2⟩] := by
    have hbad : Text.unencodable? [0xD800] ≠ none := by decide +kernel
    have hgood : Text.unencodable? [] = none := rfl
    simp [Option.isNone_iff_eq_none, hbad, hgood]
  rw [hkept] at hbatch
  cases hbatch with
  | @cons _ x _ _ hx hnil =>
    cases hnil
    obtain ⟨d, o⟩ := x
    obtain ⟨-, rfl⟩ : _ ∧ o = ⟨"b", "g", 2⟩ := hx
    exact ⟨m, d, hm, htotals.methodCount, hsum, hindex⟩

end Maintainability
