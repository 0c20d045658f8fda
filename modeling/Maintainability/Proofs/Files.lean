/-
What each file brings to a run, whatever the other files do. A run has one file for each path, the
first source of that path (`mem_unique`). The work on a file up to the index reads nothing that is
shared; on an open index it then has one outcome (`Prepared.ended`) and records one batch
(`Prepared.batch`), the digests of its methods in order, and on a sealed index it has no metrics and
records nothing.
-/
import Maintainability.Analysis.Run
import Maintainability.Proofs.Recorded

namespace Maintainability

/-! ## The files of a run -/

namespace Source

/-- The file with a path: the first source that has it, with forward slashes. -/
def at? (sources : List Source) (path : String) : Option Source :=
  (sources.map normalize).find? (·.path == path)

theorem at?_cons (s : Source) (rest : List Source) (path : String) :
    at? (s :: rest) path = if s.normalize.path = path then some s.normalize else at? rest path := by
  rw [at?, List.map_cons, List.find?_cons]
  by_cases h : s.normalize.path = path
  · have hb : (s.normalize.path == path) = true := by simpa using h
    rw [hb, if_pos h]
  · have hb : (s.normalize.path == path) = false := by simpa using h
    rw [hb, if_neg h]
    rfl

theorem at?_append (xs ys : List Source) (path : String) : at? (xs ++ ys) path = (at? xs path).or (at? ys path) := by
  rw [at?, List.map_append, List.find?_append]
  rfl

/-- There is no file exactly with the paths that no source has. -/
theorem at?_eq_none {sources : List Source} {path : String} :
    at? sources path = none ↔ ∀ s ∈ sources, slashed s.path ≠ path := by
  simp [at?, normalize]

theorem exists_at? {sources : List Source} {path : String} {s : Source} (hs : s ∈ sources)
    (hpath : slashed s.path = path) : ∃ x, at? sources path = some x :=
  Option.ne_none_iff_exists'.1 fun hnone => at?_eq_none.1 hnone s hs hpath

/-- The first source that has a path. -/
def First (sources : List Source) (path : String) (s : Source) : Prop :=
  ∃ earlier later, sources = earlier ++ s :: later ∧ slashed s.path = path ∧ ∀ x ∈ earlier, slashed x.path ≠ path

/-- The file with a path is the first source that has it, under that path. -/
theorem at?_eq_some {sources : List Source} {path : String} {x : Source} :
    at? sources path = some x ↔ ∃ s, First sources path s ∧ s.normalize = x := by
  constructor
  · intro h
    obtain ⟨hpath, before, after, hsplit, hbefore⟩ := List.find?_eq_some_iff_append.1 h
    obtain ⟨earlier, rest, hsources, hearlier, hrest⟩ := List.map_eq_append_iff.1 hsplit
    obtain ⟨s, later, rfl, hs, -⟩ := List.map_eq_cons_iff.1 hrest
    refine ⟨s, ⟨earlier, later, hsources, ?_, fun y hy => ?_⟩, hs⟩
    · simpa [← hs, normalize] using hpath
    · have hne := hbefore y.normalize (hearlier ▸ List.mem_map_of_mem hy)
      simpa [normalize] using hne
  · rintro ⟨s, ⟨earlier, later, rfl, hpath, hearlier⟩, rfl⟩
    have hhere : s.normalize.path = path := hpath
    rw [at?_append, at?_eq_none.2 hearlier, Option.none_or, at?_cons, if_pos hhere]

theorem at?_path {sources : List Source} {path : String} {s : Source} (h : at? sources path = some s) :
    s.path = path := by
  simpa using List.find?_some h

theorem mem_firstOf {s : Source} {sources : List Source} {seen : List String} :
    s ∈ (firstOf seen sources).1 ↔ s.path ∉ seen ∧ at? sources s.path = some s := by
  induction sources generalizing seen with
  | nil => simp [firstOf, at?]
  | cons x rest ih =>
    rw [firstOf, at?_cons]
    by_cases hx : seen.contains x.normalize.path = true
    · have hseen : x.normalize.path ∈ seen := by simpa using hx
      simp only [hx, if_true, ih]
      refine and_congr_right fun hs => ?_
      have hne : ¬ x.normalize.path = s.path := fun e => hs (e ▸ hseen)
      rw [if_neg hne]
    · have hseen : x.normalize.path ∉ seen := by simpa using hx
      simp only [hx, Bool.false_eq_true, if_false, List.mem_cons, ih]
      by_cases he : x.normalize.path = s.path
      · have hs : s.path ∉ seen := he ▸ hseen
        simp only [he, not_true, false_and, or_false, hs, not_false_eq_true, if_true, true_and,
          Option.some.injEq]
        exact eq_comm
      · have he' : ¬ s.path = x.normalize.path := fun e => he e.symm
        have hsx : ¬ s = x.normalize := fun e => he' (congrArg _ e)
        simp only [he, he', hsx, false_or, if_false]

/-- The files of a run are the first sources of their paths. -/
theorem mem_unique {sources : List Source} {s : Source} :
    s ∈ (unique sources).1 ↔ at? sources s.path = some s := by
  simp [unique, mem_firstOf]

/-- The paths of the files are the paths of the sources, with forward slashes. -/
theorem exists_unique_path {sources : List Source} {path : String} :
    (∃ s ∈ (unique sources).1, s.path = path) ↔ ∃ s ∈ sources, slashed s.path = path := by
  constructor
  · rintro ⟨s, hs, rfl⟩
    by_contra hnone
    rw [mem_unique, at?_eq_none.2 fun x hx hpath => hnone ⟨x, hx, hpath⟩] at hs
    cases hs
  · rintro ⟨s, hs, hpath⟩
    obtain ⟨x, hx⟩ := exists_at? hs hpath
    have hxpath := at?_path hx
    exact ⟨x, mem_unique.2 (by rw [hxpath, hx]), hxpath⟩

theorem nodup_firstOf : ∀ {sources : List Source} {seen : List String},
    ((firstOf seen sources).1.map (·.path)).Nodup
  | [], _ => by simp [firstOf]
  | x :: rest, seen => by
    rw [firstOf]
    split
    · exact nodup_firstOf
    · rw [List.map_cons, List.nodup_cons]
      refine ⟨?_, nodup_firstOf⟩
      intro h
      obtain ⟨y, hy, hyx⟩ := List.mem_map.1 h
      exact (mem_firstOf.1 hy).1 (by simp [hyx])

/-- No two files of a run have one path. -/
theorem nodup_unique (sources : List Source) : ((unique sources).1.map (·.path)).Nodup := nodup_firstOf

theorem unique_eq_of_path {sources : List Source} {s s' : Source} (h : s ∈ (unique sources).1)
    (h' : s' ∈ (unique sources).1) (hp : s.path = s'.path) : s = s' := by
  have hs := mem_unique.1 h
  rw [hp, mem_unique.1 h'] at hs
  exact (Option.some.inj hs).symm

end Source

/-! ## Measuring -/

/-- The parser of a language finds the methods of the text, and says how many they are. -/
theorem Language.sourceParser_methods {l : Language} {grammar : Recognizer} {s : Source} {ms : List Method}
    {said : List Log.Record} : l.sourceParser grammar s = .methods ms said ↔
      l.parse grammar s.text = .ok ms ∧
        said = [⟨.debug, "Parsed " ++ s.path ++ ": " ++ toString ms.length ++ " methods"⟩] := by
  rw [Language.sourceParser]
  cases l.parse grammar s.text with
  | error reason => simp
  | ok ms' =>
    simp only [Parsing.methods.injEq, Except.ok.injEq]
    refine and_congr_right fun hms => ?_
    rw [hms, eq_comm]

/-- The digest of a method, unless its text cannot be encoded. -/
def Method.digest? (m : Method) : Option String := (bodyDigest m.source).toOption

/-- Methods that differ in their layout only have one digest. -/
theorem Method.digest?_congr {m m' : Method} (h : m.source.normalize = m'.source.normalize) :
    m.digest? = m'.digest? := by
  rw [Method.digest?, Method.digest?, bodyDigest, bodyDigest, h]

/-- Its numbers have doubles, so a run can average them. -/
structure FileMetrics.Scored (m : FileMetrics) : Prop where
  complexity : ∃ x, (Quantity.int m.complexity).toFloat? = .ok x
  maintainability : ∃ x, m.maintainability.toFloat? = .ok x

namespace Measure

/-- The digests of the methods that have one, with their places, in order. -/
def digests (path : String) (ms : List Method) : Recorded :=
  ms.filterMap fun m => m.digest?.map fun d => (d, occurrence path m)

theorem mem_digests {path : String} {ms : List Method} {d : String} {o : Occurrence} :
    (d, o) ∈ digests path ms ↔ ∃ m ∈ ms, m.digest? = some d ∧ occurrence path m = o := by
  simp [digests]

/-- A method can be noted exactly when its lines and its complexity can be written. -/
theorem noteOf_ok {path : String} {m : Method} {complexity : Int} {volume : Float} :
    (∃ note, noteOf path m complexity volume = .ok note) ↔
      Literal.Short m.startLine ∧ Literal.Short m.endLine ∧ Literal.Short complexity := by
  simp only [noteOf, bind_eq_ok, Written.int_ok]
  simp [pure, Except.pure]

/-- What is noted of a method is noted for debugging. -/
theorem noteOf_level {path : String} {m : Method} {complexity : Int} {volume : Float} {note : Log.Record}
    (h : noteOf path m complexity volume = .ok note) : note.level = .debug := by
  obtain ⟨first, -, h⟩ := bind_eq_ok.1 h
  obtain ⟨last, -, h⟩ := bind_eq_ok.1 h
  obtain ⟨cc, -, h⟩ := bind_eq_ok.1 h
  cases h
  rfl

/-- A method that is measured has a tree and is noted; its complexity and its volume are added, and its digest
goes to the batch, if it has one. -/
theorem addMethod_inv {path : String} {t t' : Tally} {m : Method} {notes : List Log.Record}
    (h : addMethod path t m = .ok (t', notes)) :
    ∃ tree note, m.tree = some tree ∧ noteOf path m tree.complexity m.source.volume = .ok note ∧
      t'.complexity = t.complexity + tree.complexity ∧ t'.volume = t.volume + m.source.volume ∧
      t'.batch = t.batch ++ digests path [m] := by
  simp only [addMethod] at h
  split at h
  · cases h
  · next tree htree =>
    split at h
    · cases h
    · next note hnote =>
      refine ⟨tree, note, htree, hnote, ?_⟩
      simp only [digests, List.filterMap_cons, List.filterMap_nil, Method.digest?]
      split at h
      · next hd =>
        cases h
        simp [hd, Except.toOption]
      · next hd =>
        cases h
        simp [hd, Except.toOption]

theorem addMethods_batch {path : String} : ∀ {ms : List Method} {t t' : Tally},
    (addMethods path t ms).1 = .ok t' → t'.batch = t.batch ++ digests path ms
  | [], t, t', h => by
    cases h
    simp [digests]
  | m :: ms, t, t', h => by
    simp only [addMethods] at h
    split at h
    · cases h
    · next t₁ _ hm =>
      obtain ⟨-, -, -, -, -, -, hbatch⟩ := addMethod_inv hm
      rw [addMethods_batch h, hbatch, List.append_assoc, digests, digests, digests,
        ← List.filterMap_append, List.singleton_append]

theorem addMethods_complexity {path : String} : ∀ {ms : List Method} {t t' : Tally},
    (addMethods path t ms).1 = .ok t' →
      ∃ trees : List Tree, ms.map (·.tree) = trees.map some ∧
        t'.complexity = t.complexity + total (trees.map Tree.complexity)
  | [], t, t', h => by
    cases h
    exact ⟨[], rfl, (Int.add_zero _).symm⟩
  | m :: ms, t, t', h => by
    simp only [addMethods] at h
    split at h
    · cases h
    · next t₁ _ hm =>
      obtain ⟨tree, -, htree, -, hone, -, -⟩ := addMethod_inv hm
      obtain ⟨trees, htrees, hrest⟩ := addMethods_complexity h
      refine ⟨tree :: trees, by rw [List.map_cons, List.map_cons, htree, htrees], ?_⟩
      rw [hrest, hone, List.map_cons, total_cons, Int.add_assoc]

/-- The complexity of a file is that of its methods, but no less than one. -/
theorem metrics_counts {s : Source} {count : Nat} {t : Tally} {m : FileMetrics}
    (h : metrics s count t = .ok m) : m.complexity = max 1 t.complexity ∧ m.methodCount = count := by
  simp only [metrics] at h
  split at h
  · cases h
  · cases h
    exact ⟨rfl, rfl⟩

theorem metrics_ok {s : Source} {count : Nat} {t : Tally} {m : FileMetrics}
    (h : metrics s count t = .ok m) : m.path = s.path ∧ m.Scored := by
  simp only [metrics] at h
  split at h
  · cases h
  · next score hscore =>
    cases h
    refine ⟨rfl, ⟨?_, score, rfl⟩⟩
    -- the complexity was a double already when the score was computed
    simp only [maintainability?, bind, Option.bind] at hscore
    split at hscore
    · cases hscore
    · next cc hcc => exact ⟨cc, by simp [Quantity.toFloat?, hcc]⟩

/-- A file can be recorded when its methods were found and added up and the sums have a score; its
batch is what was added up. -/
theorem prepare_inv {parser : SourceParser} {s : Source} {m : FileMetrics} {batch : Recorded}
    (h : (prepare parser s).1 = .ready m batch) :
    ∃ ms said t, parser s = .methods ms said ∧ (addMethods s.path {} ms).1 = .ok t ∧
      metrics s ms.length t = .ok m ∧ batch = t.batch := by
  simp only [prepare] at h
  split at h
  · cases h
  · cases h
  · next ms said hp =>
    simp only [methods] at h
    split at h
    · cases h
    · next hms =>
      cases h
      split at hms
      · cases hms
      · next t _ ht =>
        split at hms
        · cases hms
        · next hm =>
          cases hms
          exact ⟨ms, said, t, hp, congrArg Prod.fst ht, hm, rfl⟩

/-- A file that can be recorded has its own path, numbers that can be averaged, and the digests of
its methods for a batch. -/
theorem prepare_ready {parser : SourceParser} {s : Source} {m : FileMetrics} {batch : Recorded}
    (h : (prepare parser s).1 = .ready m batch) :
    m.path = s.path ∧ m.Scored ∧ ∃ ms said, parser s = .methods ms said ∧ batch = digests s.path ms := by
  obtain ⟨ms, said, t, hp, ht, hm, rfl⟩ := prepare_inv h
  obtain ⟨hpath, hscored⟩ := metrics_ok hm
  refine ⟨hpath, hscored, ms, said, hp, ?_⟩
  simpa using addMethods_batch ht

namespace Prepared

/-- What becomes of a file that finds the index open. -/
def ended : Prepared → Except Fault Outcome
  | .refused reason => .ok (.unmeasured reason)
  | .failed f => .error f
  | .ready m _ => .ok (.measured m)

/-- What a file records that finds the index open. -/
def batch : Prepared → Recorded
  | .ready _ b => b
  | _ => []

theorem record_open (w : Prepared) (r : Recorded) :
    w.record (Recorded.index r) = (w.ended, Recorded.index (r ++ w.batch)) := by
  cases w <;> simp [record, ended, batch, Recorded.recordDigests_index]

/-- A file that finds the index sealed leaves it as it is. -/
theorem record_sealed_index {i : Index} (h : i.isSealed = true) (w : Prepared) : (w.record i).2 = i := by
  cases w <;> simp [record, Index.recordDigests_sealed h]

/-- A file that was measured and finds the index sealed is abandoned. -/
theorem record_sealed_ready {i : Index} (h : i.isSealed = true) (m : FileMetrics) (b : Recorded) :
    ((ready m b).record i).1 = .ok (.unmeasured abandoned) := by
  simp [record, Index.recordDigests_sealed h]

/-- A file that finds the index sealed has no metrics. -/
theorem record_sealed_ne {i : Index} (h : i.isSealed = true) (w : Prepared) (m : FileMetrics) :
    (w.record i).1 ≠ .ok (.measured m) := by
  cases w <;> simp [record, Index.recordDigests_sealed h]

end Prepared

/-- A file that ends with metrics was ready with them, and the index took its batch. -/
theorem file_measured {parser : SourceParser} {s : Source} {i : Index} {m : FileMetrics}
    (h : (file parser s i).1 = .ok (.measured m)) :
    ∃ b, (prepare parser s).1 = .ready m b ∧ i.recordDigests b = (true, (file parser s i).2.1) := by
  simp only [file] at h ⊢
  cases hw : (prepare parser s).1 with
  | refused reason => rw [hw] at h; cases h
  | failed f => rw [hw] at h; cases h
  | ready m' b =>
    rw [hw] at h
    simp only [Prepared.record] at h ⊢
    cases hb : i.recordDigests b with
    | mk accepted i' =>
      rw [hb] at h
      cases accepted <;> cases h
      exact ⟨b, rfl, hb⟩

/-- What a file records in an open index. -/
def recorded (parser : SourceParser) (s : Source) : Recorded := (prepare parser s).1.batch

/-- What becomes of a file with an open index, under its path. -/
def outcome (parser : SourceParser) (s : Source) : String × Outcome :=
  (s.path, (Run.settle s.path (prepare parser s).1.ended).1)

theorem outcome_measured {parser : SourceParser} {s : Source} {m : FileMetrics} :
    (outcome parser s).2 = .measured m ↔ ∃ b, (prepare parser s).1 = .ready m b := by
  simp only [outcome]
  cases (prepare parser s).1 <;> simp [Prepared.ended, Run.settle]

end Measure

end Maintainability
