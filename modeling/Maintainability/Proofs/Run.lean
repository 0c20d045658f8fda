/-
Runs without a deadline. One after the other or in parallel, such a run gives each file the outcome
that it has by itself and leaves an index that holds the batch of each (`inOrder_index`), and its
result is read off these two (`analyze_untimed`). `Summed` says what that result lists: the files
with metrics, each with its links, the files without, and the groups. The result always exists: a
file whose numbers could not be averaged has no metrics in the first place.

Outcomes and batches may be taken in any order: `conclude_perm`.
-/
import Maintainability.Proofs.Files
import Maintainability.Proofs.Links

namespace Maintainability

/-- A run over so many files without a deadline, with options that are accepted: the threshold is a
number, and if the files are many enough for a pool, so is the number of its workers, and positive. -/
structure Options.Untimed (o : Options) (files : Nat) : Prop where
  timeout : o.timeout = .null
  accepted : o.isSequential files = .ok true ∨ o.isSequential files = .ok false ∧ o.checkWorkers = .ok ()

theorem Options.checkWorkers_ok {o : Options} : o.checkWorkers = .ok () ↔ o.startsWorkers = .ok true := by
  rw [checkWorkers]
  cases o.startsWorkers with
  | error f => simp [bind, Except.bind]
  | ok working => cases working <;> simp [bind, Except.bind, pure, Except.pure]

/-- Metrics whose numbers are doubles can be summed up. -/
theorem summarize_ok {files : List FileMetrics} (h : ∀ f ∈ files, f.Scored) (skipped : List Skipped)
    (groups : List Entry) :
    ∃ r, summarize files skipped groups = .ok r ∧
      r.files = (files.mergeSort fun a b => decide (a.path ≤ b.path)) ∧
      r.skipped = (skipped.mergeSort fun a b => decide (a.path ≤ b.path)) ∧ r.groups = groups := by
  have hs : ∀ f ∈ files.mergeSort fun a b => decide (a.path ≤ b.path), f.Scored := fun f hf =>
    h f (List.mem_mergeSort.1 hf)
  obtain ⟨complexities, hc⟩ := exists_mapM.2 fun f hf => (hs f hf).complexity
  obtain ⟨scores, hm⟩ := exists_mapM.2 fun f hf => (hs f hf).maintainability
  simp only [summarize, hc, hm]
  exact ⟨_, rfl, rfl, rfl, rfl⟩

/-- What a summary says, field by field. -/
theorem summarize_inv {files : List FileMetrics} {skipped : List Skipped} {groups : List Entry} {r : Result}
    (h : summarize files skipped groups = .ok r) :
    ∃ complexities scores,
      (files.mergeSort fun a b => decide (a.path ≤ b.path)).mapM
        (fun f => (Quantity.int f.complexity).toFloat?) = .ok complexities ∧
      (files.mergeSort fun a b => decide (a.path ≤ b.path)).mapM (fun f => f.maintainability.toFloat?) =
        .ok scores ∧
      r = {
        files := files.mergeSort fun a b => decide (a.path ≤ b.path)
        totalFiles := (files.mergeSort fun a b => decide (a.path ≤ b.path)).length
        totalLines := total ((files.mergeSort fun a b => decide (a.path ≤ b.path)).map (·.lines))
        averageComplexity := .real (Mean.of complexities)
        averageMaintainability := .real (Mean.of scores)
        skipped := skipped.mergeSort fun a b => decide (a.path ≤ b.path)
        groups := groups } := by
  simp only [summarize, bind, Except.bind] at h
  split at h
  · cases h
  · next complexities hc =>
    split at h
    · cases h
    · next scores hs =>
      cases h
      exact ⟨complexities, scores, hc, hs, rfl⟩

namespace Run

/-! ## Working on the files -/

/-- What the files of a run record, in the order in which they come. -/
def recorded (parser : SourceParser) (files : List Source) : Recorded :=
  files.flatMap (Measure.recorded parser)

theorem mem_recorded {parser : SourceParser} {files : List Source} {x : String × Occurrence} :
    x ∈ recorded parser files ↔ ∃ s ∈ files, x ∈ Measure.recorded parser s := by
  simp [recorded]

theorem under_recorded (parser : SourceParser) (files : List Source) (d : String) :
    Recorded.under (recorded parser files) d =
      files.flatMap fun s => Recorded.under (Measure.recorded parser s) d := by
  simp only [Recorded.under, recorded, List.filter_flatMap, List.map_flatMap]

/-- Every file has its own outcome, and the index gets the batches in order. -/
theorem inOrder_index (parser : SourceParser) (files : List Source) (r : Recorded) :
    (inOrder parser (Recorded.index r) files).1 = files.map (Measure.outcome parser) ∧
      (inOrder parser (Recorded.index r) files).2.1 = Recorded.index (r ++ recorded parser files) := by
  induction files generalizing r with
  | nil => simp [inOrder, recorded]
  | cons s files ih =>
    obtain ⟨houtcomes, hindex⟩ := ih (r ++ Measure.recorded parser s)
    simp only [inOrder, Measure.file, Measure.Prepared.record_open]
    refine ⟨?_, ?_⟩
    · rw [List.map_cons, ← houtcomes]
      rfl
    · rw [recorded, List.flatMap_cons, ← List.append_assoc]
      exact hindex

/-- A pool whose collector looks at no clock, or goes on after every look, gives what working on the
files in order gives. -/
theorem parallel_in_time {o : Options} {t : Timeline} {d : Option Float} (hworkers : o.checkWorkers = .ok ())
    (hdeadline : o.deadline? t.base = .ok d) (h : ∀ x ∈ d, collect x t.looks = .onward) (parser : SourceParser)
    (files : List Source) :
    (parallel o parser t files {}).1 = .ok (files.map (Measure.outcome parser)) ∧
      (parallel o parser t files {}).2.1 = Recorded.index (recorded parser files) := by
  have hall := inOrder_index parser files []
  have honward : (d.elim .onward fun d => collect d t.looks) = .onward := by
    cases d with
    | none => rfl
    | some x => exact h x rfl
  simp only [parallel, Options.checkWorkers_ok.1 hworkers, hdeadline, honward, Recorded.index_nil]
  exact ⟨by rw [← hall.1]; rfl, hall.2⟩

/-- Without a deadline it makes no difference whether the files are worked on in parallel. -/
theorem work_untimed {o : Options} {files : List Source} (ho : o.Untimed files.length)
    (parser : SourceParser) (t : Timeline) :
    (work o parser t files).1 = .ok (files.map (Measure.outcome parser)) ∧
      (work o parser t files).2.1 = Recorded.index (recorded parser files) := by
  have hdeadline : o.deadline? t.base = .ok none := by simp [Options.deadline?, ho.timeout]
  rcases ho.accepted with hseq | ⟨hpar, hworkers⟩
  · have hall := inOrder_index parser files []
    simp only [work, hseq, sequential, hdeadline, Recorded.index_nil]
    exact ⟨by rw [hall.1], hall.2⟩
  · simp only [work, hpar]
    exact parallel_in_time hworkers hdeadline nofun parser files

/-! ## The result -/

/-- The result of files that had these outcomes and recorded this. -/
theorem conclude_index (outcomes : Outcomes) (r : Recorded) :
    conclude outcomes (Recorded.index r) =
      summarize (linked (Recorded.index r).links outcomes) (skipped outcomes)
        (Recorded.index r).duplicateGroups := rfl

theorem mem_linked {r : Recorded} {outcomes : Outcomes} {f : FileMetrics} :
    f ∈ linked (Recorded.index r).links outcomes ↔
      ∃ path m, (path, .measured m) ∈ outcomes ∧ f = { m with duplicatedWith := Recorded.sortedLinks r path } := by
  simp only [linked, List.mem_filterMap]
  constructor
  · rintro ⟨⟨path, _ | _⟩, hx, hf⟩
    · exact ⟨path, _, hx, (Option.some.inj hf).symm⟩
    · cases hf
  · rintro ⟨path, m, hx, rfl⟩
    exact ⟨_, hx, rfl⟩

theorem mem_skipped {outcomes : Outcomes} {k : Skipped} :
    k ∈ skipped outcomes ↔ ∃ path reason, (path, .unmeasured reason) ∈ outcomes ∧
      k = ⟨path, if reason.isEmpty then "unknown error" else reason⟩ := by
  simp only [skipped, List.mem_filterMap]
  constructor
  · rintro ⟨⟨path, _ | _⟩, hx, hk⟩
    · cases hk
    · exact ⟨path, _, hx, (Option.some.inj hk).symm⟩
  · rintro ⟨path, reason, hx, rfl⟩
    exact ⟨_, hx, rfl⟩

/-- Every file with metrics stands under the path of these. -/
def Own (outcomes : Outcomes) : Prop := ∀ path m, (path, .measured m) ∈ outcomes → m.path = path

theorem map_filterMap_sublist {α β γ : Type} {g : α → Option β} {k : α → γ} {key : β → γ} {l : List α}
    (h : ∀ x ∈ l, ∀ y, g x = some y → key y = k x) : ((l.filterMap g).map key).Sublist (l.map k) := by
  induction l with
  | nil => simp
  | cons x l ih =>
    have ih := ih fun y hy => h y (by simp [hy])
    rw [List.filterMap_cons]
    split
    · exact ih.cons _
    · next y hy =>
      rw [List.map_cons, List.map_cons, h x (by simp) y hy]
      exact ih.cons_cons _

/-- The measured files have the paths of their outcomes, in order. -/
theorem linked_paths {links : Links} {outcomes : Outcomes} (hown : Own outcomes) :
    ((linked links outcomes).map FileMetrics.path).Sublist (outcomes.map (·.1)) := by
  refine map_filterMap_sublist ?_
  rintro ⟨path, m | _⟩ hx f hf
  · cases hf
    exact hown path m hx
  · cases hf

/-- So have the files that were not measured. -/
theorem skipped_paths (outcomes : Outcomes) :
    ((skipped outcomes).map Skipped.path).Sublist (outcomes.map (·.1)) := by
  refine map_filterMap_sublist ?_
  rintro ⟨path, _ | _⟩ hx k hk
  · cases hk
  · cases hk
    rfl

/-- **The order does not show.** Outcomes and records that are the same up to their order have one
result, if no two outcomes have one path. -/
theorem conclude_perm {outcomes₁ outcomes₂ : Outcomes} {r₁ r₂ : Recorded} (ho : outcomes₁.Perm outcomes₂)
    (hr : r₁.Perm r₂) (hown : Own outcomes₁) (hn : (outcomes₁.map (·.1)).Nodup) :
    conclude outcomes₁ (Recorded.index r₁) = conclude outcomes₂ (Recorded.index r₂) := by
  have hlinks : linked (Recorded.index r₁).links outcomes₁ = linked (Recorded.index r₂).links outcomes₁ := by
    refine List.filterMap_congr ?_
    rintro ⟨path, m | _⟩ -
    · have hsorted := Recorded.sortedLinks_perm hr path
      simp only [Recorded.sortedLinks] at hsorted
      simp only [hsorted]
    · rfl
  have hfiles : ((linked (Recorded.index r₁).links outcomes₁).mergeSort fun a b => decide (a.path ≤ b.path)) =
      (linked (Recorded.index r₂).links outcomes₂).mergeSort fun a b => decide (a.path ≤ b.path) := by
    rw [hlinks]
    refine sortsBy_path.eq_of_perm (ho.filterMap _) ?_
    intro a ha b hb
    exact List.inj_on_of_nodup_map ((linked_paths hown).nodup hn) ha hb
  have hskipped : ((skipped outcomes₁).mergeSort fun a b => decide (a.path ≤ b.path)) =
      (skipped outcomes₂).mergeSort fun a b => decide (a.path ≤ b.path) := by
    refine sortsBy_skipped.eq_of_perm (ho.filterMap _) ?_
    intro a ha b hb
    exact List.inj_on_of_nodup_map ((skipped_paths outcomes₁).nodup hn) ha hb
  simp only [conclude_index, summarize, hfiles, hskipped, Recorded.duplicateGroups_perm hr]

/-- The result of a run over files: those with metrics, each with its links, by path; those
without, with the reason; and the groups of what was recorded. -/
structure Summed (parser : SourceParser) (files : List Source) (r : Result) : Prop where
  mem_files : ∀ f, f ∈ r.files ↔ ∃ s ∈ files, ∃ m b, (Measure.prepare parser s).1 = .ready m b ∧
    f = { m with duplicatedWith := Recorded.sortedLinks (recorded parser files) s.path }
  files_strict : r.files.Pairwise fun a b => a.path < b.path
  mem_skipped : ∀ k, k ∈ r.skipped ↔ ∃ s ∈ files, ∃ reason,
    (Measure.outcome parser s).2 = .unmeasured reason ∧
      k = ⟨s.path, if reason.isEmpty then "unknown error" else reason⟩
  skipped_strict : r.skipped.Pairwise fun a b => a.path < b.path
  groups : r.groups = (Recorded.index (recorded parser files)).duplicateGroups

theorem own_outcomes (parser : SourceParser) (files : List Source) : Own (files.map (Measure.outcome parser)) := by
  intro path m h
  obtain ⟨s, -, hs⟩ := List.mem_map.1 h
  obtain ⟨b, hw⟩ := Measure.outcome_measured.1 (congrArg Prod.snd hs)
  have hpath : s.path = path := congrArg Prod.fst hs
  rw [(Measure.prepare_ready hw).1, hpath]

theorem outcomes_paths (parser : SourceParser) (files : List Source) :
    (files.map (Measure.outcome parser)).map (·.1) = files.map (·.path) := by
  rw [List.map_map]
  rfl

/-- Files with distinct paths always have a result. -/
theorem conclude_ok (parser : SourceParser) {files : List Source} (hn : (files.map (·.path)).Nodup) :
    ∃ r, conclude (files.map (Measure.outcome parser)) (Recorded.index (recorded parser files)) = .ok r ∧
      Summed parser files r := by
  have hown := own_outcomes parser files
  have hn' : ((files.map (Measure.outcome parser)).map (·.1)).Nodup := by rwa [outcomes_paths]
  have hmem : ∀ f, f ∈ linked (Recorded.index (recorded parser files)).links (files.map (Measure.outcome parser)) ↔
      ∃ s ∈ files, ∃ m b, (Measure.prepare parser s).1 = .ready m b ∧
        f = { m with duplicatedWith := Recorded.sortedLinks (recorded parser files) s.path } := by
    intro f
    rw [mem_linked]
    constructor
    · rintro ⟨path, m, hx, rfl⟩
      obtain ⟨s, hs, hsx⟩ := List.mem_map.1 hx
      obtain ⟨b, hw⟩ := Measure.outcome_measured.1 (congrArg Prod.snd hsx)
      have hpath : s.path = path := congrArg Prod.fst hsx
      exact ⟨s, hs, m, b, hw, by rw [hpath]⟩
    · rintro ⟨s, hs, m, b, hw, rfl⟩
      refine ⟨s.path, m, List.mem_map.2 ⟨s, hs, ?_⟩, rfl⟩
      exact Prod.ext rfl (Measure.outcome_measured.2 ⟨b, hw⟩)
  have hscored : ∀ f ∈ linked (Recorded.index (recorded parser files)).links
      (files.map (Measure.outcome parser)), f.Scored := by
    intro f hf
    obtain ⟨s, -, m, b, hw, rfl⟩ := (hmem f).1 hf
    obtain ⟨-, hm, -⟩ := Measure.prepare_ready hw
    exact ⟨hm.complexity, hm.maintainability⟩
  obtain ⟨r, hr, hfiles, hskipped, hgroups⟩ := summarize_ok hscored (skipped (files.map (Measure.outcome parser)))
    (Recorded.index (recorded parser files)).duplicateGroups
  refine ⟨r, hr, ⟨fun f => ?_, ?_, fun k => ?_, ?_, hgroups⟩⟩
  · rw [hfiles, List.mem_mergeSort, hmem]
  · rw [hfiles]
    exact sortsBy_path.strict ((linked_paths hown).nodup hn')
  · rw [hskipped, List.mem_mergeSort, Run.mem_skipped]
    constructor
    · rintro ⟨path, reason, hx, rfl⟩
      obtain ⟨s, hs, hsx⟩ := List.mem_map.1 hx
      have hpath : s.path = path := congrArg Prod.fst hsx
      exact ⟨s, hs, reason, congrArg Prod.snd hsx, by rw [hpath]⟩
    · rintro ⟨s, hs, reason, hreason, rfl⟩
      exact ⟨s.path, reason, List.mem_map.2 ⟨s, hs, Prod.ext rfl hreason⟩, rfl⟩
  · rw [hskipped]
    exact sortsBy_skipped.strict ((skipped_paths _).nodup hn')

end Run

/-- The result of a run is what its outcomes and its index come to. -/
theorem analyze_of_work {o : Options} {parser : SourceParser} {t : Timeline} {sources : List Source}
    {outcomes : Run.Outcomes} {i : Index} {r : Result}
    (houtcomes : (Run.work o parser t (Source.unique sources).1).1 = .ok outcomes)
    (hindex : (Run.work o parser t (Source.unique sources).1).2.1 = i)
    (hr : Run.conclude outcomes i = .ok r) : (analyze o parser t sources).1 = .ok r := by
  match hwork : Run.work o parser t (Source.unique sources).1 with
  | (.error e, _, notes) =>
    rw [hwork] at houtcomes
    cases houtcomes
  | (.ok outcomes', i', notes) =>
    rw [hwork] at houtcomes hindex
    cases houtcomes
    cases hindex
    simp only [analyze, hwork, hr]

/-- A run without a deadline has a result, read off the outcomes and the records of its files. -/
theorem analyze_untimed {o : Options} {sources : List Source}
    (ho : o.Untimed (Source.unique sources).1.length) (parser : SourceParser) (t : Timeline) :
    ∃ r, (analyze o parser t sources).1 = .ok r ∧
      Run.conclude ((Source.unique sources).1.map (Measure.outcome parser))
        (Recorded.index (Run.recorded parser (Source.unique sources).1)) = .ok r ∧
      Run.Summed parser (Source.unique sources).1 r := by
  obtain ⟨r, hr, hsum⟩ := Run.conclude_ok parser (Source.nodup_unique sources)
  obtain ⟨houtcomes, hindex⟩ := Run.work_untimed ho parser t
  exact ⟨r, analyze_of_work houtcomes hindex hr, hr, hsum⟩

end Maintainability
