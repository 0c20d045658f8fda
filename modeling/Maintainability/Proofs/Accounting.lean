/-
Every source is accounted for, once. The files of a result and the files that it skips have distinct
paths, and together these are the paths of the sources with forward slashes; each stands for the first
source of its path, measured by itself or failed by itself, and counts once in the totals. That is
`Accounted`, and it holds of whatever a run returns (`sources_accounted`).

A parser is asked once for each path, so what it says in a run is a function of the source even when
it keeps a state of its own.
-/
import Maintainability.Proofs.Duplicates
import Maintainability.Proofs.Returned

namespace Maintainability

/-! ## Paths -/

/-- All paths that a result mentions. -/
def Result.paths (r : Result) : List String :=
  r.files.map (·.path) ++ r.files.flatMap (·.duplicatedWith) ++ r.skipped.map (·.path) ++
    r.groups.flatMap fun g => g.occurrences.map (·.path)

theorem Source.slashed_no_backslash (path : String) : '\\' ∉ (Source.slashed path).toList := by
  simp only [Source.slashed, String.toList_ofList, List.mem_map, not_exists, not_and]
  intro c _ hc
  split at hc
  · cases hc
  · next hne => exact hne hc

namespace Run.Summed

variable {parser : SourceParser} {sources : List Source} {r : Result}

/-- The files and the skipped files have the paths of the sources. -/
theorem listed_or_skipped (h : Summed parser (Source.unique sources).1 r) (path : String) :
    (∃ f ∈ r.files, f.path = path) ∨ (∃ k ∈ r.skipped, k.path = path) ↔
      ∃ s ∈ sources, Source.slashed s.path = path := by
  rw [← Source.exists_unique_path]
  constructor
  · rintro (⟨f, hf, rfl⟩ | ⟨k, hk, rfl⟩)
    · obtain ⟨s, hs, hpath, -⟩ := h.exists_ready hf
      exact ⟨s, hs, hpath⟩
    · obtain ⟨s, hs, _, -, rfl⟩ := (h.mem_skipped k).1 hk
      exact ⟨s, hs, rfl⟩
  · rintro ⟨s, hs, rfl⟩
    match houtcome : (Measure.outcome parser s).2 with
    | .measured m =>
      obtain ⟨b, hready⟩ := Measure.outcome_measured.1 houtcome
      exact .inl (h.exists_entry hs hready)
    | .unmeasured reason => exact .inr ⟨_, (h.mem_skipped _).2 ⟨s, hs, reason, houtcome, rfl⟩, rfl⟩

/-- A result mentions no path but those of its files and of its skipped files. -/
theorem mem_paths (h : Summed parser (Source.unique sources).1 r) {path : String} (hp : path ∈ r.paths) :
    (∃ f ∈ r.files, f.path = path) ∨ ∃ k ∈ r.skipped, k.path = path := by
  simp only [Result.paths, List.mem_append, List.mem_map, List.mem_flatMap] at hp
  obtain ((hfile | ⟨f, hf, hlink⟩) | hskipped) | ⟨g, hg, x, hx, rfl⟩ := hp
  · exact .inl hfile
  · exact .inl (h.exists_linked hf hlink)
  · exact .inr hskipped
  · rw [h.groups] at hg
    obtain ⟨f, hf, hplace⟩ := h.mem_recorded.1 (Recorded.mem_of_mem_group hg hx)
    obtain ⟨m, -, -, rfl⟩ := mem_placesAt.1 hplace
    exact .inl ⟨f, hf, rfl⟩

end Run.Summed

/-! ## What an entry was computed from -/

namespace Measure

/-- The metrics of a file have no links yet, and a complexity of one or more. -/
theorem metrics_fresh {s : Source} {count : Nat} {t : Tally} {m : FileMetrics} (h : metrics s count t = .ok m) :
    m.duplicatedWith = [] ∧ 1 ≤ m.complexity := by
  simp only [metrics] at h
  split at h
  · cases h
  · cases h
    exact ⟨rfl, le_max_left _ _⟩

theorem prepare_fresh {parser : SourceParser} {s : Source} {m : FileMetrics} {b : Recorded}
    (h : (prepare parser s).1 = .ready m b) : m.duplicatedWith = [] ∧ 1 ≤ m.complexity := by
  obtain ⟨_, _, _, -, -, hm, -⟩ := prepare_inv h
  exact metrics_fresh hm

/-- A file that is worked on by itself ends as it does in any run. -/
theorem file_fresh (parser : SourceParser) (s : Source) : (file parser s {}).1 = (prepare parser s).1.ended := by
  simp only [file, Recorded.index_nil, Prepared.record_open]

end Measure

/-! ## Totals -/

theorem summarize_totals {files : List FileMetrics} {skipped : List Skipped} {groups : List Entry} {r : Result}
    (h : summarize files skipped groups = .ok r) :
    r.totalFiles = r.files.length ∧ r.totalLines = total (r.files.map (·.lines)) := by
  obtain ⟨_, _, -, -, rfl⟩ := summarize_inv h
  exact ⟨rfl, rfl⟩

/-! ## Accounts -/

/-- A result accounts for sources, each path once. -/
structure Accounted (parser : SourceParser) (sources : List Source) (r : Result) : Prop where
  /-- The paths of the files are strictly increasing. -/
  files_strict : r.files.Pairwise fun a b => a.path < b.path
  /-- So are those of the skipped files. -/
  skipped_strict : r.skipped.Pairwise fun a b => a.path < b.path
  /-- No file is both. -/
  disjoint : ∀ f ∈ r.files, ∀ k ∈ r.skipped, f.path ≠ k.path
  /-- Together they are the paths of the sources, with forward slashes. -/
  complete : ∀ path, (∃ f ∈ r.files, f.path = path) ∨ (∃ k ∈ r.skipped, k.path = path) ↔
    ∃ s ∈ sources, Source.slashed s.path = path
  /-- No path in the result has a backslash. -/
  slashed : ∀ path ∈ r.paths, '\\' ∉ path.toList
  /-- Links apart, an entry is what the first source of its path comes to by itself. -/
  measured : ∀ f ∈ r.files, ∃ s, Source.First sources f.path s ∧
    (Measure.file parser s.normalize {}).1 = .ok (.measured { f with duplicatedWith := [] })
  /-- A skipped file has the reason for which the first source of its path fails by itself. -/
  unmeasured : ∀ k ∈ r.skipped, ∃ s reason, Source.First sources k.path s ∧
    (Run.settle k.path (Measure.file parser s.normalize {}).1).1 = .unmeasured reason ∧
    k.reason = if reason.isEmpty then "unknown error" else reason
  /-- The files are counted. -/
  totalFiles : r.totalFiles = r.files.length
  /-- So are their lines. -/
  totalLines : r.totalLines = total (r.files.map (·.lines))
  /-- No file has a complexity below one. -/
  complexity : ∀ f ∈ r.files, 1 ≤ f.complexity

/-- A file of a run is the first source of its path. -/
theorem Source.first_of_unique {sources : List Source} {s : Source} (hs : s ∈ (Source.unique sources).1) :
    ∃ x, Source.First sources s.path x ∧ x.normalize = s :=
  Source.at?_eq_some.1 (Source.mem_unique.1 hs)

namespace Run.Summed

variable {parser : SourceParser} {sources : List Source} {r : Result}

theorem measured_alone (h : Summed parser (Source.unique sources).1 r) {f : FileMetrics} (hf : f ∈ r.files) :
    (∃ s, Source.First sources f.path s ∧
      (Measure.file parser s.normalize {}).1 = .ok (.measured { f with duplicatedWith := [] })) ∧
    1 ≤ f.complexity := by
  obtain ⟨s, hs, m, b, hready, rfl⟩ := (h.mem_files f).1 hf
  obtain ⟨hlinks, hcomplexity⟩ := Measure.prepare_fresh hready
  obtain ⟨x, hx, rfl⟩ := Source.first_of_unique hs
  refine ⟨⟨x, ?_, ?_⟩, hcomplexity⟩
  · rw [← (Measure.prepare_ready hready).1] at hx
    exact hx
  · rw [Measure.file_fresh, hready, Measure.Prepared.ended, ← hlinks]

theorem unmeasured_alone (h : Summed parser (Source.unique sources).1 r) {k : Skipped} (hk : k ∈ r.skipped) :
    ∃ s reason, Source.First sources k.path s ∧
      (Run.settle k.path (Measure.file parser s.normalize {}).1).1 = .unmeasured reason ∧
      k.reason = if reason.isEmpty then "unknown error" else reason := by
  obtain ⟨s, hs, reason, hreason, rfl⟩ := (h.mem_skipped k).1 hk
  obtain ⟨x, hx, rfl⟩ := Source.first_of_unique hs
  refine ⟨x, reason, hx, ?_, rfl⟩
  rw [Measure.file_fresh]
  exact hreason

end Run.Summed

/-- **Every source is accounted for, once,** in whatever a run over the sources returns; and no file
keeps a run from returning. -/
theorem sources_accounted (parser : SourceParser) (sources : List Source) :
    ∃ r, HasResult parser sources r ∧ Accounted parser sources r := by
  obtain ⟨r, hr, hconcluded, h⟩ := exists_result parser sources
  obtain ⟨htotalFiles, htotalLines⟩ := summarize_totals (hconcluded : summarize _ _ _ = .ok r)
  refine ⟨r, hr, {
    files_strict := h.files_strict
    skipped_strict := h.skipped_strict
    disjoint := fun f hf k hk => h.path_ne_skipped hf hk
    complete := h.listed_or_skipped
    slashed := fun path hpath => ?_
    measured := fun f hf => (h.measured_alone hf).1
    unmeasured := fun k hk => h.unmeasured_alone hk
    totalFiles := htotalFiles
    totalLines := htotalLines
    complexity := fun f hf => (h.measured_alone hf).2 }⟩
  obtain ⟨s, -, rfl⟩ := (h.listed_or_skipped path).1 (h.mem_paths hpath)
  exact Source.slashed_no_backslash s.path

end Maintainability
