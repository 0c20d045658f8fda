/-
A file cannot disturb another. A further source under a path of its own, wherever it is put among the
sources, changes nothing about the other files but that its path may join their links; and if it is
skipped, it leaves no trace but among the skipped files (`further_file_undisturbing`).

The files of the longer run are those of the shorter one and the further file (`unique_insert`), and
what that file records is all under its own path, so two other files share a digest in the one run
exactly when they do in the other (`shared_insert`). A file that is skipped records nothing.
-/
import Maintainability.Proofs.Duplicates
import Maintainability.Proofs.FirstTexts

namespace Maintainability

/-! ## The further file -/

namespace Source

variable {before after : List Source} {f : Source}

theorem at?_insert (hf : ∀ s ∈ before ++ after, slashed s.path ≠ slashed f.path) (path : String) :
    at? (before ++ f :: after) path =
      if f.normalize.path = path then some f.normalize else at? (before ++ after) path := by
  rw [at?_append, at?_append, at?_cons]
  by_cases hpath : f.normalize.path = path
  · have hbefore : at? before path = none :=
      at?_eq_none.2 fun s hs => hpath ▸ hf s (List.mem_append_left _ hs)
    rw [if_pos hpath, if_pos hpath, hbefore, Option.none_or]
  · rw [if_neg hpath, if_neg hpath]

/-- No other file has the path of the further one. -/
theorem unique_path_ne (hf : ∀ s ∈ before ++ after, slashed s.path ≠ slashed f.path) {s : Source}
    (hs : s ∈ (unique (before ++ after)).1) : s.path ≠ f.normalize.path := by
  intro hpath
  obtain ⟨x, hx, hxp⟩ := exists_unique_path.1 ⟨s, hs, hpath⟩
  exact hf x hx hxp

/-- The files of the longer run are the further file and those of the shorter run. -/
theorem unique_insert (hf : ∀ s ∈ before ++ after, slashed s.path ≠ slashed f.path) :
    (unique (before ++ f :: after)).1.Perm (f.normalize :: (unique (before ++ after)).1) := by
  have hnew : f.normalize ∉ (unique (before ++ after)).1 := fun hmem => unique_path_ne hf hmem rfl
  have hn : (f.normalize :: (unique (before ++ after)).1).Nodup :=
    List.nodup_cons.2 ⟨hnew, (nodup_unique (before ++ after)).of_map⟩
  refine (List.perm_ext_iff_of_nodup (nodup_unique (before ++ f :: after)).of_map hn).2 fun s => ?_
  rw [mem_unique, at?_insert hf, List.mem_cons, mem_unique]
  by_cases hpath : f.normalize.path = s.path
  -- under the new path there is only the further file, under any other nothing has changed
  · have hother : at? (before ++ after) s.path ≠ some s := fun h =>
      unique_path_ne hf (mem_unique.2 h) hpath.symm
    rw [if_pos hpath, Option.some.injEq, or_iff_left hother, eq_comm]
  · have hne : s ≠ f.normalize := fun h => hpath (congrArg Source.path h.symm)
    rw [if_neg hpath, or_iff_right hne]

end Source

/-! ## What it records -/

/-- All that a file records is under its own path. -/
theorem Measure.recorded_path {parser : SourceParser} {s : Source} {d : String} {o : Occurrence}
    (h : (d, o) ∈ Measure.recorded parser s) : o.path = s.path := by
  match hw : (Measure.prepare parser s).1 with
  | .refused _ | .failed _ => simp [Measure.recorded, hw, Measure.Prepared.batch] at h
  | .ready m b =>
    rw [Measure.recorded_ready hw] at h
    obtain ⟨m', -, -, rfl⟩ := Measure.mem_digests.1 h
    rfl

/-- A file that is not measured records nothing. -/
theorem Measure.recorded_unmeasured {parser : SourceParser} {s : Source} {reason : String}
    (h : (Measure.outcome parser s).2 = .unmeasured reason) : Measure.recorded parser s = [] := by
  match hw : (Measure.prepare parser s).1 with
  | .refused _ | .failed _ => simp [Measure.recorded, hw, Measure.Prepared.batch]
  | .ready m b =>
    rw [Measure.outcome_measured.2 ⟨b, hw⟩] at h
    cases h

/-- Records under another path do not make two files share a digest. -/
theorem Recorded.Shared.append_iff {r new : Recorded} {path p q : String} (hnew : ∀ x ∈ new, x.2.path = path)
    (hp : p ≠ path) (hq : q ≠ path) : Shared (new ++ r) p q ↔ Shared r p q := by
  have hold : ∀ {d o}, o.path ≠ path → ((d, o) ∈ new ++ r ↔ (d, o) ∈ r) := by
    intro d o ho
    rw [List.mem_append]
    exact or_iff_right fun hmem => ho (hnew (d, o) hmem)
  constructor
  · rintro ⟨hpq, d, a, b, ha, hb, rfl, rfl⟩
    exact ⟨hpq, d, a, b, (hold hp).1 ha, (hold hq).1 hb, rfl, rfl⟩
  · rintro ⟨hpq, d, a, b, ha, hb, rfl, rfl⟩
    exact ⟨hpq, d, a, b, (hold hp).2 ha, (hold hq).2 hb, rfl, rfl⟩

/-! ## Links and files of the two runs -/

namespace Run

variable {parser : SourceParser} {files files' : List Source} {f : Source}

theorem recorded_insert (hfiles : files'.Perm (f :: files)) :
    (recorded parser files').Perm (Measure.recorded parser f ++ recorded parser files) :=
  hfiles.flatMap_right _

/-- Other files share a digest in the longer run exactly when they do in the shorter one. -/
theorem shared_insert (hfiles : files'.Perm (f :: files)) {p q : String} (hp : p ≠ f.path) (hq : q ≠ f.path) :
    Recorded.Shared (recorded parser files') p q ↔ Recorded.Shared (recorded parser files) p q :=
  (Recorded.Shared.perm (recorded_insert hfiles)).trans
    (Recorded.Shared.append_iff (fun _ hx => Measure.recorded_path hx) hp hq)

/-- In the shorter run no file is linked to a path that no file has. -/
theorem not_mem_sortedLinks (hf : ∀ s ∈ files, s.path ≠ f.path) (p : String) :
    f.path ∉ Recorded.sortedLinks (recorded parser files) p := by
  intro hmem
  obtain ⟨-, d, a, b, -, hb, -, hpath⟩ := Recorded.mem_sortedLinks.1 hmem
  obtain ⟨s, hs, hrecorded⟩ := mem_recorded.1 hb
  exact hf s hs ((Measure.recorded_path hrecorded).symm.trans hpath)

/-- The links of another file are those of the shorter run, once the further path is taken out. -/
theorem sortedLinks_insert (hfiles : files'.Perm (f :: files)) (hf : ∀ s ∈ files, s.path ≠ f.path) {p : String}
    (hp : p ≠ f.path) :
    (Recorded.sortedLinks (recorded parser files') p).erase f.path =
      Recorded.sortedLinks (recorded parser files) p := by
  have hstrict := Recorded.sortedLinks_strict (recorded parser files') p
  have hnodup : (Recorded.sortedLinks (recorded parser files') p).Nodup := hstrict.imp fun hab => ne_of_lt hab
  -- both lists are strictly increasing, so it is enough that they have the same members
  refine eq_of_strict (hstrict.sublist List.erase_sublist) (Recorded.sortedLinks_strict _ p) fun q => ?_
  rw [hnodup.mem_erase_iff]
  by_cases hq : q = f.path
  · subst hq
    simp [not_mem_sortedLinks hf]
  · simp only [Recorded.mem_sortedLinks, shared_insert hfiles hp hq, ne_eq, hq, not_false_eq_true, true_and]

/-- A path is listed when a file that has it can be recorded. -/
theorem Summed.listed_iff {r : Result} (h : Summed parser files r) {p : String} :
    (∃ a ∈ r.files, a.path = p) ↔ ∃ s ∈ files, s.path = p ∧ (Measure.prepare parser s).1.isReady = true := by
  constructor
  · rintro ⟨a, ha, rfl⟩
    obtain ⟨s, hs, m, b, hready, rfl⟩ := (h.mem_files a).1 ha
    exact ⟨s, hs, (Measure.prepare_ready hready).1.symm, by rw [hready]; rfl⟩
  · rintro ⟨s, hs, rfl, hready⟩
    obtain ⟨m, b, hready⟩ := Measure.Prepared.isReady_iff.1 hready
    exact ⟨_, (h.mem_files _).2 ⟨s, hs, m, b, hready, rfl⟩, (Measure.prepare_ready hready).1⟩

/-- What is not said of the further file is said of a file of the longer run exactly when it is said of
one of the shorter run. -/
theorem exists_insert (hfiles : files'.Perm (f :: files)) {P : Source → Prop} (hP : ¬ P f) :
    (∃ s ∈ files', P s) ↔ ∃ s ∈ files, P s := by
  simp only [hfiles.mem_iff, List.exists_mem_cons_iff, hP, false_or]

end Run

/-! ## Two runs -/

/-- What a further file under a path leaves as it was: between the result without it and the result
with it, nothing changes about the other files but that the path may join their links. -/
structure Undisturbed (path : String) (r r' : Result) : Prop where
  /-- Another path is listed in both or in neither. -/
  listed : ∀ p, p ≠ path → ((∃ a ∈ r.files, a.path = p) ↔ ∃ a ∈ r'.files, a.path = p)
  /-- Another path is skipped in both, for the same reason, or in neither. -/
  skipped : ∀ k : Skipped, k.path ≠ path → (k ∈ r.skipped ↔ k ∈ r'.skipped)
  /-- The metrics of a file are the same. -/
  metrics : ∀ a ∈ r.files, ∀ a' ∈ r'.files, a.path = a'.path →
    a' = { a with duplicatedWith := a'.duplicatedWith }
  /-- Its links are the same once the path is taken out of them, where it was not before. -/
  links : ∀ a ∈ r.files, ∀ a' ∈ r'.files, a.path = a'.path →
    path ∉ a.duplicatedWith ∧ a'.duplicatedWith.erase path = a.duplicatedWith
  /-- If the further file is skipped, nothing but the skipped files changes. -/
  untouched : (∃ k ∈ r'.skipped, k.path = path) → r' = { r with skipped := r'.skipped }

namespace Run

variable {parser : SourceParser} {files files' : List Source} {f : Source} {r r' : Result}

/-- Entries of one path in the two runs stand for one file. -/
theorem Summed.entries_insert (h : Summed parser files r) (h' : Summed parser files' r')
    (hfiles : files'.Perm (f :: files)) (hn : (files.map (·.path)).Nodup) (hf : ∀ s ∈ files, s.path ≠ f.path)
    {a a' : FileMetrics} (ha : a ∈ r.files) (ha' : a' ∈ r'.files) (hpath : a.path = a'.path) :
    ∃ s ∈ files, ∃ m : FileMetrics,
      a = { m with duplicatedWith := Recorded.sortedLinks (recorded parser files) s.path } ∧
      a' = { m with duplicatedWith := Recorded.sortedLinks (recorded parser files') s.path } := by
  obtain ⟨s, hs, m, b, hready, rfl⟩ := (h.mem_files a).1 ha
  obtain ⟨s', hs', m', b', hready', rfl⟩ := (h'.mem_files a').1 ha'
  have hsame : s.path = s'.path :=
    (Measure.prepare_ready hready).1.symm.trans (hpath.trans (Measure.prepare_ready hready').1)
  have hs'' : s' ∈ files := by
    rcases List.mem_cons.1 (hfiles.mem_iff.1 hs') with rfl | hmem
    · exact absurd hsame (hf s hs)
    · exact hmem
  obtain rfl : s = s' := List.inj_on_of_nodup_map hn hs hs'' hsame
  rw [hready] at hready'
  cases hready'
  exact ⟨s, hs, m, rfl, rfl⟩

end Run

/-- Summaries of the same files and groups differ in nothing but the skipped files. -/
theorem summarize_skipped {files : List FileMetrics} {skipped skipped' : List Skipped} {groups : List Entry}
    {r r' : Result} (h : summarize files skipped groups = .ok r)
    (h' : summarize files skipped' groups = .ok r') : r' = { r with skipped := r'.skipped } := by
  obtain ⟨cs, ss, hc, hs, rfl⟩ := summarize_inv h
  obtain ⟨cs', ss', hc', hs', rfl⟩ := summarize_inv h'
  rw [hc] at hc'
  rw [hs] at hs'
  cases hc'
  cases hs'
  rfl

/-- A further file that is skipped leaves the summary of the others as it was. -/
theorem Run.untouched_of_unmeasured {parser : SourceParser} {files files' : List Source} {f : Source}
    {r r' : Result} (hfiles : files'.Perm (f :: files)) (hn : (files'.map (·.path)).Nodup)
    (hr : concluded parser files = .ok r) (hr' : concluded parser files' = .ok r') {reason : String}
    (hf : (Measure.outcome parser f).2 = .unmeasured reason) : r' = { r with skipped := r'.skipped } := by
  have houtcome : Measure.outcome parser f = (f.path, .unmeasured reason) := Prod.ext rfl hf
  have hrecorded : recorded parser (f :: files) = recorded parser files := by
    rw [recorded, List.flatMap_cons, Measure.recorded_unmeasured hf, List.nil_append]
    rfl
  rw [concluded_perm parser hfiles hn, concluded, hrecorded, List.map_cons, houtcome] at hr'
  exact summarize_skipped hr hr'

/-- **A file cannot disturb another.** Put a further source anywhere among sources, under a path that
none of them has. Between the two results every other file is listed or skipped alike, for the same
reason and with the same metrics, and its links differ at most by the path of the further file; and if
that is skipped, nothing else in the result changes. -/
theorem further_file_undisturbing (parser : SourceParser) (before after : List Source) (f : Source)
    (hf : ∀ s ∈ before ++ after, Source.slashed s.path ≠ Source.slashed f.path) :
    ∃ r r', HasResult parser (before ++ after) r ∧ HasResult parser (before ++ f :: after) r' ∧
      Undisturbed (Source.slashed f.path) r r' := by
  obtain ⟨r, hr, hconcluded, h⟩ := exists_result parser (before ++ after)
  obtain ⟨r', hr', hconcluded', h'⟩ := exists_result parser (before ++ f :: after)
  have hfiles := Source.unique_insert hf
  have hn := Source.nodup_unique (before ++ after)
  have hne : ∀ s ∈ (Source.unique (before ++ after)).1, s.path ≠ f.normalize.path := fun s hs =>
    Source.unique_path_ne hf hs
  refine ⟨r, r', hr, hr', ⟨fun p hp => ?_, fun k hk => ?_, fun a ha a' ha' hpath => ?_,
    fun a ha a' ha' hpath => ?_, ?_⟩⟩
  · rw [h.listed_iff, h'.listed_iff]
    exact (Run.exists_insert hfiles fun hfp => hp hfp.1.symm).symm
  · rw [h.mem_skipped, h'.mem_skipped]
    refine (Run.exists_insert hfiles ?_).symm
    rintro ⟨reason, -, rfl⟩
    exact hk rfl
  · obtain ⟨s, hs, m, rfl, rfl⟩ := h.entries_insert h' hfiles hn hne ha ha' hpath
    rfl
  · obtain ⟨s, hs, m, rfl, rfl⟩ := h.entries_insert h' hfiles hn hne ha ha' hpath
    exact ⟨Run.not_mem_sortedLinks hne s.path, Run.sortedLinks_insert hfiles hne (hne s hs)⟩
  · rintro ⟨k, hk, hpath⟩
    obtain ⟨s, hs, reason, hreason, rfl⟩ := (h'.mem_skipped k).1 hk
    have hsf : s = f.normalize := (List.mem_cons.1 (hfiles.mem_iff.1 hs)).resolve_right fun hmem =>
      hne s hmem hpath
    exact Run.untouched_of_unmeasured hfiles (Source.nodup_unique _) hconcluded hconcluded' (hsf ▸ hreason)

/-- A file on which the parser fails, put between two others. -/
theorem further_file_undisturbing_crashed :
    ∃ r r', HasResult (fun s => if s.path = "b/c" then .crashed "" else
          .methods [⟨"f", s.text, some (.node .loop 0 "" []), 1, 1⟩] [])
        [⟨"a", []⟩, ⟨"d", [.space]⟩] r ∧
      HasResult (fun s => if s.path = "b/c" then .crashed "" else
          .methods [⟨"f", s.text, some (.node .loop 0 "" []), 1, 1⟩] [])
        [⟨"a", []⟩, ⟨"b\\c", []⟩, ⟨"d", [.space]⟩] r' ∧
      Undisturbed "b/c" r r' ∧ r' = { r with skipped := r'.skipped } := by
  let parser : SourceParser := fun s => if s.path = "b/c" then .crashed "" else
    .methods [⟨"f", s.text, some (.node .loop 0 "" []), 1, 1⟩] []
  let a : Source := ⟨"a", []⟩
  let f : Source := ⟨"b\\c", []⟩
  let d : Source := ⟨"d", [.space]⟩
  have hpath : Source.slashed f.path = "b/c" := by decide
  obtain ⟨r, r', hr, hr', h⟩ := further_file_undisturbing parser [a] [d] f (by decide)
  rw [hpath] at h
  obtain ⟨x, hx, -, hsum⟩ := exists_result parser [a, f, d]
  obtain rfl : r' = x := hr'.unique hx
  have hfile : f.normalize ∈ (Source.unique [a, f, d]).1 := by decide
  have hcrashed : parser f.normalize = .crashed "" := if_pos hpath
  have houtcome : (Measure.outcome parser f.normalize).2 = .unmeasured ("parser failed: " ++ "") := by
    simp only [Measure.outcome, Measure.prepare, hcrashed, Measure.Prepared.ended, Run.settle]
  have hskipped : ∃ k ∈ r'.skipped, k.path = "b/c" :=
    ⟨_, (hsum.mem_skipped _).2 ⟨f.normalize, hfile, _, houtcome, rfl⟩, hpath⟩
  exact ⟨r, r', hr, hr', h, h.untouched hskipped⟩

end Maintainability
