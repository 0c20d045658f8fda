/-
What a result says about duplicate methods, against the methods themselves. The methods of a file are
those that the parser finds in the first source of its path (`methodsAt`), and a method is a
duplicate of another when both have one digest. The links between the files of a result are exactly
the pairs of files with such methods (`links_exact`), and its groups are exactly the digests with two
or more places, each with all its places (`groups_exact`). A file without metrics counts for neither,
even when all its methods have digests.
-/
import Maintainability.Proofs.Run

namespace Maintainability

/-- The methods that a parser finds in a source. -/
def SourceParser.found (parser : SourceParser) (s : Source) : List Method :=
  match parser s with
  | .methods ms _ => ms
  | .rejected _ | .crashed _ => []

/-- The methods of the file with a path. -/
def methodsAt (parser : SourceParser) (sources : List Source) (path : String) : List Method :=
  match Source.at? sources path with
  | some s => parser.found s
  | none => []

/-- The places of the methods with a digest in the file with a path, in order. -/
def placesAt (parser : SourceParser) (sources : List Source) (d path : String) : List Occurrence :=
  ((methodsAt parser sources path).filter (·.digest? = some d)).map (Measure.occurrence path)

theorem methodsAt_unique {parser : SourceParser} {sources : List Source} {s : Source}
    (hs : s ∈ (Source.unique sources).1) : methodsAt parser sources s.path = parser.found s := by
  simp [methodsAt, Source.mem_unique.1 hs]

theorem mem_placesAt {parser : SourceParser} {sources : List Source} {d path : String} {x : Occurrence} :
    x ∈ placesAt parser sources d path ↔
      ∃ m ∈ methodsAt parser sources path, m.digest? = some d ∧ Measure.occurrence path m = x := by
  simp [placesAt, and_assoc]

namespace Measure

/-- A file with metrics records the digests of the methods found in it. -/
theorem recorded_ready {parser : SourceParser} {s : Source} {m : FileMetrics} {b : Recorded}
    (h : (prepare parser s).1 = .ready m b) : recorded parser s = digests s.path (parser.found s) := by
  obtain ⟨-, -, ms, said, hparser, hb⟩ := prepare_ready h
  simp only [recorded, h, Prepared.batch, SourceParser.found, hparser, hb]

/-- The places recorded under a digest in a file are those of its methods with that digest. -/
theorem under_digests (path : String) (ms : List Method) (d : String) :
    Recorded.under (digests path ms) d = (ms.filter (·.digest? = some d)).map (occurrence path) := by
  induction ms with
  | nil => simp [digests, Recorded.under]
  | cons m ms ih =>
    have hcons : digests path (m :: ms) = digests path [m] ++ digests path ms :=
      List.filterMap_append (l := [m])
    rw [hcons, Recorded.under_append, ih, List.filter_cons]
    by_cases hm : m.digest? = some d
    · simp [digests, Recorded.under, hm]
    · have hnone : Recorded.under (digests path [m]) d = [] := by
        refine List.eq_nil_iff_forall_not_mem.2 fun x hx => hm ?_
        obtain ⟨m', hm', hd, -⟩ := mem_digests.1 (Recorded.mem_under.1 hx)
        rwa [List.mem_singleton.1 hm'] at hd
      simp [hm, hnone]

/-- A file that can be recorded. -/
def Prepared.isReady : Prepared → Bool
  | .ready _ _ => true
  | .refused _ | .failed _ => false

theorem Prepared.isReady_iff {w : Prepared} : w.isReady = true ↔ ∃ m b, w = .ready m b := by
  cases w <;> simp [Prepared.isReady]

end Measure

theorem flatMap_filter {α β : Type} (p : α → Bool) (f : α → List β) (l : List α) :
    (l.filter p).flatMap f = l.flatMap fun a => if p a then f a else [] := by
  induction l with
  | nil => rfl
  | cons a l ih =>
    rw [List.filter_cons, List.flatMap_cons, ← ih]
    split
    · rw [List.flatMap_cons]
    · rw [List.nil_append]

namespace Run.Summed

variable {parser : SourceParser} {sources : List Source} {r : Result}

/-- An entry of a result stands for a file that was recorded, and its links are those of its path. -/
theorem exists_ready (h : Summed parser (Source.unique sources).1 r) {f : FileMetrics} (hf : f ∈ r.files) :
    ∃ s ∈ (Source.unique sources).1, s.path = f.path ∧ (∃ m b, (Measure.prepare parser s).1 = .ready m b) ∧
      f.duplicatedWith = Recorded.sortedLinks (recorded parser (Source.unique sources).1) f.path := by
  obtain ⟨s, hs, m, b, hready, rfl⟩ := (h.mem_files f).1 hf
  have hpath := (Measure.prepare_ready hready).1
  exact ⟨s, hs, hpath.symm, ⟨m, b, hready⟩, by simp only [hpath]⟩

/-- A file that was recorded has an entry. -/
theorem exists_entry (h : Summed parser (Source.unique sources).1 r) {s : Source}
    (hs : s ∈ (Source.unique sources).1) {m : FileMetrics} {b : Recorded}
    (hready : (Measure.prepare parser s).1 = .ready m b) : ∃ f ∈ r.files, f.path = s.path :=
  ⟨_, (h.mem_files _).2 ⟨s, hs, m, b, hready, rfl⟩, (Measure.prepare_ready hready).1⟩

/-- No file is both listed and skipped. -/
theorem path_ne_skipped (h : Summed parser (Source.unique sources).1 r) {f : FileMetrics} (hf : f ∈ r.files)
    {k : Skipped} (hk : k ∈ r.skipped) : f.path ≠ k.path := by
  intro hpath
  obtain ⟨s, hs, hfs, ⟨m, b, hready⟩, -⟩ := h.exists_ready hf
  obtain ⟨s', hs', reason, hreason, rfl⟩ := (h.mem_skipped k).1 hk
  have hsame : s = s' := Source.unique_eq_of_path hs hs' (hfs.trans hpath)
  -- one source cannot have metrics and a reason for having none
  rw [← hsame, Measure.outcome_measured.2 ⟨b, hready⟩] at hreason
  cases hreason

/-- What is recorded: the digest of a method of a file of the result, with its place. -/
theorem mem_recorded (h : Summed parser (Source.unique sources).1 r) {d : String} {x : Occurrence} :
    (d, x) ∈ recorded parser (Source.unique sources).1 ↔
      ∃ f ∈ r.files, x ∈ placesAt parser sources d f.path := by
  simp only [Run.mem_recorded, mem_placesAt]
  constructor
  · rintro ⟨s, hs, hx⟩
    match hw : (Measure.prepare parser s).1 with
    | .refused _ | .failed _ => simp [Measure.recorded, hw, Measure.Prepared.batch] at hx
    | .ready m b =>
      obtain ⟨f, hf, hfs⟩ := h.exists_entry hs hw
      rw [Measure.recorded_ready hw] at hx
      refine ⟨f, hf, ?_⟩
      rw [hfs, methodsAt_unique hs]
      exact Measure.mem_digests.1 hx
  · rintro ⟨f, hf, hx⟩
    obtain ⟨s, hs, hfs, ⟨m, b, hready⟩, -⟩ := h.exists_ready hf
    rw [← hfs, methodsAt_unique hs] at hx
    exact ⟨s, hs, by rw [Measure.recorded_ready hready]; exact Measure.mem_digests.2 hx⟩

/-- The files of a result are the files that were recorded. -/
theorem paths_perm (h : Summed parser (Source.unique sources).1 r) :
    (((Source.unique sources).1.filter fun s => (Measure.prepare parser s).1.isReady).map (·.path)).Perm
      (r.files.map (·.path)) := by
  have hready : (((Source.unique sources).1.filter fun s => (Measure.prepare parser s).1.isReady).map
      (·.path)).Nodup := (Source.nodup_unique sources).sublist (List.filter_sublist.map _)
  have hfiles : (r.files.map (·.path)).Nodup :=
    List.pairwise_map.2 (h.files_strict.imp fun hab => ne_of_lt hab)
  refine (List.perm_ext_iff_of_nodup hready hfiles).2 fun path => ?_
  simp only [List.mem_map, List.mem_filter, Measure.Prepared.isReady_iff]
  constructor
  · rintro ⟨s, ⟨hs, m, b, hw⟩, rfl⟩
    exact h.exists_entry hs hw
  · rintro ⟨f, hf, rfl⟩
    obtain ⟨s, hs, hfs, hw, -⟩ := h.exists_ready hf
    exact ⟨s, ⟨hs, hw⟩, hfs⟩

/-- Under each digest the places of all methods with it were recorded, each as often as it occurs. -/
theorem under_perm (h : Summed parser (Source.unique sources).1 r) (d : String) :
    (Recorded.under (recorded parser (Source.unique sources).1) d).Perm
      (r.files.flatMap fun f => placesAt parser sources d f.path) := by
  have hone : ∀ s ∈ (Source.unique sources).1, Recorded.under (Measure.recorded parser s) d =
      if (Measure.prepare parser s).1.isReady then placesAt parser sources d s.path else [] := by
    intro s hs
    match hw : (Measure.prepare parser s).1 with
    | .refused _ | .failed _ =>
      simp [Measure.recorded, hw, Measure.Prepared.batch, Measure.Prepared.isReady, Recorded.under]
    | .ready m b =>
      rw [Measure.recorded_ready hw, Measure.under_digests, placesAt, methodsAt_unique hs]
      rfl
  have hall : Recorded.under (recorded parser (Source.unique sources).1) d =
      (((Source.unique sources).1.filter fun s => (Measure.prepare parser s).1.isReady).map (·.path)).flatMap
        (placesAt parser sources d) := by
    rw [Run.under_recorded, List.flatMap_congr hone, List.flatMap_map, flatMap_filter]
  rw [hall]
  refine (h.paths_perm.flatMap_right _).trans ?_
  rw [List.flatMap_map]

end Run.Summed

/-! ## Links -/

namespace Run.Summed

variable {parser : SourceParser} {sources : List Source} {r : Result}

theorem mem_duplicatedWith (h : Summed parser (Source.unique sources).1 r) {a : FileMetrics}
    (ha : a ∈ r.files) {q : String} :
    q ∈ a.duplicatedWith ↔ Recorded.Shared (recorded parser (Source.unique sources).1) a.path q := by
  obtain ⟨s, -, -, -, hlinks⟩ := h.exists_ready ha
  rw [hlinks, Recorded.mem_sortedLinks]

/-- A digest is recorded in a file of the result when a method of the file has it. -/
theorem recorded_at (h : Summed parser (Source.unique sources).1 r) {a : FileMetrics} (ha : a ∈ r.files)
    {d : String} :
    (∃ x, (d, x) ∈ recorded parser (Source.unique sources).1 ∧ x.path = a.path) ↔
      ∃ m ∈ methodsAt parser sources a.path, m.digest? = some d := by
  simp only [h.mem_recorded, mem_placesAt]
  constructor
  · rintro ⟨x, ⟨f, -, m, hm, hd, rfl⟩, hpath⟩
    have hpath : f.path = a.path := hpath
    exact ⟨m, hpath ▸ hm, hd⟩
  · rintro ⟨m, hm, hd⟩
    exact ⟨Measure.occurrence a.path m, ⟨a, ha, m, hm, hd, rfl⟩, rfl⟩

/-- Two files are linked when they differ and a method of one has the digest of a method of the
other. -/
theorem linked_iff_methods (h : Summed parser (Source.unique sources).1 r) {a b : FileMetrics}
    (ha : a ∈ r.files) (hb : b ∈ r.files) :
    b.path ∈ a.duplicatedWith ↔ a.path ≠ b.path ∧
      ∃ m ∈ methodsAt parser sources a.path, ∃ m' ∈ methodsAt parser sources b.path,
        ∃ d, m.digest? = some d ∧ m'.digest? = some d := by
  rw [h.mem_duplicatedWith ha, Recorded.Shared]
  refine and_congr_right fun _ => ⟨?_, ?_⟩
  · rintro ⟨d, x, y, hx, hy, hxa, hyb⟩
    obtain ⟨m, hm, hd⟩ := (h.recorded_at ha).1 ⟨x, hx, hxa⟩
    obtain ⟨m', hm', hd'⟩ := (h.recorded_at hb).1 ⟨y, hy, hyb⟩
    exact ⟨m, hm, m', hm', d, hd, hd'⟩
  · rintro ⟨m, hm, m', hm', d, hd, hd'⟩
    obtain ⟨x, hx, hxa⟩ := (h.recorded_at ha).2 ⟨m, hm, hd⟩
    obtain ⟨y, hy, hyb⟩ := (h.recorded_at hb).2 ⟨m', hm', hd'⟩
    exact ⟨d, x, y, hx, hy, hxa, hyb⟩

/-- Two files are linked when they differ and a group has an occurrence in each. -/
theorem linked_iff_groups (h : Summed parser (Source.unique sources).1 r) {a : FileMetrics}
    (ha : a ∈ r.files) {q : String} :
    q ∈ a.duplicatedWith ↔ a.path ≠ q ∧
      ∃ g ∈ r.groups, (∃ x ∈ g.occurrences, x.path = a.path) ∧ ∃ y ∈ g.occurrences, y.path = q := by
  rw [h.mem_duplicatedWith ha, Recorded.Shared, h.groups]
  refine and_congr_right fun hne => ⟨?_, ?_⟩
  · rintro ⟨d, x, y, hx, hy, hxa, hyq⟩
    have hx := Recorded.mem_under.2 hx
    have hy := Recorded.mem_under.2 hy
    have htwo := two_le_length (fun e => hne (hxa.symm.trans ((congrArg _ e).trans hyq))) hx hy
    refine ⟨Recorded.group _ d, Recorded.group_mem htwo, ⟨x, ?_, hxa⟩, y, ?_, hyq⟩
    · exact List.mem_mergeSort.2 hx
    · exact List.mem_mergeSort.2 hy
  · rintro ⟨g, hg, ⟨x, hx, hxa⟩, y, hy, hyq⟩
    exact ⟨g.digest, x, y, Recorded.mem_of_mem_group hg hx, Recorded.mem_of_mem_group hg hy, hxa, hyq⟩

/-- Every link leads to a file of the result. -/
theorem exists_linked (h : Summed parser (Source.unique sources).1 r) {a : FileMetrics} (ha : a ∈ r.files)
    {q : String} (hq : q ∈ a.duplicatedWith) : ∃ b ∈ r.files, b.path = q := by
  obtain ⟨-, d, x, y, -, hy, -, hyq⟩ := (h.mem_duplicatedWith ha).1 hq
  obtain ⟨b, hb, hplace⟩ := h.mem_recorded.1 hy
  obtain ⟨m, -, -, rfl⟩ := mem_placesAt.1 hplace
  exact ⟨b, hb, hyq⟩

end Run.Summed

/-- **Links are shared methods.** A run without a deadline has a result in which two files are linked
exactly when they differ and some method of one has the digest of some method of the other; every
link leads to a file of the result, the links of a file are strictly increasing, they are symmetric
and none leads back to the file itself; and two files are linked exactly when they differ and some
group has an occurrence in each. -/
theorem links_exact {o : Options} {sources : List Source} (ho : o.Untimed (Source.unique sources).1.length)
    (parser : SourceParser) (t : Timeline) :
    ∃ r, (analyze o parser t sources).1 = .ok r ∧
      (∀ a ∈ r.files, ∀ b ∈ r.files, b.path ∈ a.duplicatedWith ↔ a.path ≠ b.path ∧
        ∃ m ∈ methodsAt parser sources a.path, ∃ m' ∈ methodsAt parser sources b.path,
          ∃ d, m.digest? = some d ∧ m'.digest? = some d) ∧
      (∀ a ∈ r.files, ∀ q ∈ a.duplicatedWith, ∃ b ∈ r.files, b.path = q) ∧
      (∀ a ∈ r.files, a.duplicatedWith.Pairwise (· < ·)) ∧
      (∀ a ∈ r.files, ∀ b ∈ r.files, b.path ∈ a.duplicatedWith → a.path ∈ b.duplicatedWith) ∧
      (∀ a ∈ r.files, a.path ∉ a.duplicatedWith) ∧
      (∀ a ∈ r.files, ∀ b ∈ r.files, b.path ∈ a.duplicatedWith ↔ a.path ≠ b.path ∧
        ∃ g ∈ r.groups, (∃ x ∈ g.occurrences, x.path = a.path) ∧ ∃ y ∈ g.occurrences, y.path = b.path) := by
  obtain ⟨r, hr, -, h⟩ := analyze_untimed ho parser t
  refine ⟨r, hr, fun a ha b hb => h.linked_iff_methods ha hb, fun a ha q hq => h.exists_linked ha hq,
    fun a ha => ?_, fun a ha b hb hab => ?_, fun a ha hself => ?_, fun a ha b _ => h.linked_iff_groups ha⟩
  · obtain ⟨s, -, -, -, hlinks⟩ := h.exists_ready ha
    rw [hlinks]
    exact Recorded.sortedLinks_strict _ _
  · rw [h.mem_duplicatedWith ha] at hab
    rw [h.mem_duplicatedWith hb]
    exact hab.symm
  · exact ((h.mem_duplicatedWith ha).1 hself).1 rfl

/-- Two files with methods that differ in their layout only. -/
theorem links_exact_layout :
    ∃ r, (analyze {} (fun s => .methods [⟨"f", s.text, some (.node .loop 0 "" []), 1, 1⟩] []) {}
        [⟨"a", []⟩, ⟨"b", [.space]⟩]).1 = .ok r ∧
      ∃ x ∈ r.files, x.path = "a" ∧ "b" ∈ x.duplicatedWith := by
  let parser : SourceParser := fun s => .methods [⟨"f", s.text, some (.node .loop 0 "" []), 1, 1⟩] []
  let a : Source := ⟨"a", []⟩
  let b : Source := ⟨"b", [.space]⟩
  have hfiles : (Source.unique [a, b]).1 = [a, b] := by decide
  have ho : ({} : Options).Untimed (Source.unique [a, b]).1.length := by
    rw [hfiles]
    exact ⟨rfl, .inl rfl⟩
  have ha : a ∈ (Source.unique [a, b]).1 := by simp [hfiles]
  have hb : b ∈ (Source.unique [a, b]).1 := by simp [hfiles]
  obtain ⟨r, hr, hlinks, -⟩ := links_exact ho parser {}
  obtain ⟨r', hr', -, h⟩ := analyze_untimed ho parser {}
  obtain rfl : r = r' := Except.ok.inj (hr.symm.trans hr')
  have hready : (Measure.prepare parser a).1.isReady = true ∧ (Measure.prepare parser b).1.isReady = true := by
    decide +kernel
  obtain ⟨_, _, hwa⟩ := Measure.Prepared.isReady_iff.1 hready.1
  obtain ⟨_, _, hwb⟩ := Measure.Prepared.isReady_iff.1 hready.2
  obtain ⟨x, hx, hxa⟩ := h.exists_entry ha hwa
  obtain ⟨y, hy, hyb⟩ := h.exists_entry hb hwb
  obtain ⟨d, hd⟩ : ∃ d, Method.digest? ⟨"f", [], some (.node .loop 0 "" []), 1, 1⟩ = some d :=
    Option.isSome_iff_exists.1 (by decide +kernel)
  have hlayout : Text.normalize [.space] = Text.normalize [] := by decide +kernel
  have hlink := (hlinks x hx y hy).2
  rw [hxa, hyb, methodsAt_unique ha, methodsAt_unique hb] at hlink
  refine ⟨r, hr, x, hx, hxa, hlink ⟨by decide, _, .head _, _, .head _, d, hd, ?_⟩⟩
  exact (Method.digest?_congr hlayout).trans hd

/-! ## Groups -/

/-- **Groups lose and invent nothing.** A run without a deadline has a result whose groups have
strictly increasing digests and two or more places each, in ascending order; the group of a digest
holds the places of all methods with that digest in the files of the result, each as often as it
occurs, and it is there exactly when these are two or more; and no place of a skipped file is in any
group. -/
theorem groups_exact {o : Options} {sources : List Source} (ho : o.Untimed (Source.unique sources).1.length)
    (parser : SourceParser) (t : Timeline) :
    ∃ r, (analyze o parser t sources).1 = .ok r ∧
      r.groups.Pairwise (fun a b => a.digest < b.digest) ∧
      (∀ g ∈ r.groups, 2 ≤ g.occurrences.length ∧ g.occurrences.Pairwise fun x y => x.key ≤ y.key) ∧
      (∀ d, (2 ≤ (r.files.flatMap fun f => placesAt parser sources d f.path).length →
          ∃ g ∈ r.groups, g.digest = d ∧
            g.occurrences.Perm (r.files.flatMap fun f => placesAt parser sources d f.path)) ∧
        ((r.files.flatMap fun f => placesAt parser sources d f.path).length < 2 →
          ∀ g ∈ r.groups, g.digest ≠ d)) ∧
      (∀ k ∈ r.skipped, ∀ g ∈ r.groups, ∀ x ∈ g.occurrences, x.path ≠ k.path) := by
  obtain ⟨r, hr, -, h⟩ := analyze_untimed ho parser t
  refine ⟨r, hr, ?_, fun g hg => ?_, fun d => ⟨fun htwo => ?_, fun hfew g hg hd => ?_⟩,
    fun k hk g hg x hx hxk => ?_⟩
  · rw [h.groups]
    exact Recorded.duplicateGroups_strict _
  · rw [h.groups] at hg
    obtain ⟨htwo, hgroup⟩ := Recorded.mem_duplicateGroups.1 hg
    rw [hgroup, Recorded.group, List.length_mergeSort]
    exact ⟨htwo, sortsBy_occurrence.pairwise _⟩
  · have hperm := h.under_perm d
    refine ⟨Recorded.group _ d, ?_, rfl, (List.mergeSort_perm _ Occurrence.le).trans hperm⟩
    rw [h.groups]
    exact Recorded.group_mem (hperm.length_eq ▸ htwo)
  · rw [h.groups] at hg
    obtain ⟨htwo, -⟩ := Recorded.mem_duplicateGroups.1 hg
    rw [hd, (h.under_perm d).length_eq] at htwo
    omega
  · rw [h.groups] at hg
    obtain ⟨f, hf, hplace⟩ := h.mem_recorded.1 (Recorded.mem_of_mem_group hg hx)
    obtain ⟨m, -, -, rfl⟩ := mem_placesAt.1 hplace
    exact h.path_ne_skipped hf hk hxk

/-- Three files, of which the last is never measured, have a group of two methods. -/
theorem groups_exact_crashed :
    ∃ r, (analyze {} (fun s => if s.path = "c" then .crashed "" else
          .methods [⟨"f", s.text, some (.node .loop 0 "" []), 1, 1⟩] []) {}
        [⟨"a", []⟩, ⟨"b", [.space]⟩, ⟨"c", []⟩]).1 = .ok r ∧
      ∃ g ∈ r.groups, g.occurrences.Perm [⟨"a", "f", 1⟩, ⟨"b", "f", 1⟩] := by
  let parser : SourceParser := fun s => if s.path = "c" then .crashed "" else
    .methods [⟨"f", s.text, some (.node .loop 0 "" []), 1, 1⟩] []
  let a : Source := ⟨"a", []⟩
  let b : Source := ⟨"b", [.space]⟩
  let c : Source := ⟨"c", []⟩
  have hfiles : (Source.unique [a, b, c]).1 = [a, b, c] := by decide
  have ho : ({} : Options).Untimed (Source.unique [a, b, c]).1.length := by
    rw [hfiles]
    exact ⟨rfl, .inl rfl⟩
  obtain ⟨r, hr, -, -, hgroups, -⟩ := groups_exact ho parser {}
  obtain ⟨r', hr', -, h⟩ := analyze_untimed ho parser {}
  obtain rfl : r = r' := Except.ok.inj (hr.symm.trans hr')
  obtain ⟨d, hd⟩ : ∃ d, Method.digest? ⟨"f", [], some (.node .loop 0 "" []), 1, 1⟩ = some d :=
    Option.isSome_iff_exists.1 (by decide +kernel)
  have hlayout : Text.normalize [.space] = Text.normalize [] := by decide +kernel
  have hd' : Method.digest? ⟨"f", [.space], some (.node .loop 0 "" []), 1, 1⟩ = some d :=
    (Method.digest?_congr hlayout).trans hd
  have ha : placesAt parser [a, b, c] d "a" = [⟨"a", "f", 1⟩] := by
    have hmethods : methodsAt parser [a, b, c] a.path = _ := methodsAt_unique (by simp [hfiles])
    simp [placesAt, hmethods, SourceParser.found, parser, a, hd, Measure.occurrence]
  have hb : placesAt parser [a, b, c] d "b" = [⟨"b", "f", 1⟩] := by
    have hmethods : methodsAt parser [a, b, c] b.path = _ := methodsAt_unique (by simp [hfiles])
    simp [placesAt, hmethods, SourceParser.found, parser, b, hd', Measure.occurrence]
  have hready : ([a, b, c].filter fun s => (Measure.prepare parser s).1.isReady).map (·.path) = ["a", "b"] := by
    decide +kernel
  have hpaths := h.paths_perm
  rw [hfiles, hready] at hpaths
  have hplaces := hpaths.symm.flatMap_right (placesAt parser [a, b, c] d)
  rw [List.flatMap_map, List.flatMap_cons, List.flatMap_singleton, ha, hb] at hplaces
  obtain ⟨g, hg, -, hperm⟩ := (hgroups d).1 (by simp [hplaces.length_eq])
  exact ⟨r, hr, g, hg, hperm.trans hplaces⟩

end Maintainability
