/-
A result depends on nothing but the first text of each path. Two lists of sources with the same paths,
up to the way in which separators are written, and with the same first text under each (`SameFirst`)
have one result (`result_of_first_texts`). So the order of sources with distinct paths does not count,
nor does the spelling of the separators, nor a source whose path was seen before.

The files of the two runs are the same up to their order (`unique_perm`), and the order of files never
shows in a result.
-/
import Maintainability.Proofs.Returned

namespace Maintainability

namespace Source

/-- Two lists of sources with the same paths and the same first text under each. -/
structure SameFirst (xs ys : List Source) : Prop where
  /-- The paths are the same, with forward slashes. -/
  paths : ∀ path, (∃ s ∈ xs, slashed s.path = path) ↔ ∃ s ∈ ys, slashed s.path = path
  /-- The first sources of a path have one text. -/
  texts : ∀ path x y, First xs path x → First ys path y → x.text = y.text

/-- Sources of one path and one text are one file. -/
theorem First.normalize_eq {xs ys : List Source} {path : String} {x y : Source} (hx : First xs path x)
    (hy : First ys path y) (ht : x.text = y.text) : x.normalize = y.normalize := by
  obtain ⟨_, _, -, hxpath, -⟩ := hx
  obtain ⟨_, _, -, hypath, -⟩ := hy
  rw [normalize, normalize, hxpath, hypath, ht]

theorem SameFirst.at?_eq {xs ys : List Source} (h : SameFirst xs ys) (path : String) :
    at? xs path = at? ys path := by
  by_cases hpath : ∃ s ∈ xs, slashed s.path = path
  · obtain ⟨s, hs, hsp⟩ := hpath
    obtain ⟨s', hs', hsp'⟩ := (h.paths path).1 ⟨s, hs, hsp⟩
    obtain ⟨x, hx⟩ := exists_at? hs hsp
    obtain ⟨y, hy⟩ := exists_at? hs' hsp'
    obtain ⟨x', hx', rfl⟩ := at?_eq_some.1 hx
    obtain ⟨y', hy', rfl⟩ := at?_eq_some.1 hy
    rw [hx, hy, hx'.normalize_eq hy' (h.texts path x' y' hx' hy')]
  · have hpath' : ¬ ∃ s ∈ ys, slashed s.path = path := fun hy => hpath ((h.paths path).2 hy)
    rw [at?_eq_none.2 fun s hs hp => hpath ⟨s, hs, hp⟩, at?_eq_none.2 fun s hs hp => hpath' ⟨s, hs, hp⟩]

/-- Lists with the same files have them in runs over them, up to their order. -/
theorem unique_perm {xs ys : List Source} (h : ∀ path, at? xs path = at? ys path) :
    (unique xs).1.Perm (unique ys).1 := by
  refine (List.perm_ext_iff_of_nodup (nodup_unique xs).of_map (nodup_unique ys).of_map).2 fun s => ?_
  rw [mem_unique, mem_unique, h]

/-! ## What makes no difference -/

theorem SameFirst.of_at? {xs ys : List Source} (h : ∀ path, at? xs path = at? ys path) : SameFirst xs ys where
  paths := by
    intro path
    have hnone : (∀ s ∈ xs, slashed s.path ≠ path) ↔ ∀ s ∈ ys, slashed s.path ≠ path := by
      rw [← at?_eq_none, ← at?_eq_none, h]
    simpa using not_congr hnone
  texts := by
    intro path x y hx hy
    have hx' := at?_eq_some.2 ⟨x, hx, rfl⟩
    rw [h, at?_eq_some.2 ⟨y, hy, rfl⟩] at hx'
    exact (congrArg Source.text (Option.some.inj hx')).symm

/-- With distinct paths every source is a file. -/
theorem at?_of_nodup {sources : List Source} (hn : (sources.map fun s => slashed s.path).Nodup) {path : String}
    {x : Source} : at? sources path = some x ↔ x ∈ sources.map normalize ∧ x.path = path := by
  have hn' : ((sources.map normalize).map Source.path).Nodup := by
    rw [List.map_map]
    exact hn
  constructor
  · exact fun h => ⟨List.mem_of_find?_eq_some h, at?_path h⟩
  · rintro ⟨hx, rfl⟩
    obtain ⟨s, hs, hsx⟩ := List.mem_map.1 hx
    obtain ⟨y, hy⟩ := exists_at? hs (congrArg Source.path hsx)
    rw [hy, List.inj_on_of_nodup_map hn' (List.mem_of_find?_eq_some hy) hx (at?_path hy)]

/-- The order of sources with distinct paths makes no difference. -/
theorem SameFirst.of_perm {xs ys : List Source} (hp : xs.Perm ys)
    (hn : (xs.map fun s => slashed s.path).Nodup) : SameFirst xs ys := by
  refine .of_at? fun path => Option.ext fun x => ?_
  rw [at?_of_nodup hn, at?_of_nodup ((hp.map _).nodup_iff.1 hn),
    (hp.map normalize).mem_iff]

/-- The spelling of the separators makes no difference. -/
theorem SameFirst.of_normalize {xs ys : List Source} (h : xs.map normalize = ys.map normalize) :
    SameFirst xs ys := .of_at? fun path => by rw [at?, at?, h]

/-- A source whose path was seen before makes no difference. -/
theorem SameFirst.of_seen {before after : List Source} {s : Source}
    (hs : ∃ x ∈ before, slashed x.path = slashed s.path) : SameFirst (before ++ s :: after) (before ++ after) := by
  refine .of_at? fun path => ?_
  rw [at?_append, at?_append, at?_cons]
  by_cases hpath : s.normalize.path = path
  · obtain ⟨x, hx, hxs⟩ := hs
    obtain ⟨y, hy⟩ := exists_at? hx (hxs.trans hpath)
    rw [hy, Option.some_or, Option.some_or]
  · rw [if_neg hpath]

end Source

/-! ## Two runs -/

theorem Run.concluded_perm (parser : SourceParser) {files files' : List Source} (hp : files.Perm files')
    (hn : (files.map (·.path)).Nodup) : concluded parser files = concluded parser files' :=
  conclude_perm (hp.map _) (hp.flatMap_right _) (own_outcomes parser files) (by rwa [outcomes_paths])

/-- Options with which a run over so many files without a deadline ends in a fault, or never. -/
inductive Options.Refused (o : Options) (files : Nat) : Fault → Prop
  | threshold {f : Fault} (h : o.isSequential files = .error f) : Refused o files f
  | workers {f : Fault} (pool : o.isSequential files = .ok false) (h : o.startsWorkers = .error f) :
      Refused o files f
  | idle (pool : o.isSequential files = .ok false) (h : o.startsWorkers = .ok false) (some : files ≠ 0) :
      Refused o files .endless

/-- Options with which no worker is started, and none is needed. -/
structure Options.Idle (o : Options) (files : Nat) : Prop where
  timeout : o.timeout = .null
  pool : o.isSequential files = .ok false
  workers : o.startsWorkers = .ok false
  none : files = 0

theorem Options.untimed_cases {o : Options} (ho : o.timeout = .null) (files : Nat) :
    o.Untimed files ∨ (∃ f, o.Refused files f) ∨ o.Idle files := by
  match hseq : o.isSequential files with
  | .error f => exact .inr (.inl ⟨f, .threshold hseq⟩)
  | .ok true => exact .inl ⟨ho, .inl hseq⟩
  | .ok false =>
    match hworkers : o.startsWorkers with
    | .error f => exact .inr (.inl ⟨f, .workers hseq hworkers⟩)
    | .ok true => exact .inl ⟨ho, .inr ⟨hseq, Options.checkWorkers_ok.2 hworkers⟩⟩
    | .ok false =>
      by_cases hfiles : files = 0
      · exact .inr (.inr ⟨ho, hseq, hworkers, hfiles⟩)
      · exact .inr (.inl ⟨_, .idle hseq hworkers hfiles⟩)

theorem analyze_refused {o : Options} (ho : o.timeout = .null) {sources : List Source} {f : Fault}
    (h : o.Refused (Source.unique sources).1.length f) (parser : SourceParser) (t : Timeline) :
    (analyze o parser t sources).1 = .error (.fault f) := by
  have hdeadline : o.deadline? t.base = .ok none := by simp [Options.deadline?, ho]
  cases h with
  | threshold hseq => simp only [analyze, Run.work, hseq]
  | workers hpar hworkers => simp only [analyze, Run.work, hpar, Run.parallel, hworkers]
  | idle hpar hworkers hsome =>
    have hne : (Source.unique sources).1.isEmpty = false := by
      rw [List.isEmpty_eq_false_iff]
      exact List.ne_nil_of_length_pos (Nat.pos_of_ne_zero hsome)
    simp [analyze, Run.work, hpar, Run.parallel, hworkers, hdeadline, hne]

theorem analyze_idle {o : Options} {sources : List Source} (h : o.Idle (Source.unique sources).1.length)
    {parser : SourceParser} {r : Result} (hr : Run.concluded parser (Source.unique sources).1 = .ok r)
    (t : Timeline) : (analyze o parser t sources).1 = .ok r := by
  have hdeadline : o.deadline? t.base = .ok none := by simp [Options.deadline?, h.timeout]
  have hfiles : (Source.unique sources).1 = [] := List.eq_nil_of_length_eq_zero h.none
  have hpool : o.isSequential ([] : List Source).length = .ok false := hfiles ▸ h.pool
  have hwork : Run.work o parser t (Source.unique sources).1 = (.ok [], {}, []) := by
    rw [hfiles]
    simp only [Run.work, hpool, Run.parallel, h.workers, hdeadline]
    rfl
  refine analyze_of_work (congrArg Prod.fst hwork) (congrArg (·.2.1) hwork) ?_
  rw [← hr, hfiles]
  rfl

/-- Two lists of sources with one result, which runs over them either both have or both fail to
compute in the same way. -/
structure SameResult (parser : SourceParser) (xs ys : List Source) : Prop where
  /-- What runs over the one return is what runs over the other return. -/
  result : ∃ r, HasResult parser xs r ∧ HasResult parser ys r
  /-- Without a deadline the same run over both ends in the same way. -/
  analyze_eq : ∀ (o : Options) (t t' : Timeline), o.timeout = .null →
    (analyze o parser t xs).1 = (analyze o parser t' ys).1

theorem SameResult.of_sameFirst (parser : SourceParser) {xs ys : List Source} (h : Source.SameFirst xs ys) :
    SameResult parser xs ys := by
  have hperm := Source.unique_perm h.at?_eq
  obtain ⟨r, hr, hconcluded, -⟩ := exists_result parser xs
  have hconcluded' := Run.concluded_perm parser hperm (Source.nodup_unique xs)
  have hr' : HasResult parser ys r := .of_conclude (hconcluded' ▸ hconcluded)
  refine ⟨⟨r, hr, hr'⟩, fun o t t' ho => ?_⟩
  have hlength := hperm.length_eq
  rcases o.untimed_cases ho (Source.unique xs).1.length with huntimed | ⟨f, hrefused⟩ | hidle
  · rw [hr.untimed o t huntimed, hr'.untimed o t' (hlength ▸ huntimed)]
  · rw [analyze_refused ho hrefused, analyze_refused ho (hlength ▸ hrefused)]
  · rw [analyze_idle hidle hconcluded, analyze_idle (hlength ▸ hidle) (hconcluded' ▸ hconcluded)]

/-- **A result depends on the first text of each path only.** Sources with the same paths and the same
first texts have the same result; so have sources with distinct paths in another order, sources whose
separators are spelled in another way, and sources to which one is added whose path was seen before. -/
theorem result_of_first_texts (parser : SourceParser) :
    (∀ xs ys : List Source, Source.SameFirst xs ys → SameResult parser xs ys) ∧
    (∀ xs ys : List Source, xs.Perm ys → (xs.map fun s => Source.slashed s.path).Nodup →
      SameResult parser xs ys) ∧
    (∀ xs ys : List Source, xs.map Source.normalize = ys.map Source.normalize → SameResult parser xs ys) ∧
    (∀ (before after : List Source) (s : Source),
      (∃ x ∈ before, Source.slashed x.path = Source.slashed s.path) →
      SameResult parser (before ++ s :: after) (before ++ after)) := by
  refine ⟨fun xs ys h => .of_sameFirst parser h, fun xs ys hp hn => ?_, fun xs ys h => ?_,
    fun before after s hs => ?_⟩
  · exact .of_sameFirst parser (.of_perm hp hn)
  · exact .of_sameFirst parser (.of_normalize h)
  · exact .of_sameFirst parser (.of_seen hs)

/-- Two files in another order, one of them with a backslash, and a later text for the other. -/
theorem result_of_first_texts_respelled :
    Source.SameFirst [⟨"a", []⟩, ⟨"b\\c", [.space]⟩] [⟨"b/c", [.space]⟩, ⟨"a", []⟩, ⟨"a", [.lf]⟩] ∧
    SameResult (fun s => .methods [⟨"f", s.text, some (.node .loop 0 "" []), 1, 1⟩] [])
      [⟨"a", []⟩, ⟨"b\\c", [.space]⟩] [⟨"b/c", [.space]⟩, ⟨"a", []⟩, ⟨"a", [.lf]⟩] := by
  have ha : ∀ text, Source.normalize ⟨"a", text⟩ = ⟨"a", text⟩ := fun text =>
    congrArg (Source.mk · text) (show Source.slashed "a" = "a" by decide)
  have hb : ∀ text, Source.normalize ⟨"b/c", text⟩ = ⟨"b/c", text⟩ := fun text =>
    congrArg (Source.mk · text) (show Source.slashed "b/c" = "b/c" by decide)
  have hb' : ∀ text, Source.normalize ⟨"b\\c", text⟩ = ⟨"b/c", text⟩ := fun text =>
    congrArg (Source.mk · text) (show Source.slashed "b\\c" = "b/c" by decide)
  have hfirst : Source.SameFirst [⟨"a", []⟩, ⟨"b\\c", [.space]⟩]
      [⟨"b/c", [.space]⟩, ⟨"a", []⟩, ⟨"a", [.lf]⟩] := by
    refine .of_at? fun path => ?_
    simp only [Source.at?_cons, ha, hb, hb']
    by_cases h : "a" = path
    · have hne : ¬ "b/c" = path := by
        rw [← h]
        decide
      rw [if_pos h, if_neg hne, if_pos h]
    · rw [if_neg h, if_neg h, if_neg h]
  exact ⟨hfirst, (result_of_first_texts _).1 _ _ hfirst⟩

end Maintainability
