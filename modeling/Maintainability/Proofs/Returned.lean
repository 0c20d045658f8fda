/-
The result of sources. A run may be made in many ways: one file after the other or in parallel, with
a deadline or without, with any number of workers whose steps interleave in any order. Whatever it
returns is the one result that its sources have (`HasResult`), and without a deadline it does return
(`exists_result`). So what holds of this result holds of every run that returns.

A run that returns has worked on all its files, so that its outcomes and its index are those of the
files by themselves (`Run.work_ok`); and a file that fails never keeps it from returning.
-/
import Maintainability.Proofs.Schedule

namespace Maintainability

namespace Run

/-- When no file is left at the deadline, all were worked on. -/
theorem untilLate_all {deadline : Float} : ∀ {readings : List Float} {files : List Source},
    (untilLate deadline readings files).2 = 0 → (untilLate deadline readings files).1 = files
  | _, [], _ => by simp [untilLate]
  | [], s :: rest, _ => by simp [untilLate]
  | t :: ts, s :: rest, h => by
    rw [untilLate] at h ⊢
    split at h
    · cases h
    · next hlate =>
      rw [if_neg hlate]
      exact congrArg (s :: ·) (untilLate_all h)

/-- Working on the files one after the other, if it is not given up, gives the outcomes and the
records of all of them. -/
theorem sequential_ok {o : Options} {parser : SourceParser} {t : Timeline} {files : List Source}
    {outcomes : Outcomes} (h : (sequential o parser t files {}).1 = .ok outcomes) :
    outcomes = files.map (Measure.outcome parser) ∧
      (sequential o parser t files {}).2.1 = Recorded.index (recorded parser files) := by
  have hall := inOrder_index parser files []
  simp only [sequential, Recorded.index_nil] at h ⊢
  split at h
  · cases h
  · cases h
    exact hall
  -- with a deadline, only a run that no reading of the clock has stopped gets here
  · split at h
    · next hleft =>
      rw [untilLate_all hleft] at h ⊢
      cases h
      simp only [hleft, if_true]
      exact hall
    · cases h

/-- So does working on them in parallel. -/
theorem parallel_ok {o : Options} {parser : SourceParser} {t : Timeline} {files : List Source}
    {outcomes : Outcomes} (h : (parallel o parser t files {}).1 = .ok outcomes) :
    outcomes = files.map (Measure.outcome parser) ∧
      (parallel o parser t files {}).2.1 = Recorded.index (recorded parser files) := by
  have hall := inOrder_index parser files []
  simp only [parallel, Recorded.index_nil] at h ⊢
  split at h
  · cases h
  · cases h
  · next working deadline _ _ =>
    generalize deadline.elim .onward (fun d => collect d t.looks) = verdict at h ⊢
    -- of the three ends of the collecting, one gets here
    cases verdict with
    | late | overlong => cases h
    | onward =>
      have hbegun : (working || files.isEmpty) = true → (if working = true then files else []) = files := by
        cases working <;> cases files <;> simp
      by_cases hw : (working || files.isEmpty) = true
      · simp only [hw, hbegun hw, if_true] at h ⊢
        cases h
        exact hall
      · simp only [hw, Bool.false_eq_true, if_false] at h
        cases h

/-- A run that is not given up has the outcomes and the records of all its files. -/
theorem work_ok {o : Options} {parser : SourceParser} {t : Timeline} {files : List Source}
    {outcomes : Outcomes} (h : (work o parser t files).1 = .ok outcomes) :
    outcomes = files.map (Measure.outcome parser) ∧
      (work o parser t files).2.1 = Recorded.index (recorded parser files) := by
  simp only [work] at h ⊢
  split at h
  · cases h
  · exact sequential_ok h
  · exact parallel_ok h

/-- What files come to: the result of the outcomes and the records that they have by themselves. -/
abbrev concluded (parser : SourceParser) (files : List Source) : Except Fault Result :=
  conclude (files.map (Measure.outcome parser)) (Recorded.index (recorded parser files))

end Run

/-- What a run returns is what its files come to. -/
theorem conclude_of_analyze {o : Options} {parser : SourceParser} {t : Timeline} {sources : List Source}
    {r : Result} (h : (analyze o parser t sources).1 = .ok r) :
    Run.concluded parser (Source.unique sources).1 = .ok r := by
  simp only [analyze] at h
  split at h
  · cases h
  · next outcomes index notes hwork =>
    obtain ⟨houtcomes, hindex⟩ := Run.work_ok (congrArg Prod.fst hwork)
    rw [hwork] at hindex
    rw [Run.concluded, ← houtcomes, ← hindex]
    split at h
    · cases h
    · next hr =>
      cases h
      exact hr

/-- The result of sources: a run without a deadline returns it, and no run returns another, be it one
file after the other or in parallel, with a deadline or without, whatever its workers do first. -/
structure HasResult (parser : SourceParser) (sources : List Source) (r : Result) : Prop where
  /-- A run without a deadline returns it. -/
  untimed : ∀ (o : Options) (t : Timeline), o.Untimed (Source.unique sources).1.length →
    (analyze o parser t sources).1 = .ok r
  /-- What a run returns is this. -/
  analyzed : ∀ (o : Options) (t : Timeline) (x : Result), (analyze o parser t sources).1 = .ok x → x = r
  /-- What a pool of workers returns is this, after any steps. -/
  pooled : ∀ (limit : Nat) (deadline : Option Float) (seconds : Value) (p : Pool) (x : Result),
    Pool.Steps parser limit deadline (.submit (Source.unique sources).1) p →
    p.answer seconds = some (.ok x) → x = r

/-- What the files of a run come to is the result of its sources. -/
theorem HasResult.of_conclude {parser : SourceParser} {sources : List Source} {r : Result}
    (hr : Run.concluded parser (Source.unique sources).1 = .ok r) : HasResult parser sources r where
  untimed := by
    intro o t ho
    obtain ⟨houtcomes, hindex⟩ := Run.work_untimed ho parser t
    exact analyze_of_work houtcomes hindex hr
  analyzed := by
    intro o t x hx
    have hconclude := conclude_of_analyze hx
    rw [hr] at hconclude
    exact (Except.ok.inj hconclude).symm
  pooled := by
    intro limit deadline seconds p x hp hx
    match hphase : p.phase with
    | .collecting | .late | .raised _ | .broken => simp [Pool.answer, hphase] at hx
    | .returned =>
      rw [hp.answer (Source.nodup_unique sources) hphase hr seconds] at hx
      exact (Except.ok.inj (Option.some.inj hx)).symm

/-- The options that a run has by default are accepted for any number of files. -/
theorem Options.untimed_default (files : Nat) : ({} : Options).Untimed files where
  timeout := rfl
  accepted := by
    cases h : Quantity.less (.int files) (.int 10) with
    | true => exact .inl (congrArg (fun few => Except.ok (few || _)) h)
    | false => exact .inr ⟨congrArg (fun few => Except.ok (few || _)) h, rfl⟩

/-- Sources have no two results. -/
theorem HasResult.unique {parser : SourceParser} {sources : List Source} {r r' : Result}
    (h : HasResult parser sources r) (h' : HasResult parser sources r') : r = r' :=
  h'.analyzed {} {} r (h.untimed {} {} (Options.untimed_default _))

/-- All sources have a result, whatever becomes of their files. -/
theorem exists_result (parser : SourceParser) (sources : List Source) :
    ∃ r, HasResult parser sources r ∧ Run.concluded parser (Source.unique sources).1 = .ok r ∧
      Run.Summed parser (Source.unique sources).1 r := by
  obtain ⟨r, hr, hsum⟩ := Run.conclude_ok parser (Source.nodup_unique sources)
  exact ⟨r, .of_conclude hr, hr, hsum⟩

end Maintainability
