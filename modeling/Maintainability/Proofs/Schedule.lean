/-
Parallel runs and their schedules. A run without a deadline has one result: the one that is built
when the files are worked on one after the other, for any number of workers, any interleaving of
their steps and any order in which finished files are delivered (`parallel_eq_sequential`). A deadline
is meant to be all or nothing: the run raises as late, or it has that same result. It has a third end,
in which it fails on a wait that is too long for the platform, and which of the three it comes to is
said by what the collector sees of the clock; what is not recorded when the deadline comes never is
(`deadline_endings`).

Both are read off the pool: before the deadline `Pool.Steps.tracks`, after it `Pool.Steps.of_sealed`,
and what was seen of the clock `Pool.Steps.watched`.
-/
import Maintainability.Proofs.Pool

namespace Maintainability

/-- A pool that has returned without a deadline has the result of its files. -/
theorem Pool.Steps.answer {parser : SourceParser} {limit : Nat} {deadline : Option Float} {files : List Source}
    {p : Pool} {r : Result} (hp : Pool.Steps parser limit deadline (.submit files) p)
    (hn : (files.map (·.path)).Nodup) (hret : p.phase = .returned)
    (hr : Run.conclude (files.map (Measure.outcome parser)) (Recorded.index (Run.recorded parser files)) = .ok r)
    (seconds : Value) : p.answer seconds = some (.ok r) := by
  obtain ⟨given, done, htracks⟩ := hp.tracks (by rw [hret]; rfl)
  simp [Pool.answer, hret, htracks.conclude hn hret, hr, Except.mapError]

/-- **Parallel equals sequential.** At every point of every run of a pool without a deadline, with any
number of workers: if the collector has returned, the result is the one of working on the files one
after the other, which is also that of any run in parallel; and if it has not, the run goes on until
it has. -/
theorem parallel_eq_sequential (parser : SourceParser) (sources : List Source) (limit : Nat) {p : Pool}
    (hp : Pool.Steps parser limit none (.submit (Source.unique sources).1) p) :
    ∃ r : Result,
      (∀ (o : Options) (t : Timeline), o.timeout = .null →
        o.isSequential (Source.unique sources).1.length = .ok true → (analyze o parser t sources).1 = .ok r) ∧
      (∀ (o : Options) (t : Timeline), o.timeout = .null →
        o.isSequential (Source.unique sources).1.length = .ok false → o.checkWorkers = .ok () →
        (analyze o parser t sources).1 = .ok r) ∧
      (∀ a, p.answer .null = some a → a = .ok r) ∧
      (0 < limit → ∃ q, Pool.Steps parser limit none p q ∧ q.answer .null = some (.ok r)) := by
  have hn := Source.nodup_unique sources
  obtain ⟨r, hr, -⟩ := Run.conclude_ok parser hn
  have hanalyze : ∀ (o : Options) (t : Timeline), o.Untimed (Source.unique sources).1.length →
      (analyze o parser t sources).1 = .ok r := by
    intro o t ho
    obtain ⟨r', hr', hconclude, -⟩ := analyze_untimed ho parser t
    rw [hr] at hconclude
    rw [hr', Except.ok.inj hconclude]
  have hopen : p.phase.isStopped = false := Pool.Steps.isStopped_untimed hp rfl
  refine ⟨r, fun o t ht hseq => hanalyze o t ⟨ht, .inl hseq⟩,
    fun o t ht hpar hw => hanalyze o t ⟨ht, .inr ⟨hpar, hw⟩⟩, fun a ha => ?_, fun hl => ?_⟩
  · match hphase : p.phase with
    | .returned => simpa [hp.answer hn hphase hr] using ha.symm
    | .collecting => simp [Pool.answer, hphase] at ha
    | .late | .raised _ | .broken => rw [hphase] at hopen; cases hopen
  · obtain ⟨q, hq, hret⟩ := Pool.exists_returned hl hopen
    exact ⟨q, hq, Pool.Steps.answer (hp.trans hq) hn hret hr .null⟩

/-- Two files with one method between them, of which the second overtakes the first. -/
theorem parallel_eq_sequential_overtaken :
    ∃ p r, Pool.Steps (fun _ => .methods [⟨"f", [], some (.node .loop 0 "" []), 1, 2⟩] []) 2 none
        (.submit (Source.unique [⟨"a", []⟩, ⟨"b", []⟩]).1) p ∧
      p.outcomes.map (·.1) = ["b", "a"] ∧ p.answer .null = some (.ok r) ∧
      (analyze { workers := .int 1 } (fun _ => .methods [⟨"f", [], some (.node .loop 0 "" []), 1, 2⟩] []) {}
        [⟨"a", []⟩, ⟨"b", []⟩]).1 = .ok r := by
  let parser : SourceParser := fun _ => .methods [⟨"f", [], some (.node .loop 0 "" []), 1, 2⟩] []
  let a : Source := ⟨"a", []⟩
  let b : Source := ⟨"b", []⟩
  have hfiles : (Source.unique [a, b]).1 = [a, b] := by decide
  have h : Pool.Steps parser 2 none (.submit (Source.unique [a, b]).1) (.submit [a, b]) := by rw [hfiles]
  have h := h.tail (.start rfl (by decide))
  have h := h.tail (.start rfl (by decide))
  have h := h.tail (.measure (show _ = [] ++ b :: [a] from rfl))
  have h := h.tail (.record (show _ = [] ++ (b, _) :: [] from rfl))
  have h := h.tail (.deliver rfl (show _ = [] ++ (b, _) :: [] from rfl))
  have h := h.tail (.measure (show _ = [] ++ a :: [] from rfl))
  have h := h.tail (.record (show _ = [] ++ (a, _) :: [] from rfl))
  have h := h.tail (.deliver rfl (show _ = [] ++ (a, _) :: [] from rfl))
  have h := h.tail (.finish rfl rfl rfl)
  obtain ⟨r, hseq, -, hpool, -⟩ := parallel_eq_sequential parser [a, b] 2 h
  exact ⟨_, r, h, rfl, congrArg some (hpool _ rfl), hseq _ _ rfl (by rw [hfiles]; rfl)⟩

/-- Options with which a run over so many files has a pool with workers and, after a reading of the
clock, this deadline. -/
structure Options.Timed (o : Options) (files : Nat) (base deadline : Float) : Prop where
  pool : o.isSequential files = .ok false
  workers : o.checkWorkers = .ok ()
  deadline : o.deadline? base = .ok (some deadline)

namespace Options.Timed

variable {o : Options} {t : Timeline} {sources : List Source} {d : Float}

/-- The same run without a deadline. -/
theorem untimed {files : Nat} {base : Float} (h : o.Timed files base d) :
    ({ o with timeout := .null } : Options).Untimed files := ⟨rfl, .inr ⟨h.pool, h.workers⟩⟩

/-- A run whose deadline comes raises. -/
theorem analyze_late (h : o.Timed (Source.unique sources).1.length t.base d) (parser : SourceParser)
    (hlate : Run.collect d t.looks = .late) :
    (analyze o parser t sources).1 = .error (.error (.timeout o.timeout t.pending)) := by
  simp only [analyze, Run.work, h.pool, Run.parallel, Options.checkWorkers_ok.1 h.workers, h.deadline,
    Option.elim, hlate, if_true]

/-- A run that would have to wait for too long fails. -/
theorem analyze_overlong (h : o.Timed (Source.unique sources).1.length t.base d) (parser : SourceParser)
    (hlong : Run.collect d t.looks = .overlong) :
    (analyze o parser t sources).1 = .error (.fault Run.overlong) := by
  simp only [analyze, Run.work, h.pool, Run.parallel, Options.checkWorkers_ok.1 h.workers, h.deadline,
    Option.elim, hlong]

/-- A run whose collector always goes on has the result of its files. -/
theorem analyze_in_time (h : o.Timed (Source.unique sources).1.length t.base d) {parser : SourceParser}
    {r : Result} (honward : Run.collect d t.looks = .onward)
    (hr : Run.conclude ((Source.unique sources).1.map (Measure.outcome parser))
      (Recorded.index (Run.recorded parser (Source.unique sources).1)) = .ok r) :
    (analyze o parser t sources).1 = .ok r := by
  obtain ⟨houtcomes, hindex⟩ := Run.parallel_in_time h.workers h.deadline
    (by rintro _ ⟨⟩; exact honward) parser (Source.unique sources).1
  refine analyze_of_work ?_ ?_ hr
  · simpa only [Run.work, h.pool] using houtcomes
  · simpa only [Run.work, h.pool] using hindex

end Options.Timed

section Endings

variable {o : Options} {t : Timeline} {sources : List Source} {d : Float} {parser : SourceParser} {limit : Nat} {p : Pool}

/-- The answer of a pool is that of the run with the looks of its collector, and they say which it is. -/
theorem Pool.Steps.ended (ho : o.Timed (Source.unique sources).1.length t.base d)
    (hp : Pool.Steps parser limit (some d) (.submit (Source.unique sources).1) p) {a : Except Failure Result}
    (ha : p.answer o.timeout = some a) :
    (analyze o parser (p.timeline t) sources).1 = a ∧
      ((∃ l ∈ p.looks, l.verdict d = .late) ∧ (∃ n, a = .error (.error (.timeout o.timeout n))) ∨
        (∃ l ∈ p.looks, l.verdict d = .overlong) ∧ a = .error (.fault Run.overlong) ∨
        (∀ l ∈ p.looks, l.verdict d = .onward) ∧
          ∃ r, a = .ok r ∧ Pool.Steps parser limit none (.submit (Source.unique sources).1) p.blind ∧
            ∀ t', (analyze { o with timeout := .null } parser t' sources).1 = .ok r) := by
  have hn := Source.nodup_unique sources
  obtain ⟨heach, hcollect⟩ := Pool.Steps.watched hp
  have ho' : o.Timed (Source.unique sources).1.length (p.timeline t).base d := ho
  match hphase : p.phase with
  | .collecting | .late => simp [Pool.answer, hphase] at ha
  | .raised n =>
    rw [hphase] at hcollect
    simp only [Pool.answer, hphase, Option.some.injEq] at ha
    subst ha
    refine ⟨?_, .inl ⟨Pool.exists_of_collect (v := .late) nofun hcollect, n, rfl⟩⟩
    simpa only [Pool.timeline, hphase] using ho'.analyze_late parser hcollect
  | .broken =>
    rw [hphase] at hcollect
    simp only [Pool.answer, hphase, Option.ite_none_right_eq_some, Option.some.injEq] at ha
    obtain ⟨-, rfl⟩ := ha
    exact ⟨ho'.analyze_overlong parser hcollect,
      .inr (.inl ⟨Pool.exists_of_collect (v := .overlong) nofun hcollect, rfl⟩)⟩
  | .returned =>
    obtain ⟨r, hr, -⟩ := Run.conclude_ok parser hn
    rw [hphase] at hcollect heach
    rw [Pool.Steps.answer hp hn hphase hr, Option.some.injEq] at ha
    subst ha
    refine ⟨ho'.analyze_in_time hcollect hr, .inr (.inr ⟨fun l hl => (heach l hl).elim id id, r, rfl, ?_, fun t' => ?_⟩)⟩
    · exact Pool.Steps.blind hp (by rw [hphase]; rfl)
    · obtain ⟨houtcomes, hindex⟩ := Run.work_untimed ho.untimed parser t'
      exact analyze_of_work houtcomes hindex hr

/-- A pool with workers comes to an answer, however far it is. -/
theorem Pool.Steps.exists_answer
    (hp : Pool.Steps parser limit (some d) (.submit (Source.unique sources).1) p) (hl : 0 < limit) (seconds : Value) :
    ∃ q a, Pool.Steps parser limit (some d) p q ∧ q.answer seconds = some a := by
  match hphase : p.phase with
  | .raised n => exact ⟨p, .error (.error (.timeout seconds n)), .refl, by simp only [Pool.answer, hphase]⟩
  | .late => exact ⟨_, _, .single (.giveUp hphase), rfl⟩
  | .broken =>
    obtain ⟨q, hq, hq', hidle⟩ : ∃ q, Pool.Steps parser limit (some d) p q ∧ q.phase = p.phase ∧ q.pending = 0 :=
      Pool.exists_idle hl p
    exact ⟨q, .error (.fault Run.overlong), hq, by simp only [Pool.answer, hq', hphase, hidle, if_true]⟩
  | .collecting | .returned =>
    have hn := Source.nodup_unique sources
    obtain ⟨r, hr, -⟩ := Run.conclude_ok parser hn
    obtain ⟨q, hq, hret⟩ := Pool.exists_returned hl (p := p) (by rw [hphase]; rfl)
    exact ⟨q, .ok r, Pool.Steps.timed hq, Pool.Steps.answer (hp.trans (Pool.Steps.timed hq)) hn hret hr _⟩

end Endings

/-- **The ends of a run with a deadline.** At every point of every run of a pool with a deadline, the
answer, if there is one, is that of the run with these looks at the clock, and one of three: a timeout,
if the last look came after the deadline; a fault, if the collector would have had to wait longer than a
wait can last; and else the result that the same run has without a deadline. An answer is always within
reach. And once the deadline has come, the index is sealed, nothing changes it any more, and a file that
finishes has no metrics and is abandoned if it was measured. -/
theorem deadline_endings {o : Options} {t : Timeline} {sources : List Source} {d : Float}
    (ho : o.Timed (Source.unique sources).1.length t.base d) (parser : SourceParser) (limit : Nat) {p : Pool}
    (hp : Pool.Steps parser limit (some d) (.submit (Source.unique sources).1) p) :
    (∀ a, p.answer o.timeout = some a →
      (analyze o parser (p.timeline t) sources).1 = a ∧
      ((∃ l ∈ p.looks, l.verdict d = .late) ∧ (∃ n, a = .error (.error (.timeout o.timeout n))) ∨
        (∃ l ∈ p.looks, l.verdict d = .overlong) ∧ a = .error (.fault Run.overlong) ∨
        (∀ l ∈ p.looks, l.verdict d = .onward) ∧
          ∃ r, a = .ok r ∧ Pool.Steps parser limit none (.submit (Source.unique sources).1) p.blind ∧
            ∀ t', (analyze { o with timeout := .null } parser t' sources).1 = .ok r)) ∧
    (0 < limit → ∃ q a, Pool.Steps parser limit (some d) p q ∧ q.answer o.timeout = some a) ∧
    (p.phase.isLate = true → p.index.isSealed = true ∧
      ∀ q, Pool.Steps parser limit (some d) p q →
        q.index = p.index ∧ ∀ x ∈ q.finished, x ∈ p.finished ∨ Pool.Abandoned parser x) := by
  refine ⟨fun a ha => Pool.Steps.ended ho hp ha, fun hl => Pool.Steps.exists_answer hp hl o.timeout, fun hlate => ?_⟩
  have hsealed := Pool.Steps.isSealed hp hlate
  refine ⟨hsealed, fun q hq => ?_⟩
  obtain ⟨hindex, hfinished, -⟩ := Pool.Steps.of_sealed hq hsealed (Pool.Steps.held hp)
  exact ⟨hindex, hfinished⟩

/-- A file that is measured when the deadline comes, and recorded after it. -/
theorem deadline_endings_measured :
    ∃ p q, Pool.Steps (fun _ => .methods [] []) 1 (some 0.5) (.submit (Source.unique [⟨"a", []⟩]).1) p ∧
      p.phase.isLate = true ∧ p.measured.length = 1 ∧ Pool.Steps (fun _ => .methods [] []) 1 (some 0.5) p q ∧
      q.finished.length = 1 ∧ q.index = p.index ∧
      (∀ x ∈ q.finished, Pool.Abandoned (fun _ => .methods [] []) x) ∧
      (analyze { threshold := .int 1, timeout := .real 0.5 } (fun _ => .methods [] []) (q.timeline {})
        [⟨"a", []⟩]).1 = .error (.error (.timeout (.real 0.5) 0)) := by
  let parser : SourceParser := fun _ => .methods [] []
  let o : Options := { threshold := .int 1, timeout := .real 0.5 }
  let a : Source := ⟨"a", []⟩
  have hfiles : (Source.unique [a]).1 = [a] := by decide
  have ho : o.Timed (Source.unique [a]).1.length ({} : Timeline).base 0.5 := by
    rw [hfiles]
    exact ⟨rfl, rfl, rfl⟩
  have h : Pool.Steps parser 1 (some 0.5) (.submit (Source.unique [a]).1) (.submit [a]) := by rw [hfiles]
  have h := h.tail (.start rfl (by decide))
  have h := h.tail (.measure (show _ = [] ++ a :: [] from rfl))
  let p : Pool := {
    waiting := [], measured := [(a, (Measure.prepare parser a).1)], index := Index.close {}, phase := .late
    looks := [⟨1.0, true⟩] }
  have h : Pool.Steps parser 1 (some 0.5) (.submit (Source.unique [a]).1) p :=
    h.tail (.expire (l := ⟨1.0, true⟩) rfl ⟨rfl, by decide, rfl⟩ (by decide +kernel))
  have hrecord : Pool.Step parser 1 (some 0.5) p _ := .record (show _ = [] ++ (a, _) :: [] from rfl)
  have hafter : Pool.Steps parser 1 (some 0.5) p _ := (Relation.ReflTransGen.single hrecord).tail (.giveUp rfl)
  obtain ⟨-, -, hlate⟩ := deadline_endings ho parser 1 h
  obtain ⟨hindex, hfinished⟩ := (hlate rfl).2 _ hafter
  obtain ⟨hanswer, -, -⟩ := deadline_endings ho parser 1 (h.trans hafter)
  exact ⟨_, _, h, rfl, rfl, hafter, rfl, hindex, fun x hx => (hfinished x hx).resolve_left List.not_mem_nil,
    (hanswer _ rfl).1⟩

/-- A deadline in some three centuries, and a collector that has to wait for the only file: the run
fails, although it has a result without a deadline. -/
theorem deadline_overlong :
    ∃ p, Pool.Steps (fun _ => .methods [] []) 1 (some 10000000000.0) (.submit (Source.unique [⟨"a", []⟩]).1) p ∧
      p.answer (.real 10000000000.0) = some (.error (.fault Run.overlong)) ∧
      (analyze { threshold := .int 1, timeout := .real 10000000000.0 } (fun _ => .methods [] []) (p.timeline {})
        [⟨"a", []⟩]).1 = .error (.fault Run.overlong) ∧
      ∃ r, (analyze { threshold := .int 1 } (fun _ => .methods [] []) {} [⟨"a", []⟩]).1 = .ok r := by
  let parser : SourceParser := fun _ => .methods [] []
  let o : Options := { threshold := .int 1, timeout := .real 10000000000.0 }
  let a : Source := ⟨"a", []⟩
  have hfiles : (Source.unique [a]).1 = [a] := by decide
  let t : Timeline := { looks := [⟨0.0, true⟩] }
  have hsum : (0.0 + 10000000000.0 : Float) = 10000000000.0 := by decide +kernel
  have ho : o.Timed (Source.unique [a]).1.length t.base 10000000000.0 := by
    rw [hfiles]
    exact ⟨rfl, rfl, congrArg (fun x => Except.ok (some x)) hsum⟩
  have hlong : Run.collect 10000000000.0 t.looks = .overlong := by decide +kernel
  have h : Pool.Steps parser 1 (some 10000000000.0) (.submit (Source.unique [a]).1) (.submit [a]) := by rw [hfiles]
  have h := h.tail (.fail (l := ⟨0.0, true⟩) rfl ⟨rfl, by decide, rfl⟩ (by decide +kernel))
  have h := h.tail (.start rfl (by decide))
  have h := h.tail (.measure (show _ = [] ++ a :: [] from rfl))
  have h := h.tail (.record (show _ = [] ++ (a, _) :: [] from rfl))
  refine ⟨_, h, rfl, ho.analyze_overlong parser hlong, ?_⟩
  obtain ⟨r, hr, -⟩ := analyze_untimed ho.untimed parser {}
  exact ⟨r, hr⟩

end Maintainability
