/-
A parallel run, step by step. Every file is submitted to a pool of workers. A worker takes the first
file that waits, measures it, and then records its digests in the index that all of them share; the
last of these settles the outcome of the file. The collector takes the outcomes of finished files, in
any order, and returns when it has them all. In a run with a deadline it looks at the clock while it
misses an outcome. If the deadline has passed, the index is sealed, the collector counts the files
that are not finished and raises, and the files that wait are cancelled, while the workers go on with
the files they have. If it would have to wait, and what is left until the deadline is more than a wait
can last, it fails, and the workers go on to the last file.

`Step` allows each of these at any time at which it can happen, with any reading of the clock, so
`Steps` is every interleaving. While the deadline has not come, the pool has lost no file and invented
none, the outcomes are those of the files by themselves, and the index holds the batches of the
finished files in the order in which they finished (`Tracks`). Once it has come, the index never
changes again (`Steps.of_sealed`).
-/
import Mathlib.Logic.Relation
import Maintainability.Proofs.Run

namespace Maintainability

/-- How far the collector of a parallel run is. -/
inductive Phase where
  /-- It takes outcomes. -/
  | collecting
  /-- It has returned all outcomes. -/
  | returned
  /-- The deadline has come. -/
  | late
  /-- It has raised, with so many files not finished. -/
  | raised (pending : Nat)
  /-- It has failed, since it could not wait so long. -/
  | broken
  deriving DecidableEq, Repr

namespace Phase

/-- The deadline has come. -/
def isLate : Phase → Bool
  | .collecting | .returned | .broken => false
  | .late | .raised _ => true

/-- The clock has ended the collecting. -/
def isStopped : Phase → Bool
  | .collecting | .returned => false
  | .late | .raised _ | .broken => true

/-- What the last look at the clock has come to. -/
def verdict : Phase → Verdict
  | .collecting | .returned => .onward
  | .late | .raised _ => .late
  | .broken => .overlong

end Phase

/-- A pool of workers and their collector. -/
structure Pool where
  /-- The files that no worker has taken yet, in the order of submission. -/
  waiting : List Source
  /-- The files that workers are measuring. -/
  started : List Source := []
  /-- The files that workers have measured and not recorded yet. -/
  measured : List (Source × Measure.Prepared) := []
  /-- The files that are finished and not collected yet. -/
  finished : List (Source × Except Fault Outcome) := []
  /-- What the collector has, in the order of delivery. -/
  outcomes : Run.Outcomes := []
  /-- The index that the workers share. -/
  index : Index := {}
  /-- How far the collector is. -/
  phase : Phase := .collecting
  /-- The looks of the collector at the clock. -/
  looks : List Look := []

namespace Pool

/-- The files whose outcome is not settled. -/
def pending (p : Pool) : Nat := p.waiting.length + p.started.length + p.measured.length

/-- A look that the collector can take: it misses an outcome, and would have to wait if none is ready. -/
structure CanLook (p : Pool) (l : Look) : Prop where
  collecting : p.phase = .collecting
  missing : 0 < p.pending + p.finished.length
  waits : l.waits = p.finished.isEmpty

/-- One step of a worker or of the collector, with so many workers at most and with or without a
deadline. -/
inductive Step (parser : SourceParser) (limit : Nat) (deadline : Option Float) : Pool → Pool → Prop
  /-- A worker takes the first file that waits. -/
  | start {p : Pool} {s : Source} {rest : List Source} (hw : p.waiting = s :: rest)
      (hl : p.started.length + p.measured.length < limit) :
      Step parser limit deadline p { p with waiting := rest, started := s :: p.started }
  /-- A worker is through with the methods of its file. -/
  | measure {p : Pool} {s : Source} {before after : List Source} (hs : p.started = before ++ s :: after) :
      Step parser limit deadline p { p with
        started := before ++ after
        measured := (s, (Measure.prepare parser s).1) :: p.measured }
  /-- A worker records the batch of its file, all at once, and the file is finished. -/
  | record {p : Pool} {s : Source} {w : Measure.Prepared} {before after : List (Source × Measure.Prepared)}
      (hm : p.measured = before ++ (s, w) :: after) :
      Step parser limit deadline p { p with
        measured := before ++ after
        finished := (s, (w.record p.index).1) :: p.finished
        index := (w.record p.index).2 }
  /-- The collector takes the outcome of a finished file. -/
  | deliver {p : Pool} {s : Source} {e : Except Fault Outcome} {before after : List (Source × Except Fault Outcome)}
      (hc : p.phase = .collecting) (hf : p.finished = before ++ (s, e) :: after) :
      Step parser limit deadline p { p with
        finished := before ++ after
        outcomes := p.outcomes ++ [(s.path, (Run.settle s.path e).1)] }
  /-- The collector has the outcomes of all files. -/
  | finish {p : Pool} (hc : p.phase = .collecting) (hp : p.pending = 0) (hf : p.finished = []) :
      Step parser limit deadline p { p with phase := .returned }
  /-- The collector looks at the clock and goes on. -/
  | look {p : Pool} {d : Float} {l : Look} (hd : deadline = some d) (hl : p.CanLook l) (hv : l.verdict d = .onward) :
      Step parser limit deadline p { p with looks := p.looks ++ [l] }
  /-- It looks at the clock after the deadline, and the index is sealed. -/
  | expire {p : Pool} {d : Float} {l : Look} (hd : deadline = some d) (hl : p.CanLook l) (hv : l.verdict d = .late) :
      Step parser limit deadline p { p with looks := p.looks ++ [l], phase := .late, index := p.index.close }
  /-- It would have to wait for too long, and fails. -/
  | fail {p : Pool} {d : Float} {l : Look} (hd : deadline = some d) (hl : p.CanLook l) (hv : l.verdict d = .overlong) :
      Step parser limit deadline p { p with looks := p.looks ++ [l], phase := .broken }
  /-- The collector counts the files that are not finished, and raises. -/
  | giveUp {p : Pool} (hc : p.phase = .late) :
      Step parser limit deadline p { p with phase := .raised p.pending }
  /-- The files that wait are cancelled. -/
  | cancel {p : Pool} {n : Nat} (hc : p.phase = .raised n) : Step parser limit deadline p { p with waiting := [] }

/-- Any number of steps. -/
abbrev Steps (parser : SourceParser) (limit : Nat) (deadline : Option Float) : Pool → Pool → Prop :=
  Relation.ReflTransGen (Step parser limit deadline)

/-- The pool to which files are submitted. -/
def submit (files : List Source) : Pool := { waiting := files }

/-- What the caller of the run gets, once the collector is through. Unless it is given up as late, the
run ends only when all files are finished. -/
def answer (seconds : Value) (p : Pool) : Option (Except Failure Result) :=
  match p.phase with
  | .collecting | .late => none
  | .returned => some ((Run.conclude p.outcomes p.index).mapError .fault)
  | .raised n => some (.error (.error (.timeout seconds n)))
  | .broken => if p.pending = 0 then some (.error (.fault Run.overlong)) else none

/-- The timeline of a run that came to this. -/
def timeline (t : Timeline) (p : Pool) : Timeline :=
  { t with
    looks := p.looks
    pending := match p.phase with
      | .raised n => n
      | _ => 0 }

variable {parser : SourceParser} {limit : Nat} {deadline : Option Float} {p q : Pool}

theorem mem_of_removed {α : Type} {l before after : List α} {x y : α} (hl : l = before ++ y :: after)
    (hx : x ∈ before ++ after) : x ∈ l := by
  rw [hl]
  exact ((List.sublist_cons_self y after).append_left before).subset hx

/-- What a worker holds is what its file comes to, before and after the deadline. -/
def Held (parser : SourceParser) (p : Pool) : Prop :=
  ∀ x ∈ p.measured, x.2 = (Measure.prepare parser x.1).1

theorem Step.held (h : Step parser limit deadline p q) (hp : Held parser p) : Held parser q := by
  cases h with
  | start | deliver | finish | look | expire | fail | giveUp | cancel => exact hp
  | measure hs =>
    intro x hx
    rcases List.mem_cons.1 hx with rfl | hx
    · rfl
    · exact hp x hx
  | record hm => exact fun x hx => hp x (mem_of_removed hm hx)

theorem Steps.held {files : List Source} (h : Steps parser limit deadline (submit files) p) :
    Held parser p := by
  induction h with
  | refl => simp [Held, submit]
  | tail _ hs ih => exact hs.held ih

/-! ## Before the deadline -/

/-- What holds as long as the deadline has not come, of a pool that has delivered the files `given`
and recorded the files `done`, in these orders. -/
structure Tracks (parser : SourceParser) (files given done : List Source) (p : Pool) : Prop where
  /-- Every file is somewhere, once. -/
  all : (p.waiting ++ p.started ++ p.measured.map (·.1) ++ (p.finished.map (·.1) ++ given)).Perm files
  /-- A finished file has the outcome that it has by itself. -/
  ended : ∀ x ∈ p.finished, x.2 = (Measure.prepare parser x.1).1.ended
  /-- So have the files that are delivered. -/
  outcomes : p.outcomes = given.map (Measure.outcome parser)
  /-- The recorded files are those that are finished. -/
  recorded : done.Perm (p.finished.map (·.1) ++ given)
  /-- The index holds their batches. -/
  index : p.index = Recorded.index (Run.recorded parser done)
  /-- The collector returns with nothing left to do. -/
  drained : p.phase = .returned → p.pending = 0 ∧ p.finished = []

theorem tracks_submit (parser : SourceParser) (files : List Source) :
    Tracks parser files [] [] (submit files) where
  all := by simp [submit]
  ended := by simp [submit]
  outcomes := rfl
  recorded := by simp [submit]
  index := rfl
  drained := by simp [submit]

section Tracks

variable {files given done : List Source}

theorem Tracks.start {s : Source} {rest : List Source} (hp : Tracks parser files given done p)
    (hw : p.waiting = s :: rest) :
    Tracks parser files given done { p with waiting := rest, started := s :: p.started } := by
  refine ⟨?_, hp.ended, hp.outcomes, hp.recorded, hp.index, fun hr => ?_⟩
  · have hall := hp.all
    rw [hw] at hall
    exact (((List.perm_middle.append_right _).append_right _)).trans hall
  · have hzero := (hp.drained hr).1
    simp [pending, hw] at hzero

theorem Tracks.measure {s : Source} {before after : List Source} (hp : Tracks parser files given done p)
    (hs : p.started = before ++ s :: after) :
    Tracks parser files given done { p with
      started := before ++ after
      measured := (s, (Measure.prepare parser s).1) :: p.measured } := by
  refine ⟨?_, hp.ended, hp.outcomes, hp.recorded, hp.index, fun hr => ?_⟩
  · have hall := hp.all
    rw [hs] at hall
    refine List.Perm.trans ?_ hall
    simp only [List.perm_iff_count, List.map_cons, List.count_append, List.count_cons]
    intro x
    omega
  · have hzero := (hp.drained hr).1
    simp [pending, hs] at hzero

/-- Recording puts the file behind those that were recorded before it. -/
theorem Tracks.record {s : Source} {w : Measure.Prepared} {before after : List (Source × Measure.Prepared)}
    (hp : Tracks parser files given done p) (hheld : Held parser p)
    (hm : p.measured = before ++ (s, w) :: after) :
    Tracks parser files given (done ++ [s]) { p with
      measured := before ++ after
      finished := (s, (w.record p.index).1) :: p.finished
      index := (w.record p.index).2 } := by
  have hw : w = (Measure.prepare parser s).1 := hheld (s, w) (by simp [hm])
  have hrec : w.record p.index = (w.ended, Recorded.index (Run.recorded parser (done ++ [s]))) := by
    rw [hp.index, Measure.Prepared.record_open, hw]
    simp [Run.recorded, Measure.recorded]
  refine ⟨?_, ?_, hp.outcomes, ?_, ?_, fun hr => ?_⟩
  · have hall := hp.all
    rw [hm] at hall
    refine List.Perm.trans ?_ hall
    simp only [List.perm_iff_count, List.map_append, List.map_cons, List.count_append, List.count_cons]
    intro x
    omega
  · intro x hx
    rcases List.mem_cons.1 hx with rfl | hx
    · rw [hrec, hw]
    · exact hp.ended x hx
  · exact (List.perm_append_singleton s done).trans (hp.recorded.cons s)
  · rw [hrec]
  · have hzero := (hp.drained hr).1
    simp [pending, hm] at hzero

theorem Tracks.deliver {s : Source} {e : Except Fault Outcome}
    {before after : List (Source × Except Fault Outcome)} (hp : Tracks parser files given done p)
    (hc : p.phase = .collecting) (hf : p.finished = before ++ (s, e) :: after) :
    Tracks parser files (given ++ [s]) done { p with
      finished := before ++ after
      outcomes := p.outcomes ++ [(s.path, (Run.settle s.path e).1)] } := by
  have he : e = (Measure.prepare parser s).1.ended := hp.ended (s, e) (by simp [hf])
  have hmoves : (p.finished.map (·.1) ++ given).Perm ((before ++ after).map (·.1) ++ (given ++ [s])) := by
    rw [hf]
    simp only [List.perm_iff_count, List.map_append, List.map_cons, List.count_append, List.count_cons,
      List.count_nil]
    intro x
    omega
  refine ⟨(hmoves.symm.append_left _).trans hp.all, fun x hx => hp.ended x (mem_of_removed hf hx), ?_,
    hp.recorded.trans hmoves, hp.index, fun hr => ?_⟩
  · rw [hp.outcomes, he, List.map_append]
    rfl
  · rw [hc] at hr
    cases hr

/-- A step before the deadline loses no file. -/
theorem Step.tracks (h : Step parser limit deadline p q) (hq : q.phase.isLate = false)
    (hheld : Held parser p) (hp : Tracks parser files given done p) :
    ∃ given' done', Tracks parser files given' done' q := by
  cases h with
  | start hw => exact ⟨_, _, hp.start hw⟩
  | measure hs => exact ⟨_, _, hp.measure hs⟩
  | record hm => exact ⟨_, _, hp.record hheld hm⟩
  | deliver hc hf => exact ⟨_, _, hp.deliver hc hf⟩
  | finish hc hz hf =>
    exact ⟨_, _, ⟨hp.all, hp.ended, hp.outcomes, hp.recorded, hp.index, fun _ => ⟨hz, hf⟩⟩⟩
  | look => exact ⟨_, _, ⟨hp.all, hp.ended, hp.outcomes, hp.recorded, hp.index, hp.drained⟩⟩
  | fail => exact ⟨_, _, ⟨hp.all, hp.ended, hp.outcomes, hp.recorded, hp.index, nofun⟩⟩
  | expire | giveUp => cases hq
  | cancel hc => rw [hc] at hq; cases hq

/-- The clock does not run backwards. -/
theorem Step.isLate_of_isLate (h : Step parser limit deadline p q) (hp : p.phase.isLate = true) :
    q.phase.isLate = true := by
  cases h with
  | start | measure | record | deliver | look | cancel => exact hp
  | finish hc => rw [hc] at hp; cases hp
  | fail _ hl => rw [hl.collecting] at hp; cases hp
  | expire | giveUp => rfl

theorem Step.isLate_eq_false (h : Step parser limit deadline p q) (hq : q.phase.isLate = false) :
    p.phase.isLate = false := by
  by_contra hlate
  rw [h.isLate_of_isLate (by simpa using hlate)] at hq
  cases hq

/-- **A run before the deadline** has lost no file, and its index holds the batches of the files that
are finished. -/
theorem Steps.tracks (h : Steps parser limit deadline (submit files) p) (hp : p.phase.isLate = false) :
    ∃ given done, Tracks parser files given done p := by
  induction h with
  | refl => exact ⟨[], [], tracks_submit parser files⟩
  | tail hpq hs ih =>
    obtain ⟨given, done, hq⟩ := ih (hs.isLate_eq_false hp)
    exact hs.tracks hp (Steps.held hpq) hq

/-- A pool that has returned has the result of its files, whatever the order in which they finished
and were delivered. -/
theorem Tracks.conclude (hp : Tracks parser files given done p) (hn : (files.map (·.path)).Nodup)
    (hr : p.phase = .returned) :
    Run.conclude p.outcomes p.index =
      Run.conclude (files.map (Measure.outcome parser)) (Recorded.index (Run.recorded parser files)) := by
  obtain ⟨hzero, hfinished⟩ := hp.drained hr
  obtain ⟨⟨hwaiting, hstarted⟩, hmeasured⟩ : (p.waiting = [] ∧ p.started = []) ∧ p.measured = [] := by
    simpa [pending] using hzero
  have hgiven : given.Perm files := by
    simpa [hwaiting, hstarted, hmeasured, hfinished] using hp.all
  have hdone : done.Perm files := by
    have hrecorded := hp.recorded
    rw [hfinished] at hrecorded
    exact hrecorded.trans hgiven
  rw [hp.outcomes, hp.index]
  refine Run.conclude_perm (hgiven.map _) (hdone.flatMap_right _) (Run.own_outcomes parser given) ?_
  rw [Run.outcomes_paths]
  exact (hgiven.map _).nodup_iff.2 hn

end Tracks

/-! ## Every run without a deadline returns -/

/-- The steps that are left for the files and the collector. -/
def remaining (p : Pool) : Nat :=
  4 * p.waiting.length + 3 * p.started.length + 2 * p.measured.length + p.finished.length +
    if p.phase = .collecting then 1 else 0

theorem Step.isStopped_untimed (h : Step parser limit none p q) (hp : p.phase.isStopped = false) :
    q.phase.isStopped = false := by
  cases h with
  | start | measure | record | deliver | cancel => exact hp
  | finish => rfl
  | look hd | expire hd | fail hd => cases hd
  | giveUp hc => rw [hc] at hp; cases hp

/-- Without a deadline the collector never looks at the clock. -/
theorem Steps.isStopped_untimed (h : Steps parser limit none p q) (hp : p.phase.isStopped = false) :
    q.phase.isStopped = false := by
  induction h with
  | refl => exact hp
  | tail _ hs ih => exact hs.isStopped_untimed ih

theorem Step.remaining_lt (h : Step parser limit none p q) (hp : p.phase.isStopped = false) :
    q.remaining < p.remaining := by
  cases h with
  | start hw => simp [remaining, hw]; omega
  | measure hs => simp [remaining, hs]; omega
  | record hm => simp [remaining, hm]; omega
  | deliver hc hf => simp [remaining, hf]
  | finish hc => simp [remaining, hc]
  | look hd | expire hd | fail hd => cases hd
  | giveUp hc | cancel hc => rw [hc] at hp; cases hp

/-- While a file is not finished, some worker can go on. -/
theorem exists_work (hl : 0 < limit) (hp : 0 < p.pending) :
    ∃ q, Step parser limit deadline p q ∧ q.phase = p.phase ∧ q.remaining < p.remaining := by
  match hm : p.measured with
  | (s, w) :: rest =>
    have hm' : p.measured = [] ++ (s, w) :: rest := hm
    exact ⟨_, .record hm', rfl, by simp [remaining, hm]; omega⟩
  | [] =>
    match hs : p.started with
    | s :: rest =>
      have hs' : p.started = [] ++ s :: rest := hs
      exact ⟨_, .measure hs', rfl, by simp [remaining, hs]; omega⟩
    | [] =>
      match hw : p.waiting with
      | s :: rest => exact ⟨_, .start hw (by simpa [hs, hm] using hl), rfl, by simp [remaining, hw]; omega⟩
      | [] => simp [pending, hw, hs, hm] at hp

/-- The workers can go on until all files are finished. -/
theorem exists_idle (hl : 0 < limit) (p : Pool) :
    ∃ q, Steps parser limit deadline p q ∧ q.phase = p.phase ∧ q.pending = 0 := by
  induction hn : p.remaining using Nat.strong_induction_on generalizing p with
  | _ n ih =>
    by_cases hp : p.pending = 0
    · exact ⟨p, .refl, rfl, hp⟩
    · obtain ⟨q, hq, hphase, hlt⟩ : ∃ q, Step parser limit deadline p q ∧ q.phase = p.phase ∧
          q.remaining < p.remaining := exists_work hl (Nat.pos_of_ne_zero hp)
      obtain ⟨r, hr, hr', hidle⟩ := ih q.remaining (hn ▸ hlt) q rfl
      exact ⟨r, hr.head hq, hr'.trans hphase, hidle⟩

/-- While the collector waits for an outcome, some worker can go on, or it can go on itself. -/
theorem exists_step (hl : 0 < limit) (hc : p.phase = .collecting) : ∃ q, Step parser limit deadline p q := by
  match hf : p.finished with
  | (s, e) :: rest =>
    have hf' : p.finished = [] ++ (s, e) :: rest := hf
    exact ⟨_, .deliver hc hf'⟩
  | [] =>
    by_cases hp : p.pending = 0
    · exact ⟨_, .finish hc hp hf⟩
    · obtain ⟨q, hq, -⟩ : ∃ q, Step parser limit deadline p q ∧ q.phase = p.phase ∧ q.remaining < p.remaining :=
        exists_work hl (Nat.pos_of_ne_zero hp)
      exact ⟨q, hq⟩

/-- Without a deadline every run can be completed: there is always a next step, and there are only
finitely many. -/
theorem exists_returned (hl : 0 < limit) (hp : p.phase.isStopped = false) :
    ∃ q, Steps parser limit none p q ∧ q.phase = .returned := by
  induction hn : p.remaining using Nat.strong_induction_on generalizing p with
  | _ n ih =>
    match hc : p.phase with
    | .returned => exact ⟨p, .refl, hc⟩
    | .late | .raised _ | .broken => rw [hc] at hp; cases hp
    | .collecting =>
      obtain ⟨q, hq⟩ : ∃ q, Step parser limit none p q := exists_step hl hc
      obtain ⟨r, hr, hret⟩ := ih q.remaining (hn ▸ hq.remaining_lt hp) (hq.isStopped_untimed hp) rfl
      exact ⟨r, hr.head hq, hret⟩

/-! ## Runs with and without a deadline -/

/-- A run without a deadline is also one with a deadline that nobody looks at. -/
theorem Step.timed (h : Step parser limit none p q) : Step parser limit deadline p q := by
  cases h with
  | start hw hl => exact .start hw hl
  | measure hs => exact .measure hs
  | record hm => exact .record hm
  | deliver hc hf => exact .deliver hc hf
  | finish hc hz hf => exact .finish hc hz hf
  | look hd | expire hd | fail hd => cases hd
  | giveUp hc => exact .giveUp hc
  | cancel hc => exact .cancel hc

theorem Steps.timed (h : Steps parser limit none p q) : Steps parser limit deadline p q :=
  Relation.ReflTransGen.mono (fun _ _ => Step.timed) _ _ h

/-- The pool without the looks at the clock. -/
def blind (p : Pool) : Pool := { p with looks := [] }

/-- A step after which the clock has not ended the collecting is one of a run without a deadline, or
none at all. -/
theorem Step.blind (h : Step parser limit deadline p q) (hq : q.phase.isStopped = false) :
    Steps parser limit none p.blind q.blind := by
  cases h with
  | start hw hl => exact .single (.start (p := p.blind) hw hl)
  | measure hs => exact .single (.measure (p := p.blind) hs)
  | record hm => exact .single (.record (p := p.blind) hm)
  | deliver hc hf => exact .single (.deliver (p := p.blind) hc hf)
  | finish hc hz hf => exact .single (.finish (p := p.blind) hc hz hf)
  | look => exact .refl
  | expire | fail | giveUp => cases hq
  | cancel hc => rw [hc] at hq; cases hq

theorem Step.isStopped_eq_false (h : Step parser limit deadline p q) (hq : q.phase.isStopped = false) :
    p.phase.isStopped = false := by
  cases h with
  | start | measure | record | deliver | look => exact hq
  | finish hc => rw [hc]; rfl
  | expire | fail | giveUp => cases hq
  | cancel hc => rw [hc] at hq; cases hq

/-- A run that the clock has not stopped is one without a deadline, but for the looks. -/
theorem Steps.blind (h : Steps parser limit deadline p q) (hq : q.phase.isStopped = false) :
    Steps parser limit none p.blind q.blind := by
  induction h with
  | refl => exact .refl
  | tail _ hs ih => exact (ih (hs.isStopped_eq_false hq)).trans (hs.blind hq)

/-! ## Looks at the clock -/

/-- The looks of the collector, and how far it is with a deadline `d`. -/
structure Watched (d : Float) (p : Pool) : Prop where
  /-- Only the last look may be the end of the collecting. -/
  each : ∀ l ∈ p.looks, l.verdict d = .onward ∨ l.verdict d = p.phase.verdict
  /-- And it is, if the clock has ended it. -/
  collect : Run.collect d p.looks = p.phase.verdict

/-- One more look settles it, if those before were passed over. -/
theorem collect_concat {d : Float} {looks : List Look} (h : Run.collect d looks = .onward) (l : Look) :
    Run.collect d (looks ++ [l]) = l.verdict d := by
  induction looks with
  | nil => cases hv : l.verdict d <;> simp [Run.collect, hv]
  | cons x looks ih =>
    rw [Run.collect] at h
    rw [List.cons_append, Run.collect]
    split at h
    · next hx => simpa only [hx] using ih h
    · next hx => exact absurd h hx

theorem exists_of_collect {d : Float} {v : Verdict} (hv : v ≠ .onward) {looks : List Look}
    (h : Run.collect d looks = v) : ∃ l ∈ looks, l.verdict d = v := by
  induction looks with
  | nil => exact absurd h.symm hv
  | cons x looks ih =>
    rw [Run.collect] at h
    split at h
    · obtain ⟨l, hl, hverdict⟩ := ih h
      exact ⟨l, .tail _ hl, hverdict⟩
    · exact ⟨x, .head _, h⟩

/-- A step that is no look leaves the looks alone. -/
theorem Watched.congr {d : Float} (hp : Watched d p) (hlooks : q.looks = p.looks)
    (hphase : q.phase.verdict = p.phase.verdict) : Watched d q := by
  refine ⟨fun l hl => ?_, ?_⟩
  · rw [hphase]
    exact hp.each l (hlooks ▸ hl)
  · rw [hlooks, hphase]
    exact hp.collect

/-- The look with which the collector goes on, or which ends the collecting. -/
theorem Watched.look {d : Float} {l : Look} (hp : Watched d p) (hl : p.CanLook l) {c : Phase}
    (hv : l.verdict d = c.verdict) {i : Index} :
    Watched d { p with looks := p.looks ++ [l], phase := c, index := i } := by
  have honward : p.phase.verdict = .onward := by rw [hl.collecting]; rfl
  refine ⟨fun x hx => ?_, ?_⟩
  · rcases List.mem_append.1 hx with hx | hx
    · exact .inl ((hp.each x hx).elim id fun h => h.trans honward)
    · rw [List.mem_singleton.1 hx]
      exact .inr hv
  · exact (collect_concat (hp.collect.trans honward) l).trans hv

theorem Step.watched {d : Float} (h : Step parser limit (some d) p q) (hp : Watched d p) : Watched d q := by
  cases h with
  | start | measure | record | deliver | cancel => exact hp.congr rfl rfl
  | finish hc | giveUp hc => exact hp.congr rfl (by rw [hc]; rfl)
  | look hd hl hv =>
    cases hd
    exact hp.look hl (by rw [hv, hl.collecting]; rfl)
  | expire hd hl hv =>
    cases hd
    exact hp.look hl (c := .late) hv
  | fail hd hl hv =>
    cases hd
    exact hp.look hl (c := .broken) hv

theorem Steps.watched {d : Float} {files : List Source} (h : Steps parser limit (some d) (submit files) p) :
    Watched d p := by
  induction h with
  | refl => exact ⟨by simp [submit], rfl⟩
  | tail _ hs ih => exact hs.watched ih

/-! ## After the deadline -/

/-- The deadline seals the index, and it stays sealed. -/
theorem Step.isSealed (h : Step parser limit deadline p q)
    (hp : p.phase.isLate = true → p.index.isSealed = true) (hq : q.phase.isLate = true) :
    q.index.isSealed = true := by
  cases h with
  | start | measure | deliver | look | cancel => exact hp hq
  | record =>
    have hs := hp hq
    rw [Measure.Prepared.record_sealed_index hs]
    exact hs
  | finish | fail => cases hq
  | expire => rfl
  | giveUp hc => exact hp (by rw [hc]; rfl)

theorem Steps.isSealed {files : List Source} (h : Steps parser limit deadline (submit files) p)
    (hp : p.phase.isLate = true) : p.index.isSealed = true := by
  induction h with
  | refl => cases hp
  | tail _ hs ih => exact hs.isSealed ih hp

/-- A file that finishes on a sealed index has no metrics, and if there were any, it is abandoned. -/
def Abandoned (parser : SourceParser) (x : Source × Except Fault Outcome) : Prop :=
  (∀ m, x.2 ≠ .ok (.measured m)) ∧
    ∀ m b, (Measure.prepare parser x.1).1 = .ready m b → x.2 = .ok (.unmeasured Measure.abandoned)

/-- A step on a sealed index leaves it as it is, and abandons the file that finishes in it. -/
theorem Step.of_sealed (h : Step parser limit deadline p q) (hs : p.index.isSealed = true)
    (hp : Held parser p) : q.index = p.index ∧ ∀ x ∈ q.finished, x ∈ p.finished ∨ Abandoned parser x := by
  cases h with
  | start | measure | finish | look | fail | giveUp | cancel => exact ⟨rfl, fun x hx => .inl hx⟩
  | @record s w before after hm =>
    refine ⟨Measure.Prepared.record_sealed_index hs w, fun x hx => ?_⟩
    rcases List.mem_cons.1 hx with rfl | hx
    · refine .inr ⟨Measure.Prepared.record_sealed_ne hs w, fun m b hready => ?_⟩
      have hw : w = .ready m b := (hp (s, w) (by simp [hm])).trans hready
      rw [hw]
      exact Measure.Prepared.record_sealed_ready hs m b
    · exact .inl hx
  | deliver hc hf => exact ⟨rfl, fun x hx => .inl (mem_of_removed hf hx)⟩
  | expire => exact ⟨Index.close_sealed hs, fun x hx => .inl hx⟩

/-- **After the deadline** the index does not change, and every file that finishes is abandoned. -/
theorem Steps.of_sealed (h : Steps parser limit deadline p q) (hs : p.index.isSealed = true)
    (hp : Held parser p) :
    q.index = p.index ∧ (∀ x ∈ q.finished, x ∈ p.finished ∨ Abandoned parser x) ∧ Held parser q := by
  induction h with
  | refl => exact ⟨rfl, fun x hx => .inl hx, hp⟩
  | tail _ hstep ih =>
    obtain ⟨hindex, hfinished, hheld⟩ := ih
    obtain ⟨hindex', hfinished'⟩ := hstep.of_sealed (by rw [hindex]; exact hs) hheld
    refine ⟨hindex'.trans hindex, fun x hx => ?_, hstep.held hheld⟩
    rcases hfinished' x hx with hx | hx
    · exact hfinished x hx
    · exact .inr hx

end Pool

end Maintainability
