/-
A run over the sources of a project. Every file is worked on, one after the other or in parallel;
then the index of duplicates is sealed, its links are attached to the files, and the result is
summed up. A run may have a deadline: one after the other, the clock is read before each file; in
parallel, it is read by the collector of the outcomes whenever it misses one, and the run is given
up if the deadline has passed, or if what is left until then is more than a wait can last. A file
that fails is skipped and ends nothing.
-/
import Maintainability.Analysis.Measure
import Maintainability.Config

namespace Maintainability

/-- How a run is to be done. -/
structure Options where
  /-- The number of workers; none of it means as many as there are processors. -/
  workers : Value := .null
  /-- From so many files on, they are worked on in parallel. -/
  threshold : Value := .int 10
  /-- The seconds until the deadline, if there is one. -/
  timeout : Value := .null
  deriving Repr, Inhabited

/-- A look at the clock by the collector of a parallel run, which still misses outcomes. -/
structure Look where
  /-- The reading. -/
  now : Float
  /-- No outcome is ready, so the collector would have to wait. -/
  waits : Bool
  deriving Repr, Inhabited

/-- What a look at the clock comes to. -/
inductive Verdict where
  /-- The collector goes on. -/
  | onward
  /-- The deadline has passed. -/
  | late
  /-- A wait cannot last until the deadline. -/
  | overlong
  deriving DecidableEq, Repr

/-- The verdict on a look. The nanoseconds of a wait must be less than 2 ^ 63. -/
def Look.verdict (deadline : Float) (l : Look) : Verdict :=
  let left := deadline - l.now
  if left < 0.0 then .late
  else if l.waits && decide (9223372036854775808.0 ≤ left * 1000000000.0) then .overlong
  else .onward

/-- The readings of the clock in a run. -/
structure Timeline where
  /-- At the start. -/
  start : Float := 0.0
  /-- When the deadline is set. -/
  base : Float := 0.0
  /-- Before each file, if there is a deadline. -/
  before : List Float := []
  /-- At the end. -/
  finish : Float := 0.0
  /-- In a parallel run, if there is a deadline: the looks of the collector. -/
  looks : List Look := []
  /-- The number of files that are not finished when a parallel run is given up as late. -/
  pending : Nat := 0
  deriving Repr, Inhabited

/-- A value that equals a number. -/
def Value.isNumber (v : Value) (n : Int) : Bool :=
  match v.number? with
  | some q => q.same (.int n)
  | none => false

namespace Options

/-- Few files, or one worker only: then they are worked on one after the other. -/
def isSequential (o : Options) (files : Nat) : Except Fault Bool :=
  match o.threshold.number? with
  | some q => .ok (Quantity.less (.int files) q || o.workers.isNumber 1)
  | none => .error (Config.unordered "<" "int" o.threshold.kindName)

/-- Whether the pool of a parallel run starts workers. Their number must be positive, if there is
one; NaN passes for a number, but no worker is started for it. -/
def startsWorkers (o : Options) : Except Fault Bool :=
  if o.workers.isFalsy then .ok true
  else
    match o.workers.number? with
    | none => .error (Config.unordered "<=" o.workers.kindName "int")
    | some q =>
      if q.isNonPositive then .error ⟨.value, "max_workers must be greater than 0"⟩
      else .ok (Quantity.less (.int 0) q)

/-- The pool of a parallel run must have workers. -/
def checkWorkers (o : Options) : Except Fault Unit := do
  if ← o.startsWorkers then pure () else .error .endless

/-- The deadline after a reading of the clock. -/
def deadline? (o : Options) (base : Float) : Except Fault (Option Float) :=
  match o.timeout with
  | .null => .ok none
  | v =>
    match v.number? with
    | none =>
      .error ⟨.type, "unsupported operand type(s) for +: 'float' and '" ++ v.kindName ++ "'"⟩
    | some q => do
      let seconds ← q.toFloat?
      pure (some (base + seconds))

end Options

namespace Timeline

/-- The readings before files that take so many seconds each, and the time when all are done. -/
def walk (step now : Float) : List Float → List Float × Float
  | [] => ([], now)
  | seconds :: rest =>
    let (readings, done) := walk step (now + step + seconds) rest
    (now :: readings, done)

/-- The timeline of a clock that starts at 0 and moves on by `step` with every reading, over files
that take so many seconds each. -/
def stepping (step : Float) (timed : Bool) (seconds : List Float) : Timeline :=
  if timed then
    let (before, finish) := walk step (0.0 + step + step) seconds
    ⟨0.0, 0.0 + step, before, finish, [], 0⟩
  else ⟨0.0, 0.0, [], seconds.foldl (· + ·) (0.0 + step), [], 0⟩

/-- The looks of a collector that finds no file finished at first. If some files never end, it looks
again after the deadline. -/
def looksFor (stuck : Nat) (deadline : Float) : List Look :=
  ⟨0.0, true⟩ :: if stuck = 0 then [] else [⟨deadline + 1.0, true⟩]

/-- The timeline of a run over sources that take so many seconds each, some of which never end. -/
def ofSources (o : Options) (step : Float) (seconds : Source → Float) (isStuck : Source → Bool)
    (sources : List Source) : Timeline :=
  let (files, _) := Source.unique sources
  match o.isSequential files.length with
  | .ok false =>
    let stuck := files.countP isStuck
    let looks := match files, o.deadline? 0.0 with
      | _ :: _, .ok (some deadline) => looksFor stuck deadline
      | _, _ => []
    { stepping step false (files.map seconds) with looks := looks, pending := stuck }
  | _ => stepping step o.timeout.number?.isSome (files.map seconds)

end Timeline

namespace Run

/-- The record of a file whose measuring failed. -/
def failed (path : String) : Log.Record := ⟨.error, "Error analyzing " ++ path⟩

/-- What became of a file whose work ended so or failed. -/
def settle (path : String) : Except Fault Outcome → Outcome × List Log.Record
  | .ok o => (o, [])
  | .error f => (.unmeasured f.message, [failed path])

/-- What became of each file of a run. -/
abbrev Outcomes := List (String × Outcome)

/-- Works on the files in order. -/
def inOrder (parser : SourceParser) (index : Index) :
    List Source → Outcomes × Index × List Log.Record
  | [] => ([], index, [])
  | s :: rest =>
    let (ended, index, notes) := Measure.file parser s index
    let (outcome, alarm) := settle s.path ended
    let (outcomes, index, more) := inOrder parser index rest
    ((s.path, outcome) :: outcomes, index, notes ++ alarm ++ more)

/-- The files that are worked on before the first late reading of the clock, and the number of
those that are left. A missing reading is not late. -/
def untilLate (deadline : Float) : List Float → List Source → List Source × Nat
  | _, [] => ([], 0)
  | [], s :: rest => (s :: rest, 0)
  | t :: ts, s :: rest =>
    if deadline < t then ([], rest.length + 1)
    else
      let (done, left) := untilLate deadline ts rest
      (s :: done, left)

/-- Works on the files one after the other until the deadline, if there is one. The index is sealed
when it passes. -/
def sequential (o : Options) (parser : SourceParser) (t : Timeline) (files : List Source)
    (index : Index) : Except Failure Outcomes × Index × List Log.Record :=
  match o.deadline? t.base with
  | .error f => (.error (.fault f), index, [])
  | .ok none =>
    let (outcomes, index, notes) := inOrder parser index files
    (.ok outcomes, index, notes)
  | .ok (some deadline) =>
    let (done, left) := untilLate deadline t.before files
    let (outcomes, index, notes) := inOrder parser index done
    if left = 0 then (.ok outcomes, index, notes)
    else (.error (.error (.timeout o.timeout left)), index.close, notes)

/-- What ends the collecting: the first look that is not passed over, or the last outcome. -/
def collect (deadline : Float) : List Look → Verdict
  | [] => .onward
  | l :: rest =>
    match l.verdict deadline with
    | .onward => collect deadline rest
    | v => v

/-- A wait that cannot be timed. -/
def overlong : Fault := ⟨.overflow, "timestamp out of range for platform time_t"⟩

/-- Works on the files in parallel. The order in which they finish does not show in the result, so
they are taken in the order given. When a wait cannot be timed, the files are worked on to the last
before the run fails. Without workers, nothing but the deadline ends the run. -/
def parallel (o : Options) (parser : SourceParser) (t : Timeline) (files : List Source)
    (index : Index) : Except Failure Outcomes × Index × List Log.Record :=
  match o.startsWorkers, o.deadline? t.base with
  | .error f, _ | .ok _, .error f => (.error (.fault f), index, [])
  | .ok working, .ok deadline =>
    let begun := if working then files else []
    let (outcomes, worked, notes) := inOrder parser index begun
    match deadline.elim .onward fun d => collect d t.looks with
    | .late =>
      let pending := if working then t.pending else files.length
      (.error (.error (.timeout o.timeout pending)), index.close, [])
    | .overlong =>
      -- nobody asks how the files ended, so no failure of a file is recorded
      (.error (.fault overlong), worked, begun.flatMap fun s => (Measure.prepare parser s).2)
    | .onward =>
      if working || files.isEmpty then (.ok outcomes, worked, notes)
      else (.error (.fault .endless), index, [])

/-- The measured files, each with its links. -/
def linked (links : Links) (outcomes : Outcomes) : List FileMetrics :=
  outcomes.filterMap fun (path, outcome) => match outcome with
    | .measured m =>
      some { m with duplicatedWith := (links.get path).mergeSort fun a b => decide (a ≤ b) }
    | .unmeasured _ => none

/-- The files that were not measured. -/
def skipped (outcomes : Outcomes) : List Skipped :=
  outcomes.filterMap fun (path, outcome) => match outcome with
    | .measured _ => none
    | .unmeasured reason =>
      some ⟨path, if reason.isEmpty then "unknown error" else reason⟩

/-- The record of a finished run. -/
def finished (r : Result) (t : Timeline) : Log.Record :=
  ⟨.info, "Analyzed " ++ toString r.totalFiles ++ " files (" ++ toString r.skipped.length ++
    " skipped, " ++ toString r.groups.length ++ " duplicate groups) in " ++
    Decimal.fixed 2 (t.finish - t.start) ++ "s"⟩

/-- The result of a run whose files ended so. -/
def conclude (outcomes : Outcomes) (index : Index) : Except Fault Result :=
  let (links, index) := index.resolve
  summarize (linked links outcomes) (skipped outcomes) index.duplicateGroups

/-- Works on all files, in parallel or not. -/
def work (o : Options) (parser : SourceParser) (t : Timeline) (files : List Source) :
    Except Failure Outcomes × Index × List Log.Record :=
  match o.isSequential files.length with
  | .error f => (.error (.fault f), {}, [])
  | .ok true => sequential o parser t files {}
  | .ok false => parallel o parser t files {}

end Run

/-- Analyzes sources: the result of the run and its records. -/
def analyze (o : Options) (parser : SourceParser) (t : Timeline) (sources : List Source) :
    Except Failure Result × List Log.Record :=
  let (files, ignored) := Source.unique sources
  match Run.work o parser t files with
  | (.error e, _, notes) => (.error e, ignored ++ notes)
  | (.ok outcomes, index, notes) =>
    match Run.conclude outcomes index with
    | .error f => (.error (.fault f), ignored ++ notes)
    | .ok r => (.ok r, ignored ++ notes ++ [Run.finished r t])

end Maintainability
