/-
One file. Its methods are measured one by one and their metrics added up; their digests go into the
index of duplicates in one batch, after the last of them. So a file that fails anywhere leaves no
trace in the index.
-/
import Maintainability.Analysis.Result
import Maintainability.Analysis.Source
import Maintainability.Metric.Complexity
import Maintainability.Metric.Score
import Maintainability.Metric.Volume
import Maintainability.Syntax.Parser
import Maintainability.Text.Lines

namespace Maintainability

/-- What a parser makes of a source. -/
inductive Parsing where
  /-- The methods of the source, and what the parser notes about it. -/
  | methods (found : List Method) (notes : List Log.Record)
  /-- The source is refused. -/
  | rejected (reason : String)
  /-- The parser itself fails. -/
  | crashed (reason : String)
  deriving Repr, Inhabited

/-- A parser: all that it says depends on the source alone. -/
abbrev SourceParser := Source → Parsing

/-- The parser of a language. -/
def Language.sourceParser (l : Language) (grammar : Recognizer) : SourceParser := fun s =>
  match l.parse grammar s.text with
  | .ok ms =>
    .methods ms [⟨.debug, "Parsed " ++ s.path ++ ": " ++ toString ms.length ++ " methods"⟩]
  | .error reason => .rejected reason

/-- What became of a file. -/
inductive Outcome where
  /-- The file was measured. -/
  | measured (metrics : FileMetrics)
  /-- The file was not measured. -/
  | unmeasured (reason : String)
  deriving Repr, Inhabited

namespace Measure

/-- A method without a tree. -/
def noTree : Fault := ⟨.attribute, "'NoneType' object has no attribute 'walk'"⟩

/-- The sums over the methods measured so far. -/
structure Tally where
  /-- The complexity. -/
  complexity : Int := 0
  /-- The volume. -/
  volume : Float := 0.0
  /-- The digests of the methods that have one, in order. -/
  batch : List (String × Occurrence) := []

/-- The place of a method. -/
def occurrence (path : String) (m : Method) : Occurrence := ⟨path, m.name, m.startLine⟩

/-- The record of a method's own metrics; fails on a number with too many digits. -/
def noteOf (path : String) (m : Method) (complexity : Int) (volume : Float) :
    Except Fault Log.Record := do
  let first ← Written.int m.startLine
  let last ← Written.int m.endLine
  let cc ← Written.int complexity
  pure ⟨.debug, path ++ ":" ++ first ++ "-" ++ last ++ " " ++ m.name ++ ": cc=" ++ cc ++
    " volume=" ++ Decimal.fixed 1 volume⟩

/-- Adds one method to the sums. -/
def addMethod (path : String) (t : Tally) (m : Method) : Except Fault (Tally × List Log.Record) :=
  match m.tree with
  | none => .error noTree
  | some tree =>
    let cc := tree.complexity
    let v := m.source.volume
    match noteOf path m cc v with
    | .error f => .error f
    | .ok note =>
      match bodyDigest m.source with
      | .ok digest =>
        .ok (⟨t.complexity + cc, t.volume + v, t.batch ++ [(digest, occurrence path m)]⟩, [note])
      | .error e =>
        .ok (⟨t.complexity + cc, t.volume + v, t.batch⟩, [note, (occurrence path m).unhashed e])

/-- Adds methods to the sums, up to the first that fails. -/
def addMethods (path : String) (t : Tally) : List Method → Except Fault Tally × List Log.Record
  | [] => (.ok t, [])
  | m :: ms =>
    match addMethod path t m with
    | .error f => (.error f, [])
    | .ok (t, notes) =>
      let (end_, more) := addMethods path t ms
      (end_, notes ++ more)

/-- The metrics of a source with so many methods and such sums. -/
def metrics (s : Source) (count : Nat) (t : Tally) : Except Fault FileMetrics :=
  let lines : Int := s.text.countLines
  let complexity := max 1 t.complexity
  match maintainability? (.real t.volume) complexity lines with
  | none => .error .tooLarge
  | some score => .ok {
      path := s.path
      lines := lines
      complexity := complexity
      volume := .real t.volume
      maintainability := .real score
      methodCount := count }

/-- The metrics of a source with the given methods and the batch for the index. -/
def methods (s : Source) (ms : List Method) :
    Except Fault (FileMetrics × List (String × Occurrence)) × List Log.Record :=
  match addMethods s.path {} ms with
  | (.error f, notes) => (.error f, notes)
  | (.ok t, notes) =>
    match metrics s ms.length t with
    | .error f => (.error f, notes)
    | .ok m => (.ok (m, t.batch), notes)

/-- The record of a source that is passed over. -/
def skipping (path reason : String) : Log.Record :=
  ⟨.warning, "Skipping " ++ path ++ ": " ++ reason⟩

/-- The reason for which a file counts as skipped once the index is sealed. -/
def abandoned : String := "abandoned after deadline"

/-- What the work on a file has come to when only the index is left to be asked. -/
inductive Prepared where
  /-- The parser refused the source or failed. -/
  | refused (reason : String)
  /-- Measuring failed. -/
  | failed (fault : Fault)
  /-- Every method is measured; the digests are not recorded yet. -/
  | ready (metrics : FileMetrics) (batch : List (String × Occurrence))
  deriving Repr, Inhabited

/-- Parses one file and measures its methods, without the index. -/
def prepare (parser : SourceParser) (s : Source) : Prepared × List Log.Record :=
  match parser s with
  | .rejected reason => (.refused reason, [skipping s.path reason])
  | .crashed reason =>
    let reason := "parser failed: " ++ reason
    (.refused reason, [skipping s.path reason])
  | .methods ms said =>
    match methods s ms with
    | (.error f, notes) => (.failed f, said ++ notes)
    | (.ok (m, batch), notes) => (.ready m batch, said ++ notes)

/-- Records the digests of a file in one batch, which settles what became of it. -/
def Prepared.record (index : Index) : Prepared → Except Fault Outcome × Index
  | .refused reason => (.ok (.unmeasured reason), index)
  | .failed f => (.error f, index)
  | .ready m batch =>
    match index.recordDigests batch with
    | (true, index) => (.ok (.measured m), index)
    | (false, index) => (.ok (.unmeasured abandoned), index)

/-- Works on one file: parses it, measures its methods and records their digests. -/
def file (parser : SourceParser) (s : Source) (index : Index) :
    Except Fault Outcome × Index × List Log.Record :=
  let (prepared, notes) := prepare parser s
  let (ended, index) := prepared.record index
  (ended, index, notes)

end Measure

end Maintainability
