/-
The result of a run: the metrics of every file that was measured, by path; the files that were
skipped, with the reasons; and the groups of duplicate methods. Its paths, names and reasons are free
of surrogates; the rows of comma-separated values can be written of any paths (`Csv.Row`).
-/
import Maintainability.Analysis.Mean
import Maintainability.Duplicate.Index
import Maintainability.Number.Total
import Maintainability.Number.Written

namespace Maintainability

/-- The metrics of a file. -/
structure FileMetrics where
  /-- The path. -/
  path : String
  /-- The number of lines. -/
  lines : Int
  /-- The cyclomatic complexity. -/
  complexity : Int
  /-- The lexical volume. -/
  volume : Quantity
  /-- The maintainability index. -/
  maintainability : Quantity
  /-- The other files that share a method with this one. -/
  duplicatedWith : List String := []
  /-- The number of methods. -/
  methodCount : Int := 0
  deriving Repr, Inhabited

/-- A file that was not measured. -/
structure Skipped where
  /-- The path. -/
  path : String
  /-- Why it was skipped. -/
  reason : String
  deriving DecidableEq, Repr, Inhabited

/-- The result of a run. -/
structure Result where
  /-- The measured files. -/
  files : List FileMetrics := []
  /-- Their number. -/
  totalFiles : Int := 0
  /-- The sum of their lines. -/
  totalLines : Int := 0
  /-- The mean of their complexities. -/
  averageComplexity : Quantity := .real 0.0
  /-- The mean of their maintainability indices. -/
  averageMaintainability : Quantity := .real 0.0
  /-- The files that were skipped. -/
  skipped : List Skipped := []
  /-- The groups of duplicate methods. -/
  groups : List Entry := []
  deriving Repr, Inhabited

/-! ## Summary -/

/-- Reduces the metrics of files to the result of a run. -/
def summarize (files : List FileMetrics) (skipped : List Skipped) (groups : List Entry) :
    Except Fault Result := do
  let ordered := files.mergeSort fun a b => decide (a.path ≤ b.path)
  let complexities ← ordered.mapM fun f => (Quantity.int f.complexity).toFloat?
  let scores ← ordered.mapM fun f => f.maintainability.toFloat?
  pure {
    files := ordered
    totalFiles := ordered.length
    totalLines := total (ordered.map (·.lines))
    averageComplexity := .real (Mean.of complexities)
    averageMaintainability := .real (Mean.of scores)
    skipped := skipped.mergeSort fun a b => decide (a.path ≤ b.path)
    groups := groups }

namespace Result

/-- The metrics of the file with a path. -/
def get? (r : Result) (path : String) : Option FileMetrics := r.files.find? (·.path == path)

/-- Ranks before: less maintainable, then more complex, then by path. -/
def before (a b : FileMetrics) : Bool :=
  if !a.maintainability.same b.maintainability then a.maintainability.less b.maintainability
  else if a.complexity ≠ b.complexity then decide (b.complexity < a.complexity)
  else decide (a.path < b.path)

/-- All files, the least maintainable first. -/
def ranked (r : Result) : List FileMetrics := r.files.mergeSort fun a b => !before b a

/-- The `n` least maintainable files; of a negative number, all but so many of the most
maintainable. -/
def worstFiles (r : Result) (n : Int) : List FileMetrics :=
  let all := r.ranked
  if 0 ≤ n then all.take n.toNat else all.take (all.length - n.natAbs)

end Result

/-! ## Written form -/

/-- A number in JSON; a double that is not finite by its name. -/
def Quantity.toJson : Quantity → Json
  | .int n => .int n
  | .real x =>
    .real (if x.isNaN then "NaN"
      else if Binary64.isFinite x then Decimal.plain x
      else if 0.0 < x then "Infinity"
      else "-Infinity")

/-- The metrics of a file in JSON. -/
def FileMetrics.toJson (f : FileMetrics) : Json :=
  .obj [
    ("path", .str f.path),
    ("lines", .int f.lines),
    ("cyclomaticComplexity", .int f.complexity),
    ("halsteadVolume", f.volume.toJson),
    ("maintainabilityIndex", f.maintainability.toJson),
    ("duplicatedWith", .arr (f.duplicatedWith.map .str))]

/-- A skipped file in JSON. -/
def Skipped.toJson (s : Skipped) : Json :=
  .obj [("path", .str s.path), ("reason", .str s.reason)]

/-- An occurrence in JSON. -/
def Occurrence.toJson (o : Occurrence) : Json :=
  .obj [("path", .str o.path), ("method", .str o.method), ("line", .int o.line)]

/-- A group of duplicate methods in JSON. -/
def Entry.toJson (e : Entry) : Json :=
  .obj [("hash", .str e.digest), ("occurrences", .arr (e.occurrences.map (·.toJson)))]

/-- The result of a run in JSON. -/
def Result.toJson (r : Result) : Json :=
  .obj [
    ("files", .arr (r.files.map (·.toJson))),
    ("totalFiles", .int r.totalFiles),
    ("totalLines", .int r.totalLines),
    ("averageCyclomatic", r.averageComplexity.toJson),
    ("averageMaintainability", r.averageMaintainability.toJson),
    ("skippedFiles", .arr (r.skipped.map (·.toJson))),
    ("duplicateGroups", .arr (r.groups.map (·.toJson)))]

end Maintainability
