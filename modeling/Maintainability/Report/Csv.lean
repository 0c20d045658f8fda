/-
The report as comma-separated values: a header and one record for each file. A field is put in
quotes when it holds a comma, a quote or a line break, and a quote inside it is written twice; so
any path can be told apart again, one with lone surrogates as well. A report whose numbers cannot be
written is not made.
-/
import Maintainability.Analysis.Result

namespace Maintainability.Csv

/-! ## Records -/

/-- The quote, on either side of a field and twice inside it. -/
abbrev quote : CodePoint := .ofChar '"'

/-- The comma between fields. -/
abbrev comma : CodePoint := .ofChar ','

/-- The semicolon between paths in a field. -/
abbrev semicolon : CodePoint := .ofChar ';'

/-- A code point that a field can only hold in quotes. -/
def isSpecial (c : CodePoint) : Bool := c == comma || c == quote || c == .cr || c == .lf

/-- A field with its quotes written twice. -/
def double : Text → Text
  | [] => []
  | c :: cs => if c = quote then quote :: quote :: double cs else c :: double cs

/-- A field as it is written. -/
def field (t : Text) : Text := if t.any isSpecial then quote :: double t ++ [quote] else t

/-- The end of a record. -/
def lineEnd : Text := [.cr, .lf]

/-- A record of several fields. -/
def record (fields : List Text) : Text := List.intercalate [comma] (fields.map field) ++ lineEnd

/-! ## The report -/

/-- What the report tells of a file. -/
structure Row where
  /-- The path. -/
  path : Text
  /-- The number of lines. -/
  lines : Int
  /-- The cyclomatic complexity. -/
  complexity : Int
  /-- The lexical volume. -/
  volume : Quantity
  /-- The maintainability index. -/
  maintainability : Quantity
  /-- The other files that share a method with this one. -/
  duplicatedWith : List Text
  deriving Repr

/-- The row of a file. -/
def Row.of (f : FileMetrics) : Row :=
  ⟨.ofString f.path, f.lines, f.complexity, f.volume, f.maintainability,
    f.duplicatedWith.map Text.ofString⟩

/-- The names of the fields. -/
def header : List Text :=
  ["path", "lines", "cyclomatic_complexity", "halstead_volume", "maintainability_index",
    "duplicated_with"].map Text.ofString

/-- The fields of a row. The numbers with places are written first, then the integers. -/
def Row.fields (r : Row) : Except Fault (List Text) := do
  let volume ← r.volume.fixed 2
  let maintainability ← r.maintainability.fixed 2
  let lines ← Written.int r.lines
  let complexity ← Written.int r.complexity
  pure [r.path, .ofString lines, .ofString complexity, .ofString volume, .ofString maintainability,
    List.intercalate [semicolon] r.duplicatedWith]

/-- The report of some rows. -/
def report (rows : List Row) : Except Fault Text := do
  let records ← rows.mapM Row.fields
  pure ((header :: records).flatMap record)

end Maintainability.Csv
