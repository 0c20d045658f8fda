/-
Reports of a run in one of three formats: comma-separated values, JSON, or a layout for a terminal.
-/
import Maintainability.Report.Csv
import Maintainability.Report.Terminal

namespace Maintainability

/-- The formats of a report. -/
inductive Format where
  | csv
  | json
  | terminal
  deriving DecidableEq, Repr

namespace Format

/-- The name of a format. -/
def name : Format → String
  | .csv => "csv"
  | .json => "json"
  | .terminal => "rich"

/-- All formats, by name. -/
def all : List Format := [.csv, .json, .terminal]

/-- The format with a name. -/
def ofName? (s : String) : Option Format := all.find? (·.name == s)

/-- The format with a name, or the complaint that there is none. -/
def ofName (s : String) : Except Failure Format :=
  match ofName? s with
  | some f => .ok f
  | none =>
    .error (.badValue ("Unknown formatter: " ++ Quoted.string s ++ ". Choose from: " ++
      ", ".intercalate (all.map name)))

end Format

namespace Report

/-- The number of files that a report for a terminal shows. -/
def usualTop : Int := 50

/-- The width of a report for a terminal that is not printed on one. -/
def usualWidth : Nat := 120

/-- A value in JSON; fails when it holds an integer with too many digits. -/
def ofJson (j : Json) : Except Fault String :=
  if ∀ n ∈ j.integers, Literal.Short n then .ok j.render else .error .tooLong

/-- The report as a text, for a terminal that does not print it. -/
def text (c : Console) (f : Format) (top : Int) (r : Result) : Except Fault Text :=
  match f with
  | .csv => Csv.report (r.files.map .of)
  | .json => do
    let s ← ofJson r.toJson
    pure (.ofString s)
  | .terminal =>
    let p := Terminal.report c usualWidth top r
    match p.fault? with
    | none => .ok (.ofChars p.text)
    | some e => .error e

/-- What is printed of the report on a terminal of so many cells, and the fault that ended it, if
one did. -/
def print (c : Console) (f : Format) (width : Nat) (top : Int) (r : Result) : Text × Option Fault :=
  match f with
  | .terminal =>
    let p := Terminal.report c width top r
    (.ofChars p.text, p.fault?)
  | f =>
    match text c f top r with
    | .ok t => (if f = .json then t ++ [.lf] else t, none)
    | .error e => ([], some e)

end Report

end Maintainability
