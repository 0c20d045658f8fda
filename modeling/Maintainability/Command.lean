/-
The commands of the program and how they are read from the words of the command line. A command is
read only if every word makes sense: options are known, numbers lie in their ranges, and the paths
that must exist do.
-/
import Maintainability.Command.Words
import Maintainability.Config.Load
import Maintainability.Report

namespace Maintainability

/-- What to analyze and how. -/
structure AnalyzeOptions where
  /-- The target. -/
  target : Path
  /-- The format of the report. -/
  format : Format := .terminal
  /-- The file for the report. -/
  output : Option Path := none
  /-- The language. -/
  language : Option String := none
  /-- The least maintainability that is good enough. -/
  failUnder : Option Float := none
  /-- The configuration file. -/
  config : Option Path := none
  /-- The number of workers. -/
  workers : Option Int := none
  /-- Log everything. -/
  isVerbose : Bool := false
  /-- Log errors only. -/
  isQuiet : Bool := false

/-- How to serve. -/
structure ServeOptions where
  /-- The interface. -/
  host : Option String := none
  /-- The port. -/
  port : Option Int := none
  /-- The language. -/
  language : Option String := none
  /-- The configuration file. -/
  config : Option Path := none
  /-- Log everything. -/
  isVerbose : Bool := false

/-- A command. -/
inductive Command where
  /-- Tell the version. -/
  | version
  /-- Report on a target. -/
  | analyze (o : AnalyzeOptions)
  /-- Run the web service. -/
  | serve (o : ServeOptions)

namespace Command

/-! ## Values -/

/-- An optional value: missing, or read by a function that may refuse it. -/
def optional {α : Type} (read : String → Option α) : Option String → Option (Option α)
  | none => some none
  | some s => (read s).map some

/-- An integer in a range. -/
def intIn? (low high : Int) (s : String) : Option Int := do
  let n ← Literal.int? s.toList
  if low ≤ n ∧ n ≤ high then pure n else none

/-- A score between 0 and 100. What is no number at all is neither below nor above. -/
def score? (s : String) : Option Float := do
  let x ← Literal.real? s.toList
  if x < 0.0 || 100.0 < x then none else pure x

/-- A path that leads somewhere. -/
def existing? (w : Workspace) (s : String) : Option Path :=
  let p := Path.ofString s
  if !s.isEmpty ∧ w.has p then some p else none

/-- A path that leads to a file. -/
def existingFile? (w : Workspace) (s : String) : Option Path := do
  let p ← existing? w s
  if w.hasDirectory p then none else pure p

/-- A path for a file, which need not be there. -/
def filePath? (w : Workspace) (s : String) : Option Path :=
  let p := Path.ofString s
  if !s.isEmpty ∧ w.hasDirectory p then none else some p

/-- A format, in capital letters or not. -/
def format? (s : String) : Option Format := Format.ofName? (String.ofList (Characters.lower s.toList))

/-! ## Commands -/

/-- The options of the program itself. -/
def switches : List Switch := [⟨"version", none, false⟩]

/-- The options of an analysis. -/
def analyzeSwitches : List Switch :=
  [⟨"format", some 'f', true⟩, ⟨"output", some 'o', true⟩, ⟨"language", some 'l', true⟩,
    ⟨"fail-under", none, true⟩, ⟨"config", some 'c', true⟩, ⟨"workers", some 'w', true⟩,
    ⟨"verbose", some 'v', false⟩, ⟨"quiet", some 'q', false⟩]

/-- The options of the service. -/
def serveSwitches : List Switch :=
  [⟨"host", none, true⟩, ⟨"port", some 'p', true⟩, ⟨"language", some 'l', true⟩,
    ⟨"config", some 'c', true⟩, ⟨"verbose", some 'v', false⟩]

/-- The target that is meant when none is named. -/
def usualTarget : String := "."

/-- Reads what to analyze. -/
def analyze? (w : Workspace) (words : List String) : Option AnalyzeOptions := do
  let s ← read? analyzeSwitches true words
  let target ← match s.others with
    | [] => existing? w usualTarget
    | [t] => existing? w t
    | _ => none
  let format ← optional format? (s.get? "format")
  let output ← optional (filePath? w) (s.get? "output")
  let failUnder ← optional score? (s.get? "fail-under")
  let config ← optional (existingFile? w) (s.get? "config")
  let workers ← optional (intIn? 1 32) (s.get? "workers")
  pure {
    target, output, failUnder, config, workers
    format := format.getD .terminal
    language := s.get? "language"
    isVerbose := s.has "verbose"
    isQuiet := s.has "quiet" }

/-- Reads how to serve. -/
def serve? (w : Workspace) (words : List String) : Option ServeOptions := do
  let s ← read? serveSwitches true words
  if !s.others.isEmpty then none
  else
    let port ← optional (intIn? 1 65535) (s.get? "port")
    let config ← optional (existingFile? w) (s.get? "config")
    pure {
      port, config
      host := s.get? "host"
      language := s.get? "language"
      isVerbose := s.has "verbose" }

/-- Reads a command. -/
def parse? (w : Workspace) (words : List String) : Option Command := do
  let s ← read? switches false words
  if s.has "version" then pure .version
  else
    match s.others with
    | "analyze" :: rest => (analyze? w rest).map .analyze
    | "serve" :: rest => (serve? w rest).map .serve
    | _ => none

end Command

/-! ## What the caller says -/

/-- A text as a value, nothing if it is missing. -/
def Value.ofString? : Option String → Value
  | some s => .str s
  | none => .null

/-- An integer as a value, nothing if it is missing. -/
def Value.ofInt? : Option Int → Value
  | some n => .int n
  | none => .null

/-- Named values from names that are strings. -/
def Config.Table.ofList (kvs : List (String × Value)) : Config.Table :=
  kvs.map fun (k, v) => (.ofString k, v)

/-- A switch as a value, nothing if it is off. -/
def Value.ofSwitch (isOn : Bool) : Value := if isOn then .bool true else .null

/-- What the options of an analysis say about the configuration. -/
def AnalyzeOptions.overrides (o : AnalyzeOptions) : Config.Table :=
  .ofList [("language", .ofString? o.language), ("workers", .ofInt? o.workers),
    ("verbose", .ofSwitch o.isVerbose), ("quiet", .ofSwitch o.isQuiet)]

/-- What the options of the service say about the configuration. -/
def ServeOptions.overrides (o : ServeOptions) : Config.Table :=
  .ofList [("server_host", .ofString? o.host), ("server_port", .ofInt? o.port),
    ("language", .ofString? o.language), ("verbose", .ofSwitch o.isVerbose)]

end Maintainability
