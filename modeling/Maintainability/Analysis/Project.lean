/-
The whole way from a target to a result: the configuration is at hand, the sources of the target
are taken in, and the run over them is made with the parser of the configured language.
-/
import Maintainability.Analysis.Run
import Maintainability.Config.Load
import Maintainability.Intake

namespace Maintainability

/-- A clock that moves on by so many seconds with every reading. -/
structure Clock where
  /-- The seconds between two readings. -/
  step : Float := 0.0
  deriving Repr, Inhabited

/-- The readings of a clock in a run over sources. -/
def Clock.timeline (k : Clock) (o : Options) (sources : List Source) : Timeline :=
  .ofSources o k.step (fun _ => 0.0) (fun _ => false) sources

/-- How a configuration wants a run to be done. -/
def Config.options (c : Config) : Options where
  workers := c.get .workers
  threshold := c.get .parallelThreshold
  timeout := c.get .timeoutSeconds

/-- The parser of the configured language. -/
def Config.parser (c : Config) : Except Failure SourceParser := do
  let l ← Intake.languageOf c
  pure (l.sourceParser (Language.recognizer l.name))

namespace Project

/-- The run over sources that a configuration asks for. -/
def run (c : Config) (k : Clock) (sources : List Source) :
    Except Failure Result × List Log.Record :=
  match c.parser with
  | .error e => (.error e, [])
  | .ok parser => analyze c.options parser (k.timeline c.options sources) sources

/-- The record of a start. -/
def starting (c : Config) (target : Path) : Log.Record :=
  ⟨.info, "Starting " ++ (c.get .language).plainText ++ " analysis of " ++ target.text⟩

/-- That a target has no sources. -/
def noSources (c : Config) (target : Path) : String :=
  "No " ++ (c.get .language).plainText ++ " sources found in " ++ target.text

/-- Analyzes a target. -/
def analyzeTarget (c : Config) (w : Workspace) (k : Clock) (target : Path) :
    Except Failure Result × List Log.Record :=
  let (taken, notes) := Intake.collect c w target
  let notes := starting c target :: notes
  match taken with
  | .error e => (.error e, notes)
  | .ok sources =>
    let empty : List Log.Record :=
      if sources.isEmpty then [⟨.warning, noSources c target⟩] else []
    let (ended, more) := run c k sources
    (ended, notes ++ empty ++ more)

end Project

end Maintainability
