/-
One run of the program: a command is carried out, and what it prints, writes and logs is collected
together with its exit status. Messages go through the markup of the terminal, so a message can
itself fail; then the program ends without it.
-/
import Maintainability.Analysis.Project
import Maintainability.Command
import Maintainability.Log.Journal
import Maintainability.Service

namespace Maintainability

/-- What a run of the program meets. -/
structure Surroundings where
  /-- The files and the environment. -/
  workspace : Workspace
  /-- The clock. -/
  clock : Clock := {}
  /-- The width of the screen. -/
  width : Nat := 100
  /-- The user interrupts while sources are taken in. -/
  isInterrupted : Bool := false

/-- A call of the web server. -/
structure Serving where
  /-- The interface. -/
  host : Value
  /-- The port. -/
  port : Value
  /-- The level of its own log. -/
  level : String

/-- What a run of the program has done. -/
structure Session where
  /-- The exit status. -/
  exit : Nat := 0
  /-- The messages for the user. -/
  messages : String := ""
  /-- The output. -/
  output : String := ""
  /-- The file that was written. -/
  written : Option (Path × String) := none
  /-- The call of the web server. -/
  served : Option Serving := none
  /-- The records. -/
  records : List Log.Record := []
  /-- The least level of records that count. -/
  level : Log.Level := .warning

namespace Session

/-- The width of the screen for messages. -/
def messageWidth : Nat := 1000

/-- Adds records. -/
def log (s : Session) (records : List Log.Record) : Session :=
  { s with records := s.records ++ records }

/-- Prints a message, or fails to. -/
def say (s : Session) (markup : String) : Session × Option Fault :=
  let p := Terminal.say .standard messageWidth markup ()
  ({ s with messages := s.messages ++ String.ofList p.text }, p.fault?)

/-- Ends with a status. -/
def quit (s : Session) (status : Nat) : Session := { s with exit := status }

/-- Ends with a message and a status. -/
def quitSaying (s : Session) (markup : String) (status : Nat) : Session :=
  match s.say markup with
  | (s, none) => s.quit status
  | (s, some _) => s.quit 1

/-- Ends with one of the analyzer's own errors. -/
def refuse (s : Session) (e : Error) : Session :=
  (s.log [⟨.error, e.name ++ ": " ++ e.message⟩]).quitSaying ("[red]Error:[/red] " ++ e.message) 1

/-- Ends with a failure of any kind. -/
def fail (s : Session) : Failure → Session
  | .error e => s.refuse e
  | .fault f =>
    (s.log [⟨.error, "Unexpected error during analysis"⟩]).quitSaying
      ("[red]Unexpected error:[/red] " ++ f.message) 1

/-- Prints a message and goes on, or ends with the failure to print it. -/
def saying (s : Session) (markup : String) (next : Session → Session) : Session :=
  match s.say markup with
  | (s, none) => next s
  | (s, some f) => s.fail (.fault f)

/-- Ends because the user wants it. -/
def interrupt (s : Session) : Session :=
  (s.log [⟨.info, "Analysis interrupted by user"⟩]).quitSaying
    "\n[yellow]Analysis interrupted[/yellow]" 130

/-! ## Analysis -/

/-- The level of the log that a configuration asks for. -/
def levelOf (c : Config) : Log.Level := Log.levelOf (c.get .verbosity).plainText

/-- A text as it leaves the program. -/
def encoded (t : Text) : Except Fault String := t.encoded.mapError fun e => ⟨.encoding, e.message⟩

/-- Writes the report to a file. -/
def write (s : Session) (w : Workspace) (f : Format) (p : Path) (r : Result)
    (next : Session → Session) : Session :=
  match Report.text .standard f Report.usualTop r >>= encoded with
  | .error e => s.fail (.fault e)
  | .ok text =>
    match w.writeRefusal? p with
    | some why => s.fail (.fault ⟨.system, why.message p.text⟩)
    | none =>
      { s with written := some (p, text) }.saying
        ("[green]Report written to[/green] " ++ p.text) next

/-- Prints the report. -/
def print (s : Session) (width : Nat) (f : Format) (r : Result) (next : Session → Session) :
    Session :=
  let (text, fault?) := Report.print .standard f width Report.usualTop r
  match encoded text with
  | .error e => s.fail (.fault e)
  | .ok text =>
    let s := { s with output := s.output ++ text }
    match fault? with
    | none => next s
    | some e => s.fail (.fault e)

/-- Ends well, or with a status that says that the score is too low. -/
def judge (s : Session) (failUnder : Option Float) (r : Result) : Session :=
  match failUnder with
  | none => s
  | some least =>
    if r.totalFiles ≠ 0 ∧ r.averageMaintainability.less (.real least) then
      match r.averageMaintainability.fixed 2 with
      | .error e => s.fail (.fault e)
      | .ok score =>
        s.saying ("[red]--fail-under " ++ Decimal.plain least ++
          ":[/red] average maintainability " ++ score) (·.quit 1)
    else s

/-- Makes the run over sources and reports on it. -/
def report (s : Session) (e : Surroundings) (o : AnalyzeOptions) (c : Config)
    (sources : List Source) : Session :=
  let (ended, notes) := Project.run c e.clock sources
  let s := s.log notes
  match ended with
  | .error why => s.fail why
  | .ok r =>
    let last (s : Session) : Session := s.judge o.failUnder r
    match o.output with
    | none => s.print e.width o.format r last
    | some p => s.write e.workspace o.format p r last

/-- Analyzes a target. -/
def analyze (e : Surroundings) (o : AnalyzeOptions) : Session :=
  match Config.load e.workspace o.config o.overrides with
  | .error why =>
    fail { level := Log.levelOf (Log.verbosityOf o.isVerbose o.isQuiet) } why
  | .ok c =>
    let s : Session := { level := levelOf c }
    if e.isInterrupted then s.interrupt
    else
      let (taken, notes) := Intake.collect c e.workspace o.target
      let s := s.log notes
      match taken with
      | .error why => s.fail why
      | .ok [] =>
        s.saying ("[yellow]" ++ Project.noSources c o.target ++ "[/yellow]")
          (·.report e o c [])
      | .ok sources => s.report e o c sources

/-! ## Service and version -/

/-- The name of the program. -/
def programName : String := "[bold cyan]Code Complexity Analyzer[/bold cyan]"

/-- Runs the web service of a configuration. -/
def serveWith (s : Session) (c : Config) : Session :=
  let host := c.get .serverHost
  let port := c.get .serverPort
  match s.say (programName ++ " listening on http://" ++ host.plainText ++ ":" ++
      port.plainText ++ "/api/v1") with
  | (s, some _) => s.quit 1
  | (s, none) =>
    let isVerbose := (c.get .verbosity).plainText == "verbose"
    { s with served := some ⟨host, port, if isVerbose then "debug" else "warning"⟩ }

/-- Runs the web service. A failure that is not one of the analyzer's own ends it silently. -/
def serve (e : Surroundings) (o : ServeOptions) : Session :=
  let refused (s : Session) : Failure → Session
    | .error why => s.refuse why
    | .fault _ => s.quit 1
  match Config.load e.workspace o.config o.overrides with
  | .error why => refused { level := Log.levelOf (Log.verbosityOf o.isVerbose false) } why
  | .ok c =>
    let s : Session := { level := levelOf c }
    match Service.make c with
    | .error why => refused s why
    | .ok _ => s.serveWith c

/-- The version of the program. -/
def version : String := "0.1.0"

/-- The status of a command line that cannot be read. -/
def misuse : Nat := 2

/-- Runs the program with the words of a command line. -/
def run (e : Surroundings) (words : List String) : Session :=
  match Command.parse? e.workspace words with
  | none => { exit := misuse }
  | some .version => quitSaying {} (programName ++ " version [green]" ++ version ++ "[/green]") 0
  | some (.analyze o) => analyze e o
  | some (.serve o) => serve e o

/-- The records that count. -/
def countedRecords (s : Session) : List Log.Record := Log.passing s.level s.records

end Session

end Maintainability
