/-
The analyzer as a web service: one address takes an upload and answers with the result in JSON, the
other says that the service is alive. An error of the analyzer is answered by its message and
details; any other failure only by its status. A result with a number that is no number of JSON is
such a failure too.
-/
import Maintainability.Analysis.Project
import Maintainability.Service.Form

namespace Maintainability

/-- A request. -/
structure Request where
  /-- The method. -/
  method : String
  /-- The path. -/
  path : String
  /-- The parts of its form. -/
  parts : List Part := []
  deriving Repr

/-- What a response carries. -/
inductive Body where
  | json (j : Json)
  | text (s : String)
  deriving Repr

/-- A response. -/
structure Response where
  /-- The status. -/
  status : Nat
  /-- What it carries. -/
  body : Body
  deriving Repr

/-- The service: a configuration, the parser of its language, and what opens the archives. -/
structure Service where
  /-- The configuration. -/
  config : Config
  /-- The parser. -/
  parser : SourceParser
  /-- The reader of archives. -/
  reader : Archive.Reader := Zip.members

namespace Service

/-- The service of a configuration. -/
def make (c : Config) : Except Failure Service := do
  let parser ← c.parser
  pure { config := c, parser := parser }

/-! ## Uploads -/

/-- A failure that is nobody's business outside. -/
def internalError : Response := ⟨500, .text "Internal Server Error"⟩

/-- A response with nothing but an error text. -/
def complaint (status : Nat) (why : String) : Response := ⟨status, .json (.obj [("error", .str why)])⟩

/-- The status of an error. -/
def statusOf : Error → Nat
  | .timeout _ _ => 504
  | .archiveTooLarge _ _ => 413
  | _ => 400

/-- The record of an upload that was refused. -/
def refusal (fileName : String) (e : Error) : Log.Record :=
  match e with
  | .timeout _ _ => ⟨.warning, "Analysis of " ++ fileName ++ " timed out: " ++ e.message⟩
  | _ => ⟨.warning, "Rejected upload " ++ fileName ++ ": " ++ e.message⟩

/-- A value that can be sent: no integer has too many digits, and no number is infinite or NaN. -/
def IsServable (j : Json) : Prop :=
  (∀ n ∈ j.integers, Literal.Short n) ∧ ∀ s ∈ j.literals, s ∉ ["NaN", "Infinity", "-Infinity"]

instance (j : Json) : Decidable (IsServable j) := inferInstanceAs (Decidable (_ ∧ _))

/-- The response to a run that ended so. -/
def conclude (fileName : String) : Except Failure Result → Response × List Log.Record
  | .ok r =>
    (if IsServable r.toJson then ⟨200, .json r.toJson⟩ else internalError,
      [⟨.info, "Analyzed upload " ++ fileName ++ ": " ++ toString r.totalFiles ++ " files"⟩])
  | .error (.error e) => (⟨statusOf e, .json e.toJson⟩, [refusal fileName e])
  | .error (.fault _) => (internalError, [])

/-- The most bytes that can be asked of an upload at once. -/
def mostBytes : Int := 9223372036854775807

/-- The response to an upload. One byte more than the limit is asked for, to see if there are too many. -/
def receive (s : Service) (k : Clock) (fileName : String) (bytes : List UInt8) :
    Response × List Log.Record :=
  match s.config.maxUploadBytes with
  | .error _ => (internalError, [])
  | .ok limit =>
    if mostBytes < limit + 1 then (internalError, [])
    else if limit < bytes.length then
      (complaint 413 ("upload exceeds " ++ (s.config.get .maxUploadMb).plainText ++ " MB"), [])
    else
      let (taken, notes) := Intake.fromUploadBy s.reader s.config fileName bytes
      let (ended, more) := match taken with
        | .error e => (.error e, [])
        | .ok sources =>
          let o := s.config.options
          analyze o s.parser (k.timeline o sources) sources
      let (response, last) := conclude fileName ended
      (response, notes ++ more ++ last)

/-! ## Forms -/

/-- The response to a form. -/
def analyzeForm (s : Service) (k : Clock) (parts : List Part) : Response × List Log.Record :=
  if 1 < parts.countP (·.isFile) then
    (⟨400, .text "Too many files. Maximum number of files is 1."⟩, [])
  else
    match lastPart? "file" parts with
    | some (.file _ fileName bytes) => s.receive k fileName bytes
    | _ => (complaint 400 "multipart field 'file' is required", [])

/-! ## Addresses -/

/-- What can be asked for. -/
inductive Route where
  | analyze
  | health
  deriving DecidableEq, Repr

namespace Route

/-- All routes. -/
def all : List Route := [.analyze, .health]

/-- The path of a route. -/
def path : Route → String
  | .analyze => "/api/v1/analyze"
  | .health => "/api/v1/health"

/-- The methods of a route. -/
def methods : Route → List String
  | .analyze => ["POST"]
  | .health => ["GET", "HEAD"]

/-- The route of a path. A path that ends in slashes leads to the path without them. -/
def ofPath? (path : String) : Option Route :=
  let without := String.ofList (path.toList.reverse.dropWhile (· = '/')).reverse
  all.find? fun r => r.path == path || r.path == without

end Route

/-- The response to a request that is to be answered in full. -/
def respond (s : Service) (k : Clock) (r : Request) : Response × List Log.Record :=
  match Route.ofPath? r.path with
  | none => (⟨404, .text "Not Found"⟩, [])
  | some route =>
    if route.methods.contains r.method then
      match route with
      | .analyze => s.analyzeForm k r.parts
      | .health => (⟨200, .text "OK"⟩, [])
    else (⟨405, .text "Method Not Allowed"⟩, [])

/-- The response to a request. One that asks for the head only gets no body. -/
def answer (s : Service) (k : Clock) (r : Request) : Response × List Log.Record :=
  let (response, notes) := s.respond k r
  if r.method = "HEAD" then ({ response with body := .text "" }, notes) else (response, notes)

/-- The responses to requests in order. -/
def answerAll (s : Service) (k : Clock) : List Request → List Response × List Log.Record
  | [] => ([], [])
  | r :: rest =>
    let (response, notes) := s.answer k r
    let (responses, more) := answerAll s k rest
    (response :: responses, notes ++ more)

end Service

end Maintainability
