/-
What can go wrong. An `Error` is one of the analyzer's own: each has a message and details, and a
name by which a report shows it. A `Fault` is any other failure that reaches the caller.
-/
import Maintainability.Config.Value
import Maintainability.Json

namespace Maintainability

/-- The families of errors. -/
inductive Family where
  | any
  | analysis
  | configuration
  deriving DecidableEq, Repr

/-- The name of a family. -/
def Family.name : Family → String
  | .any => "CodeComplexityError"
  | .analysis => "AnalysisError"
  | .configuration => "ConfigurationError"

/-- The analyzer's own errors. -/
inductive Error where
  /-- An error with nothing but a message and details of its own. -/
  | general (family : Family) (message : String) (details : List (String × String))
  /-- A file cannot be read. -/
  | fileAccess (path reason : String)
  /-- The text of a file cannot be parsed. -/
  | parsing (path language reason : String)
  /-- A method's text has no digest. -/
  | hashing (path method reason : String)
  /-- No such language. -/
  | unsupportedLanguage (language : String) (supported : List String)
  /-- The deadline passed while files were pending. -/
  | timeout (seconds : Value) (pending : Int)
  /-- An archive cannot be read. -/
  | archive (name reason : String)
  /-- The sources of an archive are too large together. -/
  | archiveTooLarge (name : String) (limit : Int)
  /-- A target cannot be analyzed. -/
  | invalidPath (target reason : String)
  /-- A setting has a value that its rule forbids. -/
  | invalidConfig (key : String) (value : Value) (reason : String)
  /-- A member of an archive has an unsafe name. -/
  | security (reason : String) (member : Option String)
  deriving Repr

namespace Error

/-- The name of an error. -/
def name : Error → String
  | .general family _ _ => family.name
  | .fileAccess _ _ => "FileAccessError"
  | .parsing _ _ _ => "ParsingError"
  | .hashing _ _ _ => "HashingError"
  | .unsupportedLanguage _ _ => "UnsupportedLanguageError"
  | .timeout _ _ => "AnalysisTimeoutError"
  | .archive _ _ => "ArchiveError"
  | .archiveTooLarge _ _ => "ArchiveTooLargeError"
  | .invalidPath _ _ => "InvalidPathError"
  | .invalidConfig _ _ _ => "InvalidConfigError"
  | .security _ _ => "SecurityError"

/-- The reason that an archive is too large. -/
def tooLarge (limit : Int) : String := "decoded sources exceed " ++ toString limit ++ " bytes"

/-- The summary of an error. -/
def summary : Error → String
  | .general _ message _ => message
  | .fileAccess path _ => "Cannot access file: " ++ path
  | .parsing path language _ => "Failed to parse " ++ language ++ " file: " ++ path
  | .hashing path method _ => "Failed to hash method " ++ method ++ " in " ++ path
  | .unsupportedLanguage language _ => "Unsupported language: " ++ language
  | .timeout seconds _ => "Analysis did not finish within " ++ seconds.plainText ++ "s"
  | .archive name _ | .archiveTooLarge name _ => "Cannot read archive: " ++ name
  | .invalidPath target reason => "Cannot analyze " ++ target ++ ": " ++ reason
  | .invalidConfig key value _ => "Invalid configuration value " ++ key ++ "=" ++ value.shown
  | .security reason _ => "Security violation: " ++ reason

/-- The details of an error, in the order in which they are shown. -/
def details : Error → List (String × String)
  | .general _ _ details => details
  | .fileAccess path reason => [("filepath", path), ("reason", reason)]
  | .parsing path language reason =>
    [("filepath", path), ("language", language), ("reason", reason)]
  | .hashing path method reason => [("filepath", path), ("method", method), ("reason", reason)]
  | .unsupportedLanguage language supported =>
    [("language", language), ("supported", ", ".intercalate supported)]
  | .timeout seconds pending =>
    [("timeout_seconds", seconds.plainText), ("pending_files", toString pending)]
  | .archive name reason => [("archive", name), ("reason", reason)]
  | .archiveTooLarge name limit => [("archive", name), ("reason", tooLarge limit)]
  | .invalidPath target reason => [("target", target), ("reason", reason)]
  | .invalidConfig key value reason => [("key", key), ("value", value.shown), ("reason", reason)]
  | .security reason member =>
    ("reason", reason) :: (match member with
      | some m => [("member", m)]
      | none => [])

/-- The summary, with the details in parentheses. -/
def message (e : Error) : String :=
  if e.details.isEmpty then e.summary
  else
    e.summary ++ " (" ++ ", ".intercalate (e.details.map fun (k, v) => k ++ "=" ++ v) ++ ")"

/-- An error as a client of the service sees it. -/
def toJson (e : Error) : Json :=
  .obj [("error", .str e.summary), ("type", .str e.name),
    ("details", .obj (e.details.map fun (k, v) => (k, .str v)))]

/-- The family of an error. -/
def family : Error → Family
  | .general family _ _ => family
  | .invalidPath _ _ | .invalidConfig _ _ _ | .security _ _ => .configuration
  | _ => .analysis

/-- The names of the more general kinds that an error also is, the nearest first. -/
def parents (e : Error) : List String :=
  let root := Family.any.name
  match e with
  | .general .any _ _ => []
  | .general _ _ _ => [root]
  | .archiveTooLarge _ _ => ["ArchiveError", e.family.name, root]
  | _ => [e.family.name, root]

/-- The attributes of an error, besides its summary and its details. -/
def attributes : Error → List (String × Value)
  | .general _ _ _ => []
  | .fileAccess path reason => [("filepath", .str path), ("reason", .str reason)]
  | .parsing path language reason =>
    [("filepath", .str path), ("language", .str language), ("reason", .str reason)]
  | .hashing path method reason =>
    [("filepath", .str path), ("method_name", .str method), ("reason", .str reason)]
  | .unsupportedLanguage language supported =>
    [("language", .str language), ("supported_languages", .list (supported.map .str))]
  | .timeout seconds pending => [("timeout_seconds", seconds), ("pending", .int pending)]
  | .archive name reason => [("archive", .str name), ("reason", .str reason)]
  | .archiveTooLarge name limit =>
    [("archive", .str name), ("reason", .str (tooLarge limit)), ("limit_bytes", .int limit)]
  | .invalidPath target reason => [("target", .str target), ("reason", .str reason)]
  | .invalidConfig key value reason =>
    [("key", .str key), ("value", value), ("reason", .str reason)]
  | .security reason member =>
    [("reason", .str reason), ("filepath", match member with
      | some m => .str m
      | none => .null)]

/-- The error of a name from its arguments, if they are of the right number. -/
def ofArguments? (name : String) (args : List Value) : Option Error :=
  let details (v : Value) : List (String × String) := match v with
    | .table kvs => kvs.map fun (k, v) => ((Value.text k).plainText, v.plainText)
    | _ => []
  let general (family : Family) : Option Error := match args with
    | [m] => some (.general family m.plainText [])
    | [m, d] => some (.general family m.plainText (details d))
    | _ => none
  match name, args with
  | "CodeComplexityError", _ => general .any
  | "AnalysisError", _ => general .analysis
  | "ConfigurationError", _ => general .configuration
  | "FileAccessError", [p, r] => some (.fileAccess p.plainText r.plainText)
  | "ParsingError", [p, l, r] => some (.parsing p.plainText l.plainText r.plainText)
  | "HashingError", [p, m, r] => some (.hashing p.plainText m.plainText r.plainText)
  | "UnsupportedLanguageError", [l, .list ls] =>
    some (.unsupportedLanguage l.plainText (ls.map (·.plainText)))
  | "AnalysisTimeoutError", [s, .int n] => some (.timeout s n)
  | "ArchiveError", [a, r] => some (.archive a.plainText r.plainText)
  | "ArchiveTooLargeError", [a, .int n] => some (.archiveTooLarge a.plainText n)
  | "InvalidPathError", [t, r] => some (.invalidPath t.plainText r.plainText)
  | "InvalidConfigError", [k, v, r] => some (.invalidConfig k.plainText v r.plainText)
  | "SecurityError", [r] | "SecurityError", [r, .null] => some (.security r.plainText none)
  | "SecurityError", [r, m] => some (.security r.plainText (some m.plainText))
  | _, _ => none

end Error

/-- The kind of a failure that is not one of the analyzer's own. -/
inductive FaultKind where
  /-- A value out of its range. -/
  | value
  /-- A value of the wrong kind. -/
  | type
  /-- A number too large for a double. -/
  | overflow
  /-- A text with a surrogate. -/
  | encoding
  /-- Bytes that are not UTF-8. -/
  | decoding
  /-- A state that forbids the operation. -/
  | runtime
  /-- A feature that is not there. -/
  | unsupported
  /-- Markup that does not balance. -/
  | markup
  /-- A compressed stream that is damaged. -/
  | stream
  /-- A name that a value does not have. -/
  | attribute
  /-- A key that a table does not have. -/
  | key
  /-- Content that a decoder of its own cannot decode. -/
  | lzma
  /-- The operating system refused. -/
  | system
  /-- Calls nested too deep. -/
  | recursion
  /-- No failure that shows: what was called never returns. -/
  | endless
  deriving DecidableEq, Repr

/-- A failure that is not one of the analyzer's own. -/
structure Fault where
  /-- Its kind. -/
  kind : FaultKind
  /-- Its text. -/
  message : String
  deriving DecidableEq, Repr

/-- The end of a run that has none. -/
def Fault.endless : Fault := ⟨.endless, "never returns"⟩

/-- Any failure. -/
inductive Failure where
  | error (e : Error)
  | fault (f : Fault)
  deriving Repr

namespace Failure

/-- The text of a failure. -/
def message : Failure → String
  | .error e => e.message
  | .fault f => f.message

/-- One of the analyzer's own errors. -/
def isOwn : Failure → Bool
  | .error _ => true
  | .fault _ => false

/-- A failure with a value out of its range. -/
def badValue (message : String) : Failure := .fault ⟨.value, message⟩

end Failure

/-! ## One step after the other -/

theorem bind_eq_ok {ε α β : Type} {x : Except ε α} {f : α → Except ε β} {b : β} :
    x >>= f = .ok b ↔ ∃ a, x = .ok a ∧ f a = .ok b := by
  cases x <;> simp [bind, Except.bind]

theorem bind_eq_error {ε α β : Type} {x : Except ε α} {f : α → Except ε β} {e : ε} :
    x >>= f = .error e ↔ x = .error e ∨ ∃ a, x = .ok a ∧ f a = .error e := by
  cases x <;> simp [bind, Except.bind]

theorem exists_mapM {ε α β : Type} {f : α → Except ε β} {xs : List α} :
    (∃ ys, xs.mapM f = .ok ys) ↔ ∀ x ∈ xs, ∃ y, f x = .ok y := by
  induction xs with
  | nil => simp [pure, Except.pure]
  | cons x xs ih =>
    simp only [List.forall_mem_cons, ← ih, List.mapM_cons, bind_eq_ok]
    constructor
    · rintro ⟨_, y, hy, ys, hys, _⟩
      exact ⟨⟨y, hy⟩, ys, hys⟩
    · rintro ⟨⟨y, hy⟩, ys, hys⟩
      exact ⟨y :: ys, y, hy, ys, hys, rfl⟩

/-- What ends a list of steps is the fault of the first that fails. -/
theorem mapM_eq_error {ε α β : Type} {f : α → Except ε β} {xs : List α} {e : ε} :
    xs.mapM f = .error e ↔
      ∃ before x after, xs = before ++ x :: after ∧ (∀ y ∈ before, ∃ b, f y = .ok b) ∧ f x = .error e := by
  induction xs with
  | nil => simp [pure, Except.pure]
  | cons x xs ih =>
    simp only [List.mapM_cons, bind_eq_error, ih]
    constructor
    · rintro (h | ⟨b, hb, ⟨before, y, after, rfl, hbefore, hy⟩ | ⟨_, _, h⟩⟩)
      · exact ⟨[], x, xs, rfl, by simp, h⟩
      · exact ⟨x :: before, y, after, rfl, List.forall_mem_cons.2 ⟨⟨b, hb⟩, hbefore⟩, hy⟩
      · cases h
    · rintro ⟨before, y, after, h, hbefore, hy⟩
      cases before with
      | nil =>
        cases h
        exact .inl hy
      | cons x' before =>
        cases h
        obtain ⟨⟨b, hb⟩, hbefore⟩ := List.forall_mem_cons.1 hbefore
        exact .inr ⟨b, hb, .inl ⟨before, y, after, rfl, hbefore, hy⟩⟩

theorem mem_of_mapM {ε α β : Type} {f : α → Except ε β} {xs : List α} {ys : List β} (h : xs.mapM f = .ok ys) :
    (∀ x ∈ xs, ∃ y ∈ ys, f x = .ok y) ∧ ∀ y ∈ ys, ∃ x ∈ xs, f x = .ok y := by
  induction xs generalizing ys with
  | nil =>
    cases h
    simp
  | cons x xs ih =>
    rw [List.mapM_cons, bind_eq_ok] at h
    obtain ⟨y, hy, h⟩ := h
    obtain ⟨zs, hzs, h⟩ := bind_eq_ok.1 h
    cases h
    obtain ⟨hleft, hright⟩ := ih hzs
    refine ⟨List.forall_mem_cons.2 ⟨⟨y, by simp, hy⟩, fun x' hx' => ?_⟩,
      List.forall_mem_cons.2 ⟨⟨x, by simp, hy⟩, fun z hz => ?_⟩⟩
    · obtain ⟨z, hz, hfz⟩ := hleft x' hx'
      exact ⟨z, List.mem_cons_of_mem y hz, hfz⟩
    · obtain ⟨x', hx', hfx⟩ := hright z hz
      exact ⟨x', List.mem_cons_of_mem x hx', hfx⟩

end Maintainability
