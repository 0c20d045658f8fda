/-
Where log records go. Setting up the log chooses a level by the verbosity and puts new handlers in
the place of the old ones: one for the screen, and one for a file if a file is named. A file keeps
the lines that went to it when its handler is gone.
-/
import Maintainability.Log

namespace Maintainability.Log

/-- The name under which all records of the program stand. -/
def rootName : String := "codecomplexity"

/-- The name of a logger: under the root, unless it is the root's own or begins like it. -/
def loggerName : Option String → String
  | none => rootName
  | some s => if rootName.toList.isPrefixOf s.toList then s else rootName ++ "." ++ s

/-- The level of a verbosity. -/
def levelOf (verbosity : String) : Level :=
  match verbosity with
  | "quiet" => .error
  | "verbose" => .debug
  | _ => .warning

/-- The verbosity of two switches; to be quiet counts more. -/
def verbosityOf (isVerbose isQuiet : Bool) : String :=
  if isQuiet then "quiet" else if isVerbose then "verbose" else "normal"

/-- Where records go. -/
inductive Handler where
  /-- To the screen, with the places of records and the variables of failures or without. -/
  | screen (isDetailed : Bool)
  /-- To the end of a file. -/
  | file (path : String)
  deriving DecidableEq, Repr

/-- Loggers of other libraries, whose records count from warnings on unless all are wanted. -/
def dependencies : List String := ["multipart", "python_multipart", "uvicorn.access"]

/-- How the log is set up. -/
structure Setup where
  /-- The least level that counts. -/
  level : Level := .warning
  /-- The handlers. -/
  handlers : List Handler := []
  /-- The least level that counts from other libraries. -/
  dependencyLevel : Level := .warning
  deriving DecidableEq, Repr, Inhabited

/-- The setup for a verbosity and perhaps a file. -/
def Setup.of (verbosity : String) (file? : Option String) : Setup :=
  let level := levelOf verbosity
  let isVerbose := level == .debug
  { level
    handlers := .screen isVerbose :: (file?.map Handler.file).toList
    dependencyLevel := if isVerbose then .debug else .warning }

/-- The setup and the lines of all files so far. -/
structure Journal where
  /-- How the log is set up. -/
  setup : Setup := {}
  /-- The files with their lines. -/
  files : List (String × List String) := []
  deriving DecidableEq, Repr, Inhabited

namespace Journal

/-- Adds lines to the end of a file. -/
def append (files : List (String × List String)) (path : String) (lines : List String) :
    List (String × List String) :=
  match files with
  | [] => [(path, lines)]
  | (p, ls) :: rest =>
    if p = path then (p, ls ++ lines) :: rest else (p, ls) :: append rest path lines

/-- Puts a new setup in the place of the old one; the files that it names exist from then on. -/
def install (j : Journal) (s : Setup) : Journal where
  setup := s
  files := s.handlers.foldl (fun files h => match h with
    | .file path => append files path []
    | .screen _ => files) j.files

/-- The line of a record in a file, without its time. -/
def line (logger : String) (level : Level) (message : String) : String :=
  "MainThread " ++ logger ++ " " ++ level.name ++ " " ++ message

/-- Sends a record to all handlers, if its level counts. -/
def emit (j : Journal) (logger : String) (level : Level) (message : String) : Journal :=
  if level.rank < j.setup.level.rank then j
  else
    { j with files := j.setup.handlers.foldl (fun files h => match h with
        | .file path => append files path ((line logger level message).splitOn "\n")
        | .screen _ => files) j.files }

end Journal

end Maintainability.Log
