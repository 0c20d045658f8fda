/-
Sources: the decoded files of a project. A run identifies a file by its path with forward slashes;
of several sources with one path the first counts. A text may hold surrogates; paths are free of
them throughout, so that only files are seen whose names are characters.
-/
import Maintainability.Log
import Maintainability.Text

namespace Maintainability

/-- A decoded file. -/
structure Source where
  /-- The path, relative to the root of the project. -/
  path : String
  /-- The text. -/
  text : Text
  deriving DecidableEq, Repr, Inhabited

namespace Source

/-- A path with forward slashes. -/
def slashed (path : String) : String :=
  String.ofList (path.toList.map fun c => if c = '\\' then '/' else c)

/-- The same source under its path with forward slashes. -/
def normalize (s : Source) : Source := ⟨slashed s.path, s.text⟩

/-- The record of a source whose path was seen before. -/
def ignored (path : String) : Log.Record := ⟨.warning, "Duplicate path " ++ path ++ " ignored"⟩

/-- The sources whose paths are not among those seen, the first of each path, and a record for
each of the others. -/
def firstOf (seen : List String) : List Source → List Source × List Log.Record
  | [] => ([], [])
  | s :: rest =>
    let s := s.normalize
    if seen.contains s.path then
      let (files, notes) := firstOf seen rest
      (files, ignored s.path :: notes)
    else
      let (files, notes) := firstOf (s.path :: seen) rest
      (s :: files, notes)

/-- The files of a run: each path once, with forward slashes. -/
def unique (sources : List Source) : List Source × List Log.Record := firstOf [] sources

end Source

end Maintainability
