/-
The program. It takes a picture of the files and the variables that a command may ask about, carries
the command out on that picture, and prints and writes what came of it. What to do is decided in the
other modules; here it is only done.
-/
import Maintainability.Command.Session

namespace Maintainability.Program

/-- The segments of a path from the root. -/
def placeOf (here path : String) : Place :=
  let p := Path.ofString path
  if p.isAbsolute then p.segments else (Path.ofString here).segments ++ p.segments

/-- A file whose content may matter: a source or an archive. -/
def isOfInterest (name : List Char) : Bool :=
  Language.all.any (·.matchesName name) || Intake.isZipName name

/-- What stands at a place; the content of a file is read only if it is wanted. -/
def look (p : Place) (isWanted : Bool) : IO (Option Node) := do
  let path := (← IO.currentDir) / ("/" ++ String.ofList (Path.joined p))
  try
    match (← path.symlinkMetadata).type with
    | .dir => pure (some .directory)
    | .symlink => pure (some (.link (.ofString (← IO.FS.realPath path).toString)))
    | .file =>
      if isWanted then
        try
          let bytes ← IO.FS.readBinFile path
          pure (some (.file bytes.toList true true))
        catch _ => pure (some (.file [] false true))
      else pure (some (.file [] true true))
    | .other => pure none
  catch _ => pure none

/-- The places on the way to a place, and the place itself. -/
def way (p : Place) : List Place := (List.range p.length).map fun i => p.take (i + 1)

/-- What stands at some places. -/
def lookAt (places : List Place) : IO (List (Place × Node)) :=
  places.filterMapM fun p => do
    pure ((← look p true).map (p, ·))

/-- Everything below a directory; links are not followed. -/
partial def lookBelow (p : Place) : IO (List (Place × Node)) := do
  let path := (← IO.currentDir) / ("/" ++ String.ofList (Path.joined p))
  let entries ← try path.readDir catch _ => pure #[]
  let mut found := []
  for e in entries do
    let name := e.fileName.toList
    let q := p ++ [name]
    match ← look q (isOfInterest name) with
    | some .directory => found := (q, .directory) :: (← lookBelow q) ++ found
    | some node => found := (q, node) :: found
    | none => pure ()
  pure found

/-- The parts of a word that may be a path. -/
def pathsIn (word : String) : List String :=
  [word, String.ofList ((word.toList.dropWhile (· ≠ '=')).drop 1), String.ofList (word.toList.drop 2)]

/-- The picture without the target. -/
def picture (words : List String) : IO Workspace := do
  let here := (← IO.currentDir).toString
  let home := (← IO.getEnv "HOME").getD "/"
  let current := placeOf here here
  let settings := [home ++ "/." ++ Config.fileName, here ++ "/" ++ Config.fileName]
  let paths := here :: settings ++ words.flatMap pathsIn
  let nodes ← lookAt (paths.flatMap fun p => way (placeOf here p)).eraseDups
  let environment ← Field.all.filterMapM fun f => do
    pure ((← IO.getEnv f.variableName).map (f.variableName, ·))
  pure {
    current
    home := Workspace.homeOf current home
    environment
    nodes
    barred := Workspace.tooLong? }

/-- The picture with all that a command may ask about. -/
def wholePicture (words : List String) : IO Workspace := do
  let w ← picture words
  match Command.parse? w words with
  | some (.analyze o) =>
    match w.find? o.target with
    | some (p, .directory) => pure { w with nodes := w.nodes ++ (← lookBelow p) }
    | _ => pure w
  | _ => pure w

end Maintainability.Program

open Maintainability Maintainability.Program in
/-- Runs the program. -/
def main (words : List String) : IO UInt32 := do
  let s := Session.run { workspace := ← wholePicture words } words
  for r in s.countedRecords do
    IO.eprintln (r.level.name ++ " " ++ r.message)
  IO.eprint s.messages
  IO.print s.output
  if let some (p, text) := s.written then
    IO.FS.writeFile p.text text
  pure s.exit.toUInt32
