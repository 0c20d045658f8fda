/-
A workspace: what can be seen of a file system. It holds files, directories and symbolic links by
their places, the working directory, the home directory and the environment. Looking up a path
follows links; walking a directory does not. The system may refuse to look up a place at all.

What else a run finds around it stands here as well: what the reader of TOML complains of, and how
deep calls may be nested, to read a document and to show a value.
-/
import Maintainability.Config.Environment
import Maintainability.Number.Total
import Maintainability.Path
import Maintainability.Text.Utf8

namespace Maintainability

/-- What stands at a place. -/
inductive Node where
  /-- A file; its bytes may be unreadable, and its size unknown. -/
  | file (bytes : List UInt8) (isReadable hasSize : Bool)
  /-- A directory. -/
  | directory
  /-- A symbolic link. -/
  | link (target : Path)
  deriving Repr, Inhabited

/-- A place: the segments from the root. -/
abbrev Place := List (List Char)

namespace Workspace

/-- Refusals of the operating system. -/
inductive Refusal where
  | missing
  | denied
  | notDirectory
  | isDirectory
  | nameTooLong
  deriving DecidableEq, Repr

/-- The text of a refusal. -/
def Refusal.message (path : String) : Refusal → String
  | .missing => "[Errno 2] No such file or directory: " ++ Quoted.string path
  | .denied => "[Errno 13] Permission denied: " ++ Quoted.string path
  | .notDirectory => "[Errno 20] Not a directory: " ++ Quoted.string path
  | .isDirectory => "[Errno 21] Is a directory: " ++ Quoted.string path
  | .nameTooLong => "[Errno 36] File name too long: " ++ Quoted.string path

end Workspace

/-- A workspace. -/
structure Workspace where
  /-- The text of the root. -/
  root : String := ""
  /-- The working directory. -/
  current : Place := []
  /-- The home directory, if there is one to be found. -/
  home : Option Place := some []
  /-- The environment. -/
  environment : Environment.Variables := []
  /-- All places that hold something. -/
  nodes : List (Place × Node) := []
  /-- Why a place may not even be looked up, if it may not. -/
  barred : Place → Option Workspace.Refusal := fun _ => none
  /-- What is wrong with characters that are no TOML document. -/
  complaint : List Char → String := fun _ => ""
  /-- How many calls may be nested in the reading of a value of a TOML document. -/
  calls : Nat := 900
  /-- How many levels deep the parts of a value can be nested for the value to be shown. -/
  levels : Nat := 900
  deriving Inhabited

namespace Workspace

/-- The home directory that a word of the environment names: none, if it is itself said to be below
somebody's home. -/
def homeOf (current : Place) (word : String) : Option Place :=
  if word.toList.head? = some '~' then none
  else
    let p := Path.ofString word
    some (if p.isAbsolute ∨ word.isEmpty then p.segments else current ++ p.segments)

/-- The bytes that a name takes. -/
def width (name : List Char) : Nat := (Utf8.encode name).length

/-- The refusal of a place with a name of more than 255 bytes, or of more than 4095 bytes in all. -/
def tooLong? (p : Place) : Option Refusal :=
  if p.any (255 < width ·) ∨ 4095 < total (p.map fun s => width s + 1) then some .nameTooLong else none

/-- The text of a place. -/
def textOf (w : Workspace) (p : Place) : String :=
  w.root ++ "/" ++ String.ofList (Path.joined p)

/-- What stands at a place, links not followed. -/
def at? (w : Workspace) (p : Place) : Option Node :=
  if p.isEmpty then some .directory else (w.nodes.find? (·.1 == p)).map (·.2)

/-- The most steps that are taken to find a place. -/
def maxSteps : Nat := 1000

/-- Goes from a place along segments, through links. -/
def follow (w : Workspace) : Nat → Place → List (List Char) → Option (Place × Node)
  | 0, _, _ => none
  | _ + 1, here, [] => (w.at? here).map (here, ·)
  | steps + 1, here, s :: rest =>
    if s = ['.', '.'] then follow w steps here.dropLast rest
    else
      match w.at? (here ++ [s]) with
      | none => none
      | some (.link target) =>
        follow w steps (if target.isAbsolute then [] else here) (target.segments ++ rest)
      | some .directory => follow w steps (here ++ [s]) rest
      | some (.file bytes readable sized) =>
        if rest.isEmpty then some (here ++ [s], .file bytes readable sized) else none

/-- The place of a path, no link followed. -/
def placeOf (w : Workspace) (p : Path) : Place :=
  if p.isAbsolute then p.segments else w.current ++ p.segments

/-- What a path leads to. -/
def find? (w : Workspace) (p : Path) : Option (Place × Node) :=
  w.follow maxSteps (if p.isAbsolute then [] else w.current) p.segments

/-- Something is there. -/
def has (w : Workspace) (p : Path) : Bool := (w.find? p).isSome

/-- A directory is there. -/
def hasDirectory (w : Workspace) (p : Path) : Bool :=
  match w.find? p with
  | some (_, .directory) => true
  | _ => false

/-- The bytes of what stands somewhere. -/
def bytesOf : Option Node → Except Refusal (List UInt8)
  | none | some (.link _) => .error .missing
  | some .directory => .error .isDirectory
  | some (.file bytes readable _) => if readable then .ok bytes else .error .denied

/-- The bytes of the file at a path, or the text of the refusal. -/
def read (w : Workspace) (p : Path) : Except String (List UInt8) :=
  match bytesOf ((w.find? p).map (·.2)) with
  | .ok bytes => .ok bytes
  | .error r => .error (r.message p.text)

/-- The files under a place, by their segments from there, in order. -/
def filesUnder (w : Workspace) (base : Place) : List (List (List Char) × Node) :=
  let under := w.nodes.filterMap fun (p, node) =>
    match node with
    | .file _ _ _ => if base.isPrefixOf p then some (p.drop base.length, node) else none
    | _ => none
  under.mergeSort fun a b => Path.le a.1 b.1

/-- Why a file cannot be written at a path; `none` if it can. -/
def writeRefusal? (w : Workspace) (p : Path) : Option Refusal :=
  match w.find? p with
  | some (_, .directory) => some .isDirectory
  | some (_, _) => none
  | none =>
    match w.find? ⟨p.slashes, p.segments.dropLast⟩ with
    | some (_, .directory) => none
    | some (_, _) => some .notDirectory
    | none => some .missing

end Workspace

end Maintainability
