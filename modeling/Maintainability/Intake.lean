/-
Intake: from a directory, an archive, a file or an upload to sources. Files are taken in order, at
most as many as the configuration allows; what cannot be read or decoded is passed over with a
record. An archive is refused as a whole when a member is unsafe or unreadable, or when its
sources are too large together.
-/
import Maintainability.Analysis.Source
import Maintainability.Archive.Zip
import Maintainability.Intake.Selection
import Maintainability.Workspace

namespace Maintainability.Intake

/-- Sources with the records of taking them in, or a failure with the records up to it. -/
abbrev Taken := Except Failure (List Source) × List Log.Record

/-- A number of sources that is not below the limit. -/
def isFull (c : Config) (taken : Nat) : Bool :=
  match (c.get .maxFiles).number? with
  | some q => q.atMost (.int taken)
  | none => false

/-- The record of a limit that is reached. -/
def stopping (c : Config) (what : String) : Log.Record :=
  ⟨.warning, what ++ ": stopping at max_files=" ++ (c.get .maxFiles).plainText⟩

/-- The record of what was taken. -/
def summary (what : String) (l : Language) (taken : Nat) : Log.Record :=
  ⟨.info, what ++ ": " ++ toString taken ++ " " ++ l.name ++ " files"⟩

/-! ## Archives -/

/-- The failure of an archive that cannot be read, because of a member or as a whole. -/
def archiveFailure (name : String) (member : Option String) : Archive.Damage → Failure
  | .broken why =>
    .error (.archive name (match member with
      | some m => m ++ ": " ++ why
      | none => why))
  | .beyond f => .fault f

/-- What to do with one member. -/
inductive Step where
  /-- Pass over it. -/
  | pass (notes : List Log.Record)
  /-- Take no more members. -/
  | stop
  /-- Take the source; `total` is the declared size of all that was read. -/
  | take (total : Nat) (source : Option Source) (notes : List Log.Record)
  /-- Refuse the archive. -/
  | refuse (why : Failure) (notes : List Log.Record)

/-- Deals with one member after `taken` sources and `total` bytes. -/
def member (c : Config) (l : Language) (archive : String) (taken total : Nat)
    (m : Archive.Member) : Step :=
  if m.isDirectory then .pass []
  else
    match memberPath m.name with
    | .error e => .refuse (.error e) []
    | .ok path =>
      match accepts c l path m.size with
      | .error f => .refuse (.fault f) []
      | .ok (false, notes) => .pass notes
      | .ok (true, _) =>
        if isFull c taken then .stop
        else
          match c.maxTotalBytes with
          | .error f => .refuse (.fault f) []
          | .ok limit =>
            if limit < total + m.size then .refuse (.error (.archiveTooLarge archive limit)) []
            else
              match m.content () with
              | .error damage => .refuse (archiveFailure archive (some m.name) damage) []
              | .ok bytes =>
                let (text, notes) := decode path.text bytes
                .take (total + m.size) (text.map fun t => ⟨path.text, t⟩) notes

/-- Deals with members in order, after the sources taken, the last one first. -/
def members (c : Config) (l : Language) (archive : String) :
    List Source → Nat → List Archive.Member → Taken
  | taken, _, [] => (.ok taken.reverse, [])
  | taken, total, m :: rest =>
    match member c l archive taken.length total m with
    | .pass notes =>
      let (result, more) := members c l archive taken total rest
      (result, notes ++ more)
    | .stop => (.ok taken.reverse, [stopping c archive])
    | .refuse why notes => (.error why, notes)
    | .take total source notes =>
      let (result, more) := members c l archive (source.toList ++ taken) total rest
      (result, notes ++ more)

/-- The sources of an archive whose members are known. -/
def fromMembers (c : Config) (l : Language) (archive : String) (ms : List Archive.Member) :
    Taken :=
  match members c l archive [] 0 ms with
  | (.ok sources, notes) => (.ok sources, notes ++ [summary archive l sources.length])
  | failed => failed

/-- The sources of an archive that a reader opens. -/
def fromArchiveBy (r : Archive.Reader) (c : Config) (archive : String) (bytes : List UInt8) : Taken :=
  match languageOf c with
  | .error e => (.error e, [])
  | .ok l =>
    match r bytes with
    | .error damage => (.error (archiveFailure archive none damage), [])
    | .ok ms => fromMembers c l archive ms

/-- The sources of an archive. -/
def fromArchive : Config → String → List UInt8 → Taken := fromArchiveBy Zip.members

/-! ## Single files and uploads -/

/-- A single file as a source. -/
def single (name : String) (bytes : List UInt8) : Taken :=
  let (text, notes) := decode name bytes
  (.ok (text.map fun t => ⟨name, t⟩).toList, notes)

/-- Characters that end in `.zip`, in capital letters or not. -/
def isZipName (name : List Char) : Bool :=
  ['.', 'z', 'i', 'p'].isSuffixOf (Characters.lower name)

/-- The sources of an upload: of an archive that a reader opens, or of a single file. -/
def fromUploadBy (r : Archive.Reader) (c : Config) (fileName : String) (bytes : List UInt8) : Taken :=
  let name := (Path.ofString (Source.slashed fileName)).name
  if name.isEmpty then
    (.error (.error (.invalidPath (Path.ofString fileName).text "upload has no file name")), [])
  else if isZipName name then fromArchiveBy r c (String.ofList name) bytes
  else
    match languageOf c with
    | .error e => (.error e, [])
    | .ok l =>
      if l.matchesName name then single (String.ofList name) bytes
      else
        (.ok [], [⟨.info, "Upload " ++ String.ofList name ++ " is not a " ++ l.name ++
          " source file"⟩])

/-- The sources of an upload. -/
def fromUpload : Config → String → List UInt8 → Taken := fromUploadBy Zip.members

/-! ## Directories -/

/-- What can be seen of a file in a directory. -/
structure Found where
  /-- The segments from the directory. -/
  segments : List (List Char)
  /-- The path by which it is used. -/
  shown : String
  /-- What stands there. -/
  node : Node

/-- The record of a file that cannot be used. -/
def unusable (what path why : String) : Log.Record :=
  ⟨.warning, "Cannot " ++ what ++ " " ++ path ++ ": " ++ why⟩

/-- Deals with the files of a directory in order, after the sources taken, the last one first. -/
def files (c : Config) (l : Language) (directory : String) :
    List Source → List Found → Taken
  | taken, [] => (.ok taken.reverse, [])
  | taken, f :: rest =>
    let path : Path := ⟨0, f.segments⟩
    let denied := Workspace.Refusal.message f.shown .denied
    let passing (notes : List Log.Record) : Taken :=
      let (result, more) := files c l directory taken rest
      (result, notes ++ more)
    match f.node with
    | .file bytes readable sized =>
      if !sized then passing [unusable "stat" path.text denied]
      else
        match accepts c l path bytes.length with
        | .error e => (.error (.fault e), [])
        | .ok (false, notes) => passing notes
        | .ok (true, _) =>
          if isFull c taken.length then (.ok taken.reverse, [stopping c directory])
          else if !readable then passing [unusable "read" path.text denied]
          else
            let (text, notes) := decode path.text bytes
            let (result, more) := files c l directory
              ((text.map fun t => (⟨path.text, t⟩ : Source)).toList ++ taken) rest
            (result, notes ++ more)
    | _ => passing []

/-- The sources of a directory. -/
def fromDirectory (c : Config) (l : Language) (w : Workspace) (target : Path) (place : Place) :
    Taken :=
  let found := (w.filesUnder place).map fun (segments, node) =>
    (⟨segments, (target.under ⟨0, segments⟩).text, node⟩ : Found)
  match files c l target.text [] found with
  | (.ok sources, notes) => (.ok sources, notes ++ [summary target.text l sources.length])
  | failed => failed

/-! ## Targets -/

/-- The reason for which a target that is neither of the three is refused. -/
def unknownTarget (l : Language) : String :=
  "not a directory, .zip archive or " ++ l.name ++ " source file"

/-- The sources of a target: a directory, an archive or a single file. -/
def collect (c : Config) (w : Workspace) (target : Path) : Taken :=
  match languageOf c with
  | .error e => (.error e, [])
  | .ok l =>
    let name := String.ofList target.name
    let reading (use : List UInt8 → Taken) : Taken :=
      match w.read target with
      | .error why => (.error (.error (.fileAccess target.text why)), [])
      | .ok bytes => use bytes
    match w.find? target with
    | none => (.error (.error (.invalidPath target.text "path does not exist")), [])
    | some (place, .directory) => fromDirectory c l w target place
    | some _ =>
      if String.ofList (Language.suffixOf target.name) = ".zip" then
        reading (fromArchive c name)
      else if l.matchesName target.name then reading (single name)
      else (.error (.error (.invalidPath target.text (unknownTarget l))), [])

end Maintainability.Intake
