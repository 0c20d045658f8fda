/-
Loading a configuration. The sources are merged in order, a later one overriding an earlier one:
the file in the home directory, the file in the working directory, the file that was named, the
environment, and what the caller says. Where the caller says nothing, the other sources count.
-/
import Maintainability.Config.Toml
import Maintainability.Text.Utf8
import Maintainability.Workspace

namespace Maintainability.Config

/-- The name of the configuration file of a project. -/
def fileName : String := "codecomplexity.toml"

/-- A configuration file that cannot be used. -/
def badFile (label path why : String) : Failure :=
  .error (.general .any ("Invalid " ++ label ++ " '" ++ path ++ "': " ++ why) [])

/-- The fault of a document with a value that is nested too deep. -/
def overdeep : Fault := ⟨.recursion, "maximum recursion depth exceeded"⟩

/-- Reads the bytes of a configuration file. -/
def readTable (w : Workspace) (label path : String) (bytes : List UInt8) : Except Failure Table :=
  match Utf8.decode bytes with
  | .error e => .error (.fault ⟨.decoding, e.message⟩)
  | .ok cs =>
    match Toml.parse w.calls cs with
    | .ok members => .ok members
    | .error .malformed => .error (badFile label path (w.complaint cs))
    | .error (.tooLong digits) => .error (.badValue (Literal.tooLong digits))
    | .error .tooDeep => .error (.fault overdeep)

/-- The fault of a file that may not be looked up. -/
def barredFile (path : String) (r : Workspace.Refusal) : Fault := ⟨.system, r.message path⟩

/-- The table of a file at a place, empty if nothing is there. -/
def tableAt (w : Workspace) (label : String) (p : Place) : Except Failure Table :=
  match w.barred p with
  | some r => .error (.fault (barredFile (w.textOf p) r))
  | none =>
    match w.follow Workspace.maxSteps [] p with
    | none => .ok []
    | some (_, node) =>
      match Workspace.bytesOf (some node) with
      | .error r => .error (badFile label (w.textOf p) (r.message (w.textOf p)))
      | .ok bytes => readTable w label (w.textOf p) bytes

/-- A home directory that cannot be found. -/
def homeless : Fault := ⟨.runtime, "Could not determine home directory."⟩

/-- The place of the file in the home directory. -/
def homeFile (home : Place) : Place := home ++ ['.' :: fileName.toList]

/-- The place of the file of the project. -/
def projectFile (w : Workspace) : Place := w.current ++ [fileName.toList]

/-- The table of the file in the home directory. -/
def tableAtHome (w : Workspace) : Except Failure Table :=
  match w.home with
  | none => .error (.fault homeless)
  | some home => tableAt w "global config" (homeFile home)

/-- The table of the file that was named. -/
def tableNamed (w : Workspace) : Option Path → Except Failure Table
  | none => .ok []
  | some p =>
    match w.barred (w.placeOf p) with
    | some r => .error (.fault (barredFile p.text r))
    | none =>
      if !w.has p then .error (.error (.general .any ("Config file not found: " ++ p.text) []))
      else
        match w.read p with
        | .error why => .error (badFile "config file" p.text why)
        | .ok bytes => readTable w "config file" p.text bytes

/-- A switch of the caller sets the verbosity to its own name, unless its value counts as no. -/
def switched (name : String) (t : Table) : Table :=
  let key := Text.ofString name
  match t.get? key with
  | none => t
  | some v =>
    let t := if v.isFalsy then t
      else t.put (.ofString Field.verbosity.name) (.str name)
    t.filter (·.1 != key)

/-- The two switches set the verbosity, the later one with more force, and count for nothing
else. -/
def applySwitches (overrides : Table) : Table := switched "quiet" (switched "verbose" overrides)

/-- What the caller says, without what he leaves open. -/
def said (overrides : Table) : Table :=
  (applySwitches overrides).filter fun (_, v) => match v with
    | .null => false
    | _ => true

/-- All sources merged. -/
def merged (w : Workspace) (named : Option Path) (overrides : Table) : Except Failure Table := do
  let atHome ← tableAtHome w
  let inProject ← tableAt w "project config" (projectFile w)
  let explicit ← tableNamed w named
  match Environment.table w.environment with
  | .error e => .error (.error e)
  | .ok fromVariables =>
    pure ((((Table.merge [] atHome).merge inProject).merge explicit).merge fromVariables
      |>.merge (said overrides))

/-- The order of texts by code points. -/
def textLe (a b : Text) : Bool :=
  match a, b with
  | [], _ => true
  | _ :: _, [] => false
  | x :: xs, y :: ys => if x = y then textLe xs ys else decide (x.val < y.val)

/-- The complaint about names that are not fields. -/
def unknownKeys (names : List Text) : Error :=
  .general .any ("Invalid configuration: unknown keys " ++
    ", ".intercalate ((names.mergeSort textLe).map fun k => (Value.text k).plainText)) []

/-- What a reason is about: all that stands before its first blank. -/
def subject (reason : String) : String := String.ofList (reason.toList.takeWhile (· ≠ ' '))

/-- The fault of a value that cannot be shown. -/
def unshown : Value.Obstacle → Fault
  | .digits => ⟨.value, Literal.beyondLimit ""⟩
  | .nesting =>
    ⟨.recursion, "maximum recursion depth exceeded while getting the repr of an object"⟩

/-- A configuration from merged values, which can be shown if they are nested so many levels deep. -/
def ofMerged (levels : Nat) (t : Table) : Except Failure Config :=
  match unknownNames t with
  | k :: ks => .error (.error (unknownKeys (k :: ks)))
  | [] =>
    let c := ofTable t
    match c.broken? with
    | .error f => .error (.fault f)
    | .ok (some r) =>
      -- the complaint is about the name in front of the reason, and shows its merged value
      let key := subject r.reason
      let v := (t.get? (.ofString key)).getD .null
      match v.obstacle? levels with
      | some o => .error (.fault (unshown o))
      | none => .error (.error (.invalidConfig key v r.reason))
    | .ok none => .ok c

/-- Loads a configuration. -/
def load (w : Workspace) (named : Option Path) (overrides : Table) : Except Failure Config := do
  ofMerged w.levels (← merged w named overrides)

end Maintainability.Config
