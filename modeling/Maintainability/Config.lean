/-
A configuration: a value for every field, each of which obeys the rule of its field. Rules are
tried in a fixed order, and the first one that fails gives the reason. A value that cannot be
compared with a number is a fault of its own.
-/
import Maintainability.Config.Field
import Maintainability.Error
import Maintainability.Number.Quantity

namespace Maintainability

/-- The number that a value stands for; truth values count as 0 and 1. -/
def Value.number? : Value → Option Quantity
  | .bool b => some (.int (if b then 1 else 0))
  | .int n => some (.int n)
  | .real x => some (.real x)
  | _ => none

/-- A value for every field. -/
structure Config where
  /-- The value of a field. -/
  get : Field → Value

namespace Config

/-- The configuration when nothing is said. -/
def standard : Config := ⟨Field.default⟩

/-! ## Rules -/

/-- Two values whose order is not defined. -/
def unordered (op : String) (left right : String) : Fault :=
  ⟨.type, "'" ++ op ++ "' not supported between instances of '" ++ left ++ "' and '" ++ right ++
    "'"⟩

/-- Compares a value with a number. -/
def compare (op : String) (f : Quantity → Bool) (v : Value) : Except Fault Bool :=
  match v.number? with
  | some q => .ok (f q)
  | none => .error (unordered op v.kindName "int")

/-- Less than one. -/
def lessThanOne (v : Value) : Except Fault Bool := compare "<" (·.less (.int 1)) v

/-- Zero or less. -/
def atMostZero (v : Value) : Except Fault Bool := compare "<=" (·.atMost (.int 0)) v

/-- A port that is no port. -/
def badPort (v : Value) : Except Fault Bool :=
  match v.number? with
  | some q => .ok (!(Quantity.less (.int 0) q && q.less (.int 65536)))
  | none => .error (unordered "<" "int" v.kindName)

/-- No value passes, and a value only if the test does. -/
def unlessNull (test : Value → Except Fault Bool) : Value → Except Fault Bool
  | .null => .ok false
  | v => test v

/-- The levels of verbosity. -/
def verbosities : List String := ["quiet", "normal", "verbose"]

/-- Not one of the levels of verbosity. -/
def badVerbosity : Value → Bool
  | .text t => !(verbosities.map Text.ofString).contains t
  | _ => true

/-- A rule: its field, the test that must not succeed, and what the value must be. -/
structure Rule where
  /-- The field. -/
  field : Field
  /-- Whether a value breaks the rule. -/
  isBroken : Value → Except Fault Bool
  /-- What the value must be. -/
  demand : String

/-- The rules, in the order in which they are tried. -/
def rules : List Rule :=
  [⟨.language, fun v => .ok v.isFalsy, "must not be empty"⟩,
    ⟨.workers, unlessNull lessThanOne, "must be at least 1"⟩,
    ⟨.parallelThreshold, lessThanOne, "must be at least 1"⟩,
    ⟨.timeoutSeconds, unlessNull atMostZero, "must be positive"⟩,
    ⟨.maxFileSizeMb, atMostZero, "must be positive"⟩,
    ⟨.maxFiles, lessThanOne, "must be at least 1"⟩,
    ⟨.verbosity, fun v => .ok (badVerbosity v), "must be one of quiet, normal, verbose"⟩,
    ⟨.serverPort, badPort, "must be between 1 and 65535"⟩,
    ⟨.maxUploadMb, atMostZero, "must be positive"⟩,
    ⟨.maxTotalMb, atMostZero, "must be positive"⟩]

/-- The reason that a broken rule gives. -/
def Rule.reason (r : Rule) : String := r.field.name ++ " " ++ r.demand

/-- The first broken rule of some, if there is one. -/
def firstBroken (c : Config) : List Rule → Except Fault (Option Rule)
  | [] => .ok none
  | r :: rest => do
    if ← r.isBroken (c.get r.field) then pure (some r) else firstBroken c rest

/-- The first rule that a configuration breaks. -/
def broken? (c : Config) : Except Fault (Option Rule) := c.firstBroken rules

/-! ## Construction -/

/-- Named values. A later value for a name replaces an earlier one. -/
abbrev Table := List (Text × Value)

/-- The value of a name. -/
def Table.get? (t : Table) (name : Text) : Option Value := (t.find? (·.1 == name)).map (·.2)

/-- Sets the value of a name. -/
def Table.put (t : Table) (name : Text) (v : Value) : Table :=
  match t with
  | [] => [(name, v)]
  | (k, w) :: rest => if k = name then (k, v) :: rest else (k, w) :: Table.put rest name v

/-- Sets all values of another table. -/
def Table.merge (t other : Table) : Table := other.foldl (fun t (k, v) => t.put k v) t

/-- The fields of a table, and the standard values of those that it leaves out. -/
def ofTable (t : Table) : Config :=
  ⟨fun f => (t.get? (.ofString f.name)).getD f.default⟩

/-- The names of a table that are not fields. -/
def unknownNames (t : Table) : List Text :=
  (t.map (·.1)).filter fun k => !(Field.all.map fun f => Text.ofString f.name).contains k

/-- A configuration from named values, all of which must be fields. -/
def make (t : Table) : Except Failure Config :=
  match unknownNames t with
  | k :: _ =>
    .error (.fault ⟨.type, "unknown field " ++ Quoted.text k⟩)
  | [] =>
    let c := ofTable t
    match c.broken? with
    | .error f => .error (.fault f)
    | .ok (some r) => .error (.badValue r.reason)
    | .ok none => .ok c

/-! ## Derived values -/

/-- A finite double without its fraction. -/
def truncate (x : Float) : Int :=
  let (num, den) := Quantity.ratio x
  num.tdiv den

/-- A number of megabytes in bytes, without the fraction of a byte. -/
def bytesOf (v : Value) : Except Fault Int :=
  match v.number? with
  | some (.int n) => .ok (n * 1024 * 1024)
  | some (.real x) =>
    let y := x * 1024.0 * 1024.0
    if y.isNaN then .error ⟨.value, "cannot convert float NaN to integer"⟩
    else if !Binary64.isFinite y then
      .error ⟨.overflow, "cannot convert float infinity to integer"⟩
    else .ok (truncate y)
  | none => .error ⟨.type, "not a number: " ++ v.shown⟩

/-- The largest size of a file in bytes. -/
def maxFileBytes (c : Config) : Except Fault Int := bytesOf (c.get .maxFileSizeMb)

/-- The largest size of an upload in bytes. -/
def maxUploadBytes (c : Config) : Except Fault Int := bytesOf (c.get .maxUploadMb)

/-- The largest size of all sources of an archive in bytes. -/
def maxTotalBytes (c : Config) : Except Fault Int := bytesOf (c.get .maxTotalMb)

end Config

end Maintainability
