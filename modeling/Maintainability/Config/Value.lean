/-
Values of settings as they are written: in a file, in the environment or by a caller. A setting
keeps the kind of value that it was given, so an integer and a double of the same size differ.
-/
import Maintainability.Number.Decimal
import Maintainability.Number.Literal
import Maintainability.Text.Quoted

namespace Maintainability

/-- A calendar date. -/
structure Date where
  year : Nat
  month : Nat
  day : Nat
  deriving DecidableEq, Repr

/-- A time of day; `micros` are millionths of a second. -/
structure TimeOfDay where
  hour : Nat
  minute : Nat
  second : Nat
  micros : Nat
  deriving DecidableEq, Repr

/-- A value of a setting. -/
inductive Value where
  | null
  | bool (b : Bool)
  | int (n : Int)
  | real (x : Float)
  | text (t : Text)
  | list (items : List Value)
  | table (members : List (Text × Value))
  | date (d : Date)
  | time (t : TimeOfDay)
  /-- A date and time, with the minutes east of Greenwich if they are known. -/
  | moment (d : Date) (t : TimeOfDay) (offset : Option Int)
  deriving Repr, Inhabited

namespace Value

/-- A string as a value. -/
def str (s : String) : Value := .text (.ofString s)

/-- The word for the kind of a value, as messages use it. -/
def kindName : Value → String
  | .null => "NoneType"
  | .bool _ => "bool"
  | .int _ => "int"
  | .real _ => "float"
  | .text _ => "str"
  | .list _ => "list"
  | .table _ => "dict"
  | .date _ => "datetime.date"
  | .time _ => "datetime.time"
  | .moment _ _ _ => "datetime.datetime"

/-- A value that counts as no. -/
def isFalsy : Value → Bool
  | .null => true
  | .bool b => !b
  | .int n => n == 0
  | .real x => x == 0.0
  | .text t => t.isEmpty
  | .list xs => xs.isEmpty
  | .table kvs => kvs.isEmpty
  | _ => false

/-- The arguments that show a time; trailing zeros after the minutes are left out. -/
def timeArguments (t : TimeOfDay) : String :=
  toString t.hour ++ ", " ++ toString t.minute ++
    (if t.second = 0 ∧ t.micros = 0 then "" else ", " ++ toString t.second) ++
    (if t.micros = 0 then "" else ", " ++ toString t.micros)

/-- The arguments that show a date. -/
def dateArguments (d : Date) : String :=
  toString d.year ++ ", " ++ toString d.month ++ ", " ++ toString d.day

/-- The offset of a moment as messages show it. -/
def offsetText (minutes : Int) : String :=
  if minutes = 0 then "datetime.timezone.utc"
  else
    let days := minutes.fdiv 1440
    let seconds := minutes.fmod 1440 * 60
    "datetime.timezone(datetime.timedelta(" ++
      (if days = 0 then "" else "days=" ++ toString days ++ ", ") ++
      "seconds=" ++ toString seconds ++ "))"

mutual

/-- A value as messages show it. -/
def shown : Value → String
  | .null => "None"
  | .bool true => "True"
  | .bool false => "False"
  | .int n => toString n
  | .real x => Decimal.plain x
  | .text t => Quoted.text t
  | .list xs => "[" ++ ", ".intercalate (shownAll xs) ++ "]"
  | .table kvs => "\x7b" ++ ", ".intercalate (shownMembers kvs) ++ "\x7d"
  | .date d => "datetime.date(" ++ dateArguments d ++ ")"
  | .time t => "datetime.time(" ++ timeArguments t ++ ")"
  | .moment d t offset =>
    "datetime.datetime(" ++ dateArguments d ++ ", " ++ timeArguments t ++
      (match offset with
        | some m => ", tzinfo=" ++ offsetText m
        | none => "") ++ ")"

/-- Values as messages show them. -/
def shownAll : List Value → List String
  | [] => []
  | x :: xs => shown x :: shownAll xs

/-- Members as messages show them. -/
def shownMembers : List (Text × Value) → List String
  | [] => []
  | (k, v) :: rest => (Quoted.text k ++ ": " ++ shown v) :: shownMembers rest

end

/-- Why a value cannot be shown. -/
inductive Obstacle where
  /-- An integer in it has too many digits. -/
  | digits
  /-- Its parts are nested too deep. -/
  | nesting
  deriving DecidableEq, Repr

/-- The levels of parts below a moment: its zone, and in a zone other than Greenwich the offset. -/
def zoneLevels : Option Int → Nat
  | none => 0
  | some minutes => if minutes = 0 then 1 else 2

mutual

/-- The first obstacle to showing a value whose parts may be nested so many levels deep. -/
def obstacle? (levels : Nat) : Value → Option Obstacle
  | .int n => if Literal.Short n then none else some .digits
  | .list xs => itemsObstacle? levels xs
  | .table kvs => membersObstacle? levels kvs
  | .moment _ _ offset => if levels < zoneLevels offset then some .nesting else none
  | _ => none

/-- The first obstacle to showing the items of a list. -/
def itemsObstacle? (levels : Nat) : List Value → Option Obstacle
  | [] => none
  | x :: xs =>
    if levels = 0 then some .nesting
    else (obstacle? (levels - 1) x).or (itemsObstacle? levels xs)

/-- The first obstacle to showing the members of a table. -/
def membersObstacle? (levels : Nat) : List (Text × Value) → Option Obstacle
  | [] => none
  | (_, v) :: rest =>
    if levels = 0 then some .nesting
    else (obstacle? (levels - 1) v).or (membersObstacle? levels rest)

end

/-- A number as its text, without quotes; other values as they are shown. -/
def plainText : Value → String
  | .text t => t.toString?.getD (Quoted.text t)
  | v => v.shown

end Value

end Maintainability
