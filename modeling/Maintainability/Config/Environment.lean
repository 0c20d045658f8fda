/-
Configuration from the environment: one variable for each field, converted by the kind of the
field. An empty word or `none` means no value where none is allowed; a list is written with commas.
The values are free of surrogates.
-/
import Maintainability.Config
import Maintainability.Number.Literal

namespace Maintainability.Environment

/-- Variables and their values. -/
abbrev Variables := List (String × String)

/-- The value of a variable. -/
def get? (env : Variables) (name : String) : Option String :=
  (env.find? (·.1 == name)).map (·.2)

/-- How the word of a variable is read. -/
inductive Kind where
  /-- As it stands. -/
  | text
  /-- Without blanks around it. -/
  | word
  /-- A list with commas. -/
  | list
  /-- A truth value. -/
  | flag
  /-- An integer. -/
  | integer
  /-- A number. -/
  | number
  deriving DecidableEq, Repr

/-- The kind of a field. -/
def kindOf : Field → Kind
  | .language | .serverHost => .text
  | .excludePatterns => .list
  | .allowHiddenFiles => .flag
  | .maxFiles | .workers | .parallelThreshold | .serverPort => .integer
  | .maxFileSizeMb | .timeoutSeconds | .maxUploadMb | .maxTotalMb => .number
  | .verbosity => .word

/-- Fields that may have no value. -/
def isOptional (f : Field) : Bool := f == .workers || f == .timeoutSeconds

/-- Words for yes. -/
def yes : List String := ["true", "1", "yes", "on"]

/-- Words for no. -/
def no : List String := ["false", "0", "no", "off"]

/-- A word as it is compared: without blanks around it and in lower case. -/
def folded (raw : List Char) : String := String.ofList (Characters.lower (Characters.trim raw))

/-- Reads an integer. -/
def integer (raw : List Char) : Except String Value :=
  let word := Characters.trim raw
  match Literal.int? word with
  | some n =>
    if Literal.maxDigits < Literal.digitCount word then
      .error (Literal.tooLong (Literal.digitCount word))
    else .ok (.int n)
  | none =>
    .error ("invalid literal for int() with base 10: " ++
      String.ofList ((Quoted.string (String.ofList word)).toList.take 200))

/-- Reads a number. -/
def number (raw : List Char) : Except String Value :=
  let word := Characters.trim raw
  match Literal.real? word with
  | some x => .ok (.real x)
  | none => .error ("could not convert string to float: " ++ Quoted.string (String.ofList word))

/-- Reads a truth value. -/
def flag (raw : List Char) : Except String Value :=
  if yes.contains (folded raw) then .ok (.bool true)
  else if no.contains (folded raw) then .ok (.bool false)
  else .error ("expected a boolean, got " ++ Quoted.string (String.ofList raw))

/-- The items between commas, without blanks around them and without empty ones. -/
def items (raw : List Char) : List (List Char) :=
  ((Characters.splitOn ',' raw).map Characters.trim).filter (!·.isEmpty)

/-- Reads a word by its kind. -/
def convert (kind : Kind) (raw : List Char) : Except String Value :=
  match kind with
  | .text => .ok (.text (.ofChars raw))
  | .word => .ok (.text (.ofChars (Characters.trim raw)))
  | .list => .ok (.list ((items raw).map fun item => .text (.ofChars item)))
  | .flag => flag raw
  | .integer => integer raw
  | .number => number raw

/-- The value that a variable gives to a field, or why it gives none. -/
def valueOf (f : Field) (raw : List Char) : Except String Value :=
  if isOptional f ∧ (folded raw = "" ∨ folded raw = "none") then .ok .null
  else convert (kindOf f) raw

/-- The values that the environment gives to some fields, up to the first that it cannot give. -/
def collect (env : Variables) : List Field → Except Error Config.Table
  | [] => .ok []
  | f :: rest =>
    match get? env f.variableName with
    | none => collect env rest
    | some raw =>
      match valueOf f raw.toList with
      | .error why => .error (.general .any ("Invalid " ++ f.variableName ++ ": " ++ why) [])
      | .ok v => do
        let more ← collect env rest
        pure ((Text.ofString f.name, v) :: more)

/-- The values that the environment gives to the fields. -/
def table (env : Variables) : Except Error Config.Table := collect env Field.all

end Maintainability.Environment
