/-
Forms: named parts, each a plain value or a file. In the header of a part the name of a file stands
in quotes, so a client writes quotes and controls in it by their numbers; a file without a name
arrives as a plain value.
-/
import Maintainability.Text.Quoted

namespace Maintainability

/-- A part of a form. -/
inductive Part where
  /-- A plain value. -/
  | value (name : String)
  /-- A file. -/
  | file (name : String) (fileName : String) (bytes : List UInt8)
  deriving Repr

namespace Part

/-- The name of a part. -/
def name : Part → String
  | .value n => n
  | .file n _ _ => n

/-- A part that holds a file. -/
def isFile : Part → Bool
  | .value _ => false
  | .file _ _ _ => true

/-- A character of the name of a file as the header of a part holds it. -/
def escape (c : Char) : List Char :=
  if c = '"' ∨ (c.toNat < 0x20 ∧ c.toNat ≠ 0x1B) then
    '%' :: (Quoted.hex 2 c.toNat).map Char.toUpper
  else [c]

/-- The last segment of a name that begins with a drive or a host; any other name as it is. -/
def withoutDrive (fileName : List Char) : List Char :=
  match fileName with
  | _ :: ':' :: '\\' :: _ | '\\' :: '\\' :: _ => (fileName.reverse.takeWhile (· ≠ '\\')).reverse
  | _ => fileName

/-- The part in which a client sends a file. -/
def ofFile (name fileName : String) (bytes : List UInt8) : Part :=
  if fileName.isEmpty then .value name
  else .file name (String.ofList (withoutDrive (fileName.toList.flatMap escape))) bytes

end Part

/-- The last part of a form with a name. -/
def lastPart? (name : String) (parts : List Part) : Option Part :=
  parts.reverse.find? (·.name == name)

end Maintainability
