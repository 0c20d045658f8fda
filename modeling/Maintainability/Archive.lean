/-
Archives as a list of members. Each has a name, a declared size and a content, which may turn out
to be unreadable when it is asked for.
-/
import Maintainability.Error

namespace Maintainability.Archive

/-- Why an archive or a member cannot be read. -/
inductive Damage where
  /-- The archive breaks a rule of its format, or its content cannot be had from the system. -/
  | broken (why : String)
  /-- Something else stands in the way, which the intake does not expect. -/
  | beyond (fault : Fault)
  deriving Repr

/-- A member. -/
structure Member where
  /-- The name, as stored. -/
  name : String
  /-- The declared size of the content. -/
  size : Nat
  /-- The content. -/
  content : Unit → Except Damage (List UInt8)

/-- What opens an archive: its members, or why it cannot be opened. -/
abbrev Reader := List UInt8 → Except Damage (List Member)

/-- A member that is a directory. -/
def Member.isDirectory (m : Member) : Bool := m.name.toList.getLast? == some '/'

end Maintainability.Archive
