/-
Numbers as texts. An integer is written in decimal, unless it has too many digits. A number is written
with a fixed number of places after the point, unless it is an integer beyond the doubles.
-/
import Maintainability.Error
import Maintainability.Number.Quantity

namespace Maintainability

namespace Fault

/-- An integer with too many digits to be written. -/
def tooLong : Fault := ⟨.value, Literal.beyondLimit ""⟩

/-- A number that does not fit into a double. -/
def tooLarge : Fault := ⟨.overflow, "int too large to convert to float"⟩

end Fault

namespace Written

/-- An integer in decimal; fails when it has too many digits. -/
def int (n : Int) : Except Fault String :=
  if Literal.Short n then .ok (toString n) else .error .tooLong

theorem int_ok {n : Int} {s : String} : int n = .ok s ↔ Literal.Short n ∧ toString n = s := by
  rw [int]
  split
  · next h => simp [h]
  · next h => simp [h]

theorem int_error {n : Int} {f : Fault} : int n = .error f ↔ ¬ Literal.Short n ∧ f = .tooLong := by
  rw [int]
  split
  · next h => simp [h]
  · next h => simp [h, eq_comm]

end Written

namespace Quantity

/-- A number as a double; fails when there is none near it. -/
def toFloat? : Quantity → Except Fault Float
  | .real x => .ok x
  | .int n => match Binary64.ofInt? n with
    | some x => .ok x
    | none => .error .tooLarge

/-- A number that is near a double, if it is not one. -/
def HasDouble (q : Quantity) : Prop := ∃ x, q.toFloat? = .ok x

theorem hasDouble_int {n : Int} : (int n).HasDouble ↔ (Binary64.ofInt? n).isSome = true := by
  cases h : Binary64.ofInt? n <;> simp [HasDouble, toFloat?, h]

theorem hasDouble_real {x : Float} : (real x).HasDouble := ⟨x, rfl⟩

theorem toFloat?_error {q : Quantity} {f : Fault} : q.toFloat? = .error f ↔ ¬ q.HasDouble ∧ f = .tooLarge := by
  cases q with
  | real x => simp [HasDouble, toFloat?]
  | int n => cases h : Binary64.ofInt? n <;> simp [HasDouble, toFloat?, h, eq_comm]

/-- A number with a fixed number of places; fails when no double is near it. -/
def fixed (places : Nat) (q : Quantity) : Except Fault String := do
  let x ← q.toFloat?
  pure (Decimal.fixed places x)

theorem fixed_ok {places : Nat} {q : Quantity} {s : String} :
    q.fixed places = .ok s ↔ ∃ x, q.toFloat? = .ok x ∧ Decimal.fixed places x = s := by
  simp [fixed, bind_eq_ok, pure, Except.pure]

theorem exists_fixed {places : Nat} {q : Quantity} : (∃ s, q.fixed places = .ok s) ↔ q.HasDouble := by
  simp only [fixed_ok, HasDouble]
  exact ⟨fun ⟨_, x, hx, _⟩ => ⟨x, hx⟩, fun ⟨x, hx⟩ => ⟨_, x, hx, rfl⟩⟩

theorem fixed_error {places : Nat} {q : Quantity} {f : Fault} :
    q.fixed places = .error f ↔ ¬ q.HasDouble ∧ f = .tooLarge := by
  simp [fixed, bind_eq_error, toFloat?_error, pure, Except.pure]

end Quantity

end Maintainability
