/-
Totals of lists of numbers, added up from the right.
-/
namespace Maintainability

/-- The total of a list of numbers. -/
def total {α : Type} [Add α] [OfNat α 0] (xs : List α) : α := xs.foldr (· + ·) 0

@[simp] theorem total_nil {α : Type} [Add α] [OfNat α 0] : total ([] : List α) = 0 := rfl

@[simp] theorem total_cons {α : Type} [Add α] [OfNat α 0] (x : α) (xs : List α) :
    total (x :: xs) = x + total xs := rfl

theorem total_append {α : Type} [Add α] [Zero α] [Std.LawfulLeftIdentity (α := α) (· + ·) 0]
    [Std.Associative (α := α) (· + ·)] (xs ys : List α) : total (xs ++ ys) = total xs + total ys :=
  List.sum_append

end Maintainability
