/-
Numbers as they are given: integers of any size and doubles. The two are compared by their exact
values, and NaN is less than nothing.
-/
import Maintainability.Number.Decimal

namespace Maintainability

/-- A number as it is given. -/
inductive Quantity where
  | int (n : Int)
  | real (x : Float)
  deriving Repr, Inhabited

namespace Quantity

open Binary64

/-- The exact value of a finite double as a quotient of an integer and a natural number. -/
def ratio (x : Float) : Int × Nat :=
  let p := Parts.of x
  let (num, den) := p.ratio
  (if p.negative then -(num : Int) else num, den)

/-- Strictly less, by exact values. -/
def less : Quantity → Quantity → Bool
  | .int m, .int n => m < n
  | .real x, .real y => x < y
  | .int m, .real y =>
    if y.isNaN then false
    else if !isFinite y then 0.0 < y
    else
      let (num, den) := ratio y
      m * den < num
  | .real x, .int n =>
    if x.isNaN then false
    else if !isFinite x then x < 0.0
    else
      let (num, den) := ratio x
      num < n * den

/-- Less or equal, by exact values; false for NaN. -/
def atMost : Quantity → Quantity → Bool
  | .real x, .real y => x ≤ y
  | .real x, q => !x.isNaN && !less q (.real x)
  | q, .real y => !y.isNaN && !less (.real y) q
  | .int m, .int n => m ≤ n

/-- The same number. -/
def same (a b : Quantity) : Bool := atMost a b && atMost b a

/-- `x ≤ 0`. -/
def isNonPositive (q : Quantity) : Bool := atMost q (.int 0)

/-- The natural logarithm. Of an integer beyond the doubles it is taken in two parts. -/
def log : Quantity → Float
  | .real x => x.log
  | .int n =>
    match ofInt? n with
    | some x => x.log
    | none =>
      -- a fraction in [1/2, 1) and a power of two
      let e := n.natAbs.log2 + 1
      Float.log (ofRatio (n < 0) n.natAbs (Nat.pow 2 e)) + Float.log 2.0 * ofInt e

/-- The natural logarithm, 0 for what is not positive. -/
def safeLog (q : Quantity) : Float := if q.isNonPositive then 0.0 else q.log

end Quantity

end Maintainability
