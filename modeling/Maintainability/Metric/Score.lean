/-
The maintainability index: 171 less 5.2 times the logarithm of the volume, 0.23 times the
complexity and 16.2 times the logarithm of the number of lines, rescaled so that 171 is 100,
cut off at 0 and rounded to two places. The logarithm of what is not positive counts as 0.
-/
import Maintainability.Number.Quantity

namespace Maintainability

/-- The larger of 0 and `x`; 0 for a NaN. -/
def floorZero (x : Float) : Float := if 0.0 < x then x else 0.0

/-- The maintainability index; `none` when the complexity is too large for a double. -/
def maintainability? (volume : Quantity) (complexity lines : Int) : Option Float := do
  let cc ← Binary64.ofInt? complexity
  let raw := 171.0 - 5.2 * volume.safeLog - 0.23 * cc
    - 16.2 * (Quantity.int (max lines 1)).safeLog
  pure (Decimal.roundTo 2 (floorZero (raw / 171.0 * 100.0)))

end Maintainability
