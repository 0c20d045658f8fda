/-
Means of doubles. The sum is taken pairwise: a short list from left to right, a medium one in eight
interleaved lanes, a long one as the sum of its halves. So the rounding errors of a long list stay
small, and the same list always has the same mean.
-/
import Maintainability.Number.Binary64

namespace Maintainability.Mean

/-- Adds up from left to right. -/
def serial (start : Float) (xs : List Float) : Float := xs.foldl (· + ·) start

/-- Adds the lanes two by two. -/
def joinLanes : List Float → Float
  | [a, b, c, d, e, f, g, h] => ((a + b) + (c + d)) + ((e + f) + (g + h))
  | lanes => serial 0.0 lanes

/-- Adds each full block of eight to the lanes; what is left over follows them. -/
def lanes (acc : List Float) (xs : List Float) : Float :=
  if 8 ≤ xs.length then lanes (List.zipWith (· + ·) acc (xs.take 8)) (xs.drop 8)
  else serial (joinLanes acc) xs
termination_by xs.length
decreasing_by simp only [List.length_drop]; omega

/-- Where a list is cut in two: near the middle, at a multiple of eight. -/
def half (n : Nat) : Nat := n / 2 - n / 2 % 8

theorem half_pos {n : Nat} (h : 128 < n) : 0 < half n := by unfold half; omega

theorem half_lt {n : Nat} (h : 128 < n) : half n < n := by unfold half; omega

/-- The pairwise sum. -/
def sum (xs : List Float) : Float :=
  if xs.length < 8 then
    match xs with
    | [] => 0.0
    | x :: rest => serial x rest
  else if xs.length ≤ 128 then lanes (xs.take 8) (xs.drop 8)
  else sum (xs.take (half xs.length)) + sum (xs.drop (half xs.length))
termination_by xs.length
decreasing_by
  · have := half_lt (n := xs.length) (by omega)
    simp only [List.length_take]; omega
  · have := half_pos (n := xs.length) (by omega)
    simp only [List.length_drop]; omega

/-- The mean; 0 for no values. -/
def of (xs : List Float) : Float :=
  if xs.isEmpty then 0.0 else sum xs / Binary64.ofInt xs.length

end Maintainability.Mean
