/-
Doubles in decimal. `shortest` gives the fewest digits that read back as the same double, the
nearest such digits among equals; `fixed` gives a number of places after the point, correctly
rounded with ties to even. `plain` is the layout of the reports: positional from 1e-4 up to 1e16,
an exponent of two digits at least beyond.
-/
import Maintainability.Number.Binary64

namespace Maintainability.Decimal

open Binary64

/-- The decimal digits of a natural number. -/
def digits (n : Nat) : List Char := Nat.toDigits 10 n

/-- `0.digits * 10 ^ point`: significant digits and where the point stands. -/
structure Scientific where
  /-- The digits, without leading or trailing zeros. -/
  digits : Nat
  /-- The number of digits. -/
  size : Nat
  /-- The position of the point relative to the first digit. -/
  point : Int
  deriving DecidableEq, Repr

/-- `n * 10 ^ e` as a quotient of naturals. -/
def powerRatio (n : Nat) (e : Int) : Nat × Nat :=
  if 0 ≤ e then (n * Nat.pow 10 e.toNat, 1) else (n, Nat.pow 10 (-e).toNat)

/-- The exponent `p` with `10 ^ (p - 1) ≤ num / den < 10 ^ p`, found from an estimate. -/
def pointOf (num den : Nat) : Int :=
  let estimate : Int := ((Int.ofNat num.log2 - Int.ofNat den.log2) * 30103).fdiv 100000
  let below (p : Int) : Bool := (powerRatio 1 p).1 * den ≤ num * (powerRatio 1 p).2
  let step (p : Int) : Int := if below p then p + 1 else p
  step (step (step (estimate - 1)))

/-- Drops trailing zeros of the digits. -/
def stripZeros : Nat → Nat → Nat → Nat × Nat
  | 0, n, size => (n, size)
  | fuel + 1, n, size =>
    if n % 10 = 0 ∧ 1 < size then stripZeros fuel (n / 10) (size - 1) else (n, size)

/-- The nearest decimal of `size` digits that reads back as the double with size `bits`, if one
does: both neighbours on that grid are tried. -/
def shortestOfSize? (num den bits : Nat) (point : Int) (size : Nat) : Option Scientific :=
  let e := point - size
  let (gn, gd) := powerRatio 1 e
  -- the value in units of the grid
  let (un, ud) := (num * gd, den * gn)
  let lo := un / ud
  let candidates := if 2 * (un % ud) ≤ ud then [lo, lo + 1] else [lo + 1, lo]
  let good (n : Nat) : Bool :=
    n != 0 && nearest? (powerRatio n e).1 (powerRatio n e).2 == some bits
  (candidates.find? good).map fun n =>
    -- a carry can give one digit more
    let (n, size, point) :=
      if Nat.pow 10 size ≤ n then (n / 10, size, point + 1) else (n, size, point)
    let (n, size) := stripZeros size n size
    ⟨n, size, point⟩

/-- The fewest digits that read back as `x`, for `x` finite and not zero. -/
def shortest (x : Float) : Scientific :=
  let (num, den) := (Parts.of x).ratio
  let bits := x.toBits.toNat % Nat.pow 2 63
  let point := pointOf num den
  let found := (List.range 17).findSome? fun i => shortestOfSize? num den bits point (i + 1)
  found.getD ⟨0, 1, 1⟩

/-- The sign bit of a double. -/
def isNegative (x : Float) : Bool := Nat.pow 2 63 ≤ x.toBits.toNat

/-- An exponent with its sign and two digits at least. -/
def exponentText (e : Int) : List Char :=
  let ds := digits e.natAbs
  (if e < 0 then '-' else '+') :: (if ds.length < 2 then '0' :: ds else ds)

/-- The layout of significant digits: positional while the first digit stands no more than four
places behind the point and no more than sixteen before it, otherwise with an exponent. -/
def Scientific.layout (s : Scientific) : List Char :=
  let ds := Decimal.digits s.digits
  if -4 < s.point ∧ s.point ≤ 16 then
    if s.point ≤ 0 then '0' :: '.' :: (List.replicate (-s.point).toNat '0' ++ ds)
    else
      let k := s.point.toNat
      if ds.length ≤ k then ds ++ List.replicate (k - ds.length) '0' ++ ['.', '0']
      else ds.take k ++ '.' :: ds.drop k
  else
    let mantissa := match ds with
      | [] => []
      | [d] => [d]
      | d :: rest => d :: '.' :: rest
    mantissa ++ 'e' :: exponentText (s.point - 1)

/-- A double as the reports write it. -/
def plain (x : Float) : String :=
  if x.isNaN then "nan"
  else
    let sign := if isNegative x then ['-'] else []
    if !isFinite x then String.ofList (sign ++ ['i', 'n', 'f'])
    else if (Parts.of x).significand = 0 then String.ofList (sign ++ ['0', '.', '0'])
    else String.ofList (sign ++ (shortest x).layout)

/-- The size of a finite double in units of `10 ^ -places`, rounded to nearest, ties to even. -/
def unitsAt (places : Nat) (x : Float) : Nat :=
  let (num, den) := (Parts.of x).ratio
  roundDiv (num * Nat.pow 10 places) den

/-- `units` of `10 ^ -places`, with a point before the last `places` digits. -/
def pointed (places units : Nat) : List Char :=
  let ds := digits (units % Nat.pow 10 places)
  if places = 0 then digits units
  else digits (units / Nat.pow 10 places) ++ '.' :: (List.replicate (places - ds.length) '0' ++ ds)

/-- A double with a fixed number of places after the point. -/
def fixed (places : Nat) (x : Float) : String :=
  if x.isNaN then "nan"
  else
    let sign := if isNegative x then ['-'] else []
    if !isFinite x then String.ofList (sign ++ ['i', 'n', 'f'])
    else String.ofList (sign ++ pointed places (unitsAt places x))

/-- A double rounded to a number of places: the double nearest the rounded decimal. -/
def roundTo (places : Nat) (x : Float) : Float :=
  if !isFinite x then x else ofRatio (isNegative x) (unitsAt places x) (Nat.pow 10 places)

end Maintainability.Decimal
