/-
Double-precision numbers as exact binary fractions. `Parts.of` splits a finite double into a sign,
a significand and a power of two; `ofRatio` is the double nearest a quotient of naturals, a tie
going to the even significand. Everything between is arithmetic on naturals.
-/
namespace Maintainability.Binary64

/-- The value `± significand * 2 ^ (exponent - 1074)`. -/
structure Parts where
  /-- The sign. -/
  negative : Bool
  /-- The significand, below `2 ^ 53`. -/
  significand : Nat
  /-- The exponent of its unit, above that of the least positive double. -/
  exponent : Nat
  deriving DecidableEq, Repr

/-- The parts of a finite double. -/
def Parts.of (x : Float) : Parts :=
  let w := x.toBits.toNat
  let negative : Bool := Nat.pow 2 63 ≤ w
  let fraction := w % Nat.pow 2 52
  let e := w / Nat.pow 2 52 % Nat.pow 2 11
  if e = 0 then ⟨negative, fraction, 0⟩ else ⟨negative, Nat.pow 2 52 + fraction, e - 1⟩

/-- The size of a finite double as a quotient of naturals. -/
def Parts.ratio (p : Parts) : Nat × Nat :=
  if 1074 ≤ p.exponent then (p.significand * Nat.pow 2 (p.exponent - 1074), 1)
  else (p.significand, Nat.pow 2 (1074 - p.exponent))

/-- The natural nearest `num / den`; a tie goes to the even neighbour. -/
def roundDiv (num den : Nat) : Nat :=
  let q := num / den
  let r := num % den
  if den < 2 * r then q + 1
  else if 2 * r < den then q
  else if q % 2 = 0 then q else q + 1

/-- Positive infinity. -/
def infinity : Float := Float.ofBits 0x7FF0000000000000

/-- Not a number. -/
def notANumber : Float := Float.ofBits 0x7FF8000000000000

/-- A finite double: neither an infinity nor a NaN. -/
def isFinite (x : Float) : Bool := x.toBits.toNat / Nat.pow 2 52 % Nat.pow 2 11 != 2047

/-- The size of the double nearest `num / den`, for positive `num` and `den`, as the 63 bits below
the sign; `none` when it is too large. -/
def nearest? (num den : Nat) : Option Nat :=
  -- the unit exponent that leaves 53 bits before the point, but not below the least one
  let guess : Int := Int.ofNat num.log2 - Int.ofNat den.log2 - 52
  let scaled (u : Nat) : Nat × Nat :=
    if 1074 ≤ u then (num, den * Nat.pow 2 (u - 1074)) else (num * Nat.pow 2 (1074 - u), den)
  let u₀ := (guess + 1074).toNat
  let u := if (scaled u₀).1 / (scaled u₀).2 < Nat.pow 2 52 then u₀ - 1
    else if Nat.pow 2 53 ≤ (scaled u₀).1 / (scaled u₀).2 then u₀ + 1 else u₀
  let m := roundDiv (scaled u).1 (scaled u).2
  let bits := if m < Nat.pow 2 52 then m else (u + 1) * Nat.pow 2 52 + (m - Nat.pow 2 52)
  if 2047 * Nat.pow 2 52 ≤ bits then none else some bits

/-- A double from its sign and the 63 bits below. -/
def ofSigned (negative : Bool) (bits : Nat) : Float :=
  Float.ofBits ((if negative then Nat.pow 2 63 else 0) + bits).toUInt64

/-- The double nearest `± num / den`; infinite when it is too large. -/
def ofRatio (negative : Bool) (num den : Nat) : Float :=
  if num = 0 then ofSigned negative 0
  else
    match nearest? num den with
    | some bits => ofSigned negative bits
    | none => if negative then -infinity else infinity

/-- The double nearest an integer, unless it is too large. -/
def ofInt? (n : Int) : Option Float :=
  if n = 0 then some (ofSigned false 0)
  else (nearest? n.natAbs 1).map (ofSigned (n < 0))

/-- The double nearest an integer; infinite when it is too large. -/
def ofInt (n : Int) : Float := ofRatio (n < 0) n.natAbs 1

end Maintainability.Binary64
