import TypedSql.Power

/-!
# Binary floating-point numbers

Finite numbers of the format binary64 as `± significand * 2 ^ exponent`, with correct rounding of
ratios, products and quotients in whole numbers.
-/

namespace TypedSql

/-- The finite number `± significand * 2 ^ exponent`; zero has a sign as well. -/
structure Binary64 where
  negative : Bool
  significand : Nat
  exponent : Int
  deriving DecidableEq

namespace Binary64

/-- The smallest exponent, that of the subnormal numbers. -/
def minExponent : Int := -1074

/-- The largest exponent of a finite number. -/
def maxExponent : Int := 971

/-- `numerator / denominator` to the nearest whole number, a tie to the even one. -/
def roundToEven (numerator denominator : Nat) : Nat :=
  let q := numerator / denominator
  let r := numerator % denominator
  if 2 * r < denominator then q
  else if denominator < 2 * r then q + 1
  else if q % 2 = 0 then q
  else q + 1

/-- The ratio `numerator / denominator / 2 ^ exponent`. -/
def scaled (numerator denominator : Nat) (exponent : Int) : Nat × Nat :=
  if 0 ≤ exponent then (numerator, denominator * twoTo exponent.toNat)
  else (numerator * twoTo (-exponent).toNat, denominator)

/-- The number nearest to `numerator / denominator`, a tie to the even one; `none` if it is too
large. -/
def ofRatio (negative : Bool) (numerator denominator : Nat) : Option Binary64 :=
  if numerator = 0 then some ⟨negative, 0, minExponent⟩
  else
    let guess : Int := (numerator.log2 : Int) - denominator.log2 - 53
    let (n, d) := scaled numerator denominator guess
    let fitting := if n / d < twoTo 53 then guess else guess + 1
    let exponent := max minExponent fitting
    let (n, d) := scaled numerator denominator exponent
    let rounded := roundToEven n d
    let (significand, exponent) :=
      if rounded = twoTo 53 then (twoTo 52, exponent + 1) else (rounded, exponent)
    if exponent > maxExponent then none else some ⟨negative, significand, exponent⟩

/-- The magnitude of a number as a ratio. -/
def ratio (x : Binary64) : Nat × Nat :=
  if 0 ≤ x.exponent then (x.significand * twoTo x.exponent.toNat, 1)
  else (x.significand, twoTo (-x.exponent).toNat)

/-- The number with the other sign. -/
def neg (x : Binary64) : Binary64 := { x with negative := !x.negative }

/-- Whether a number is zero. -/
def isZero (x : Binary64) : Bool := x.significand = 0

/-- The product of two magnitudes, rounded. -/
def mul (x y : Binary64) : Option Binary64 :=
  let (xn, xd) := x.ratio
  let (yn, yd) := y.ratio
  ofRatio x.negative (xn * yn) (xd * yd)

/-- The quotient of two magnitudes, rounded. -/
def div (x y : Binary64) : Option Binary64 :=
  let (xn, xd) := x.ratio
  let (yn, yd) := y.ratio
  ofRatio x.negative (xn * yd) (xd * yn)

end Binary64

end TypedSql
