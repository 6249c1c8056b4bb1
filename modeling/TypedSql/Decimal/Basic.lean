import TypedSql.Power
import TypedSql.Text.Numeral

/-!
# Decimal numbers

A decimal number is a sign and a whole coefficient of at most 96 bits, divided by a power of ten.
Numbers of equal value with different scales, such as `1.5` and `1.50`, are different decimals. A
zero may have a minus sign too: it is what is left of a small negative number that is rounded.
-/

namespace TypedSql

/-- The largest coefficient of a decimal, one less than two to the power of 96. -/
def Decimal.maxCoefficient : Nat := 79228162514264337593543950335

/-- The largest scale of a decimal. -/
def Decimal.maxScale : Nat := 28

/-- The decimal number `coefficient / 10 ^ scale` with its sign. -/
structure Decimal where
  /-- Whether the sign is minus. -/
  negative : Bool
  /-- The digits. -/
  coefficient : Nat
  /-- The number of digits behind the point. -/
  scale : Nat
  coefficient_le : coefficient ≤ Decimal.maxCoefficient
  scale_le : scale ≤ Decimal.maxScale
  deriving DecidableEq

namespace Decimal

/-- The decimal of a sign, a coefficient and a scale, if both numbers are in range. -/
def ofParts? (negative : Bool) (coefficient scale : Nat) : Option Decimal :=
  if h : coefficient ≤ maxCoefficient ∧ scale ≤ maxScale then
    some ⟨negative, coefficient, scale, h.1, h.2⟩
  else
    none

/-- The coefficient with the sign of the decimal. -/
def signed (d : Decimal) : Int :=
  if d.negative then -(d.coefficient : Int) else d.coefficient

/-- Whether two decimals have the same value. -/
def SameValue (a b : Decimal) : Prop :=
  a.signed * (tenTo b.scale : Int) = b.signed * (tenTo a.scale : Int)

instance (a b : Decimal) : Decidable (a.SameValue b) :=
  inferInstanceAs (Decidable (_ = _))

/-- The digits of a decimal without its sign, with all places of its scale. -/
def magnitudeChars (d : Decimal) : List Char :=
  if d.scale = 0 then Nat.toDigits 10 d.coefficient
  else
    Nat.toDigits 10 (d.coefficient / tenTo d.scale) ++
      '.' :: Text.padded d.scale (d.coefficient % tenTo d.scale)

/-- A decimal with all places of its scale. -/
def chars (d : Decimal) : List Char :=
  if d.negative then '-' :: d.magnitudeChars else d.magnitudeChars

/-- A decimal with all places of its scale. -/
def text (d : Decimal) : String := String.ofList d.chars

end Decimal

end TypedSql
