import TypedSql.Binary64.Basic

/-!
# Shortest digits

The shortest decimal that reads back as a given binary number; of several such decimals the nearest,
and of two that are equally near the one with the even last digit. A decimal reads back if it lies
in the interval between the midpoints to the two neighbours of the number; the ends of the interval
belong to it if the significand is even.
-/

namespace TypedSql.Binary64

/-- A decimal `0.d₁d₂… * 10 ^ (first + 1)`: its digits and the exponent of the first one. -/
structure Digits where
  digits : List Char
  first : Int

/-- Compares a ratio with `10 ^ k`: whether it is at least that. -/
def reaches (numerator denominator : Nat) (k : Int) : Bool :=
  if 0 ≤ k then denominator * tenTo k.toNat ≤ numerator
  else denominator ≤ numerator * tenTo (-k).toNat

/-- The exponent of the first decimal digit of a positive number. -/
def firstExponent (x : Binary64) : Int :=
  let (n, d) := x.ratio
  let guess := ((x.significand.log2 : Int) + x.exponent) * 30103 / 100000
  if !reaches n d guess then guess - 1
  else if reaches n d (guess + 1) then guess + 1
  else guess

/-- Looks for a decimal with digits up to the place `10 ^ place` that reads back as `x`. All bounds
are multiples of a quarter of the last place of `x`. -/
def onGrid? (x : Binary64) (place : Int) : Option Nat :=
  let quarter := x.exponent - 2
  -- a multiple `k` of the quarter, in units of the place, as a ratio with the denominator `unit`
  let up := if 0 ≤ quarter then twoTo quarter.toNat else 1
  let down := if 0 ≤ quarter then 1 else twoTo (-quarter).toNat
  let shiftUp := if place < 0 then tenTo (-place).toNat else 1
  let shiftDown := if place < 0 then 1 else tenTo place.toNat
  let unit := down * shiftDown
  let at' (k : Nat) : Nat := k * up * shiftUp
  let middle := at' (4 * x.significand)
  let narrow := x.significand = twoTo 52 && minExponent < x.exponent
  let low := at' (4 * x.significand - (if narrow then 1 else 2))
  let high := at' (4 * x.significand + 2)
  let inside (c : Nat) : Bool :=
    if x.significand % 2 = 0 then low ≤ c * unit && c * unit ≤ high
    else low < c * unit && c * unit < high
  let below := middle / unit
  match inside below, inside (below + 1) with
  | true, true => some (roundToEven middle unit)
  | true, false => some below
  | false, true => some (below + 1)
  | false, false => none

/-- Removes the zeros at the end of a list of digits. -/
def dropZeros (digits : List Char) : List Char := (digits.reverse.dropWhile (· = '0')).reverse

/-- Tries one digit after the other, up to `fuel` digits; 17 digits always read back. -/
def search (x : Binary64) (first : Int) : Nat → Int → Digits
  | 0, _ => ⟨[], first⟩
  | fuel + 1, place =>
    match onGrid? x place with
    | some c =>
      let digits := Nat.toDigits 10 c
      ⟨dropZeros digits, place + digits.length - 1⟩
    | none => search x first fuel (place - 1)

/-- The shortest digits of a positive number. -/
def shortest (x : Binary64) : Digits :=
  let first := x.firstExponent
  search x first 18 first

/-- The digits of a number with a point: positional if the first digit stands for a power of ten
from -5 to 15, and otherwise one digit before the point and an exponent with its sign. -/
def magnitudeChars (x : Binary64) : List Char :=
  if x.isZero then ['0', '.', '0']
  else
    let ⟨digits, first⟩ := x.shortest
    if 0 ≤ first ∧ first ≤ 15 then
      let whole := first.toNat + 1
      let padding := List.replicate (whole - digits.length) '0'
      let fraction := digits.drop whole
      digits.take whole ++ padding ++ '.' :: (if fraction.isEmpty then ['0'] else fraction)
    else if -5 ≤ first ∧ first < 0 then
      '0' :: '.' :: List.replicate ((-first).toNat - 1) '0' ++ digits
    else
      let exponent := (if first < 0 then '-' else '+') :: Nat.toDigits 10 first.natAbs
      match digits with
      | [] => []
      | [d] => d :: 'e' :: exponent
      | d :: ds => d :: '.' :: ds ++ 'e' :: exponent

/-- The shortest text of a number. -/
def text (x : Binary64) : String :=
  String.ofList (if x.negative then '-' :: x.magnitudeChars else x.magnitudeChars)

end TypedSql.Binary64
