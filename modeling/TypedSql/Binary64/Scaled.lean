import TypedSql.Binary64.Basic

/-!
# Numbers from digits and a power of ten

A significand of 64 bits is rounded to a binary number first and then multiplied or divided by the
binary number nearest to the power of ten. Each step rounds by itself, so that the result may differ
from the number nearest to the decimal by a unit in the last place.
-/

namespace TypedSql.Binary64

/-- The largest exponent of a power of ten that is a finite number. -/
def maxPower : Nat := 308

/-- The number nearest to `10 ^ k`. -/
def powerOfTen (k : Nat) : Option Binary64 := ofRatio false (tenTo k) 1

/-- `x / 10 ^ k`, in steps of the largest power of ten. -/
def divPower (x : Binary64) (k : Nat) : Option Binary64 :=
  if k ≤ maxPower then (powerOfTen k).bind x.div
  else if x.isZero then some x
  else do
    let largest ← powerOfTen maxPower
    let y ← x.div largest
    divPower y (k - maxPower)
termination_by k
decreasing_by simp [maxPower] at *; omega

/-- The number `significand * 10 ^ exponent`; `none` if it is too large. -/
def ofScaled (negative : Bool) (significand : Nat) (exponent : Int) : Option Binary64 := do
  let x ← ofRatio negative significand 1
  if exponent < 0 then x.divPower (-exponent).toNat
  else if exponent.toNat ≤ maxPower then (powerOfTen exponent.toNat).bind x.mul
  else if x.isZero then some x
  else none

end TypedSql.Binary64
