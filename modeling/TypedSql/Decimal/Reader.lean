import TypedSql.Decimal.Basic

/-!
# Reading decimals

A text is read as a plain decimal (`-12.50`) and, if that fails, in scientific form (`1.5e3`). A
plain decimal may hold underscores behind its first digit. Places that do not fit are rounded away
by looking at the first of them only, a five going up.
-/

namespace TypedSql.Decimal

/-- Why a text is no decimal. -/
inductive ReadFault where
  /-- There is no exponent, or it is no number. -/
  | failed
  | empty
  | unknownCharacter
  | twoPoints
  | leadingSeparator
  | noDigits
  | tooManyDigits
  | roundedOver
  /-- The exponent asks for more places than a decimal has. -/
  | scaleTooLarge (scale : Nat)
  | tooLarge
  deriving DecidableEq

/-- The wording of a fault. -/
def ReadFault.message : ReadFault → String
  | failed => "Failed to parse"
  | empty => "Invalid decimal: empty"
  | unknownCharacter => "Invalid decimal: unknown character"
  | twoPoints => "Invalid decimal: two decimal points"
  | leadingSeparator => "Invalid decimal: must start lead with a number"
  | noDigits => "Invalid decimal: no digits found"
  | tooManyDigits => "Invalid decimal: overflow from too many digits"
  | roundedOver => "Invalid decimal: overflow from mantissa after rounding"
  | scaleTooLarge scale => s!"Scale exceeds the maximum precision allowed: {scale} > 28"
  | tooLarge => "Number exceeds maximum value that can be represented."

/-- The fault of a character that cannot stand where it does. -/
def misplaced (c : Char) : ReadFault :=
  if c = '.' then .twoPoints else if c = '_' then .leadingSeparator else .unknownCharacter

/-- The value of a decimal digit. -/
def digitValue (c : Char) : Nat := c.toNat - '0'.toNat

/-- A magnitude: coefficient and scale. -/
abbrev Magnitude := Nat × Nat

/-- A magnitude whose first dropped digit is `digit`: a digit from 5 on rounds up. If the
coefficient has no room for that, one more place is given up, and there must be one. -/
def roundBy (coefficient scale digit : Nat) : Except ReadFault Magnitude :=
  if digit < 5 then .ok (coefficient, scale)
  else if coefficient + 1 ≤ maxCoefficient then .ok (coefficient + 1, scale)
  else if scale = 0 then .error .roundedOver
  else .ok ((coefficient + 1 + 4) / 10, scale - 1)

/-- Dropped places are digits and underscores. -/
def checkDropped (cs : List Char) : Except ReadFault Unit :=
  match cs.find? fun c => !(c.isDigit || c = '_') with
  | some c => .error (misplaced c)
  | none => .ok ()

/-- From this number on, a coefficient with one more digit may need more than 64 bits; the margin is
255. -/
def wideCoefficient : Nat := (UInt64.size - 1) / 10 - 255

/-- Drops the places that are left, rounding on the first of them. An underscore in front of them is
passed over if the coefficient was wide before its last digit, and is a zero otherwise. The rounding
has to succeed before the places behind it are looked at. -/
def roundAt (coefficient scale : Nat) : List Char → Except ReadFault Magnitude
  | [] => .ok (coefficient, scale)
  | c :: cs =>
    if c.isDigit then do
      let m ← roundBy coefficient scale (digitValue c)
      checkDropped cs
      pure m
    else if c = '_' then
      if wideCoefficient ≤ coefficient / 10 then roundAt coefficient scale cs
      else do
        checkDropped cs
        pure (coefficient, scale)
    else .error (misplaced c)

/-- Reads the digits of a plain decimal. The arguments are the coefficient and the scale so far,
whether the point has been passed and whether a digit has been seen. -/
def readMagnitude (coefficient scale : Nat) (point seen : Bool) :
    List Char → Except ReadFault Magnitude
  | [] => if seen then .ok (coefficient, scale) else .error .noDigits
  | c :: cs =>
    if point && scale ≥ maxScale then roundAt coefficient scale (c :: cs)
    else if c.isDigit then
      if coefficient * 10 + digitValue c ≤ maxCoefficient then
        readMagnitude (coefficient * 10 + digitValue c) (if point then scale + 1 else scale) point
          true cs
      else if point then roundAt coefficient scale (c :: cs)
      else .error .tooManyDigits
    else if c = '.' && !point then readMagnitude coefficient scale true seen cs
    else if c = '_' && seen then readMagnitude coefficient scale point seen cs
    else .error (misplaced c)

/-- The decimal of a sign and a magnitude. A zero is read without a sign. -/
def ofMagnitude (negative : Bool) : Magnitude → Except ReadFault Decimal
  | (coefficient, scale) =>
    match ofParts? (negative && coefficient ≠ 0) coefficient scale with
    | some d => .ok d
    | none => .error .tooLarge

/-- Reads a plain decimal. -/
def readPlain : List Char → Except ReadFault Decimal
  | [] => .error .empty
  | '-' :: cs => readMagnitude 0 0 false false cs >>= ofMagnitude true
  | '+' :: cs => readMagnitude 0 0 false false cs >>= ofMagnitude false
  | cs => readMagnitude 0 0 false false cs >>= ofMagnitude false

/-- Reads the digits of an exponent: a number of 32 bits, which may have a plus sign. -/
def readExponent (cs : List Char) : Except ReadFault Nat :=
  let digits := match cs with
    | '+' :: rest => rest
    | _ => cs
  match Text.natOfDigits? digits with
  | some n => if n < UInt32.size then .ok n else .error .failed
  | none => .error .failed

/-- The whole number nearest to a quotient; a half goes up. -/
def roundHalfUp (numerator denominator : Nat) : Nat :=
  (2 * numerator + denominator) / (2 * denominator)

/-- A decimal divided by a power of ten. Places beyond the last one are rounded away, a half away
from zero; the sign stays, even if nothing else does. -/
def shiftDown (d : Decimal) (exponent : Nat) : Except ReadFault Decimal :=
  if exponent > maxScale then .error (.scaleTooLarge exponent)
  else
    let excess := d.scale + exponent - maxScale
    match ofParts? d.negative (roundHalfUp d.coefficient (tenTo excess))
        (d.scale + exponent - excess) with
    | some r => .ok r
    | none => .error .tooLarge

/-- A decimal multiplied by a power of ten. -/
def shiftUp (d : Decimal) (exponent : Nat) : Except ReadFault Decimal :=
  if exponent ≤ d.scale then
    match ofParts? d.negative d.coefficient (d.scale - exponent) with
    | some r => .ok r
    | none => .error .tooLarge
  else if exponent > maxScale then .error (.scaleTooLarge exponent)
  else
    match ofParts? d.negative (d.coefficient * tenTo (exponent - d.scale)) 0 with
    | some r => .ok r
    | none => .error .tooLarge

/-- Whether a character separates the digits from the exponent. -/
def isExponentMark (c : Char) : Bool := c = 'e' || c = 'E'

/-- Reads a decimal in scientific form. -/
def readScientific (cs : List Char) : Except ReadFault Decimal :=
  match cs.dropWhile (!isExponentMark ·) with
  | [] => .error .failed
  | _ :: exponent => do
    let d ← readPlain (cs.takeWhile (!isExponentMark ·))
    match exponent with
    | '-' :: digits => do
      let e ← readExponent digits
      d.shiftDown e
    | _ => do
      let e ← readExponent exponent
      d.shiftUp e

/-- Reads a decimal; the fault is that of the scientific form. -/
def read (text : String) : Except ReadFault Decimal :=
  match readPlain text.toList with
  | .ok d => .ok d
  | .error _ => readScientific text.toList

end TypedSql.Decimal
