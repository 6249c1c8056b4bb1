import TypedSql.Binary64.Basic
import TypedSql.Text.Keyed

/-!
# JSON values

JSON values with objects whose members are in key order. A number is a whole number of 64 bits,
signed or not, or a binary floating-point number.
-/

namespace TypedSql

/-- A number of a JSON document. -/
inductive Json.Number where
  | whole (value : Int)
  | float (value : Binary64)
  deriving DecidableEq

/-- A JSON value. -/
inductive Json where
  | null
  | bool (value : Bool)
  | number (value : Json.Number)
  | str (value : String)
  | arr (items : List Json)
  | obj (members : List (String × Json))

namespace Json

/-- A whole number. -/
def ofInt (n : Int) : Json := .number (.whole n)

/-- A natural number. -/
def ofNat (n : Nat) : Json := .number (.whole n)

/-- A value, or null. -/
def ofOption {α : Type} (encode : α → Json) : Option α → Json
  | some a => encode a
  | none => .null

/-- The text of a string. -/
def str? : Json → Option String
  | .str s => some s
  | _ => none

/-- The truth value of a boolean. -/
def bool? : Json → Option Bool
  | .bool b => some b
  | _ => none

/-- A whole number in the range of 64 bits with sign. -/
def int64? : Json → Option Int64
  | .number (.whole n) =>
    if Int64.minValue.toInt ≤ n ∧ n ≤ Int64.maxValue.toInt then some (Int64.ofInt n) else none
  | _ => none

/-- A whole number in the range of 64 bits without sign. -/
def uint64? : Json → Option UInt64
  | .number (.whole n) =>
    if 0 ≤ n ∧ n < (UInt64.size : Int) then some (UInt64.ofNat n.toNat) else none
  | _ => none

/-- The members of an object. -/
def members? : Json → Option (List (String × Json))
  | .obj members => some members
  | _ => none

/-- The items of an array. -/
def items? : Json → Option (List Json)
  | .arr items => some items
  | _ => none

/-- The member of an object under a key. -/
def get? (key : String) : Json → Option Json
  | .obj members => Keyed.get? key members
  | _ => none

/-- An object of the given members, brought into key order. -/
def object (members : List (String × Json)) : Json := .obj (Keyed.ofList members)

end Json

end TypedSql
