/-!
# Data types

The types of values in expressions. A value of one type may stand where a wider type of the same
chain is expected: `bool`, `int`, `number` form one chain, `str`, `clob` another, and so on. The
type `null` of the absent value belongs to no chain.
-/

namespace TypedSql

/-- The type of a value. -/
inductive DataType where
  | null
  | bool
  | int
  | number
  | str
  | clob
  | date
  | dateTime
  | dateDelta
  | dateTimeDelta
  | monthDelta
  deriving DecidableEq

/-- A family of types that are ordered by width. -/
inductive Chain where
  | numeric
  | text
  | moment
  | duration
  | months
  deriving DecidableEq

namespace DataType

/-- All types, in the order in which listings show them. -/
def all : List DataType :=
  [null, bool, int, number, str, clob, date, dateTime, dateDelta, dateTimeDelta, monthDelta]

/-- The name of a type in schemas. -/
def name : DataType → String
  | null => "null"
  | bool => "bool"
  | int => "int"
  | number => "number"
  | str => "str"
  | clob => "clob"
  | date => "date"
  | dateTime => "datetime"
  | dateDelta => "datedelta"
  | dateTimeDelta => "datetimedelta"
  | monthDelta => "monthdelta"

/-- `label`: the name of a type in signatures and messages, in capitals. -/
def label (t : DataType) : String := String.ofList (t.name.toList.map Char.toUpper)

/-- `from_name`: the type of a name. -/
def ofName? (name : String) : Option DataType := all.find? fun t => t.name = name

/-- `chain`: the chain of a type and its position there, from narrow to wide. -/
def chain : DataType → Option (Chain × Nat)
  | null => none
  | bool => some (.numeric, 0)
  | int => some (.numeric, 1)
  | number => some (.numeric, 2)
  | str => some (.text, 0)
  | clob => some (.text, 1)
  | date => some (.moment, 0)
  | dateTime => some (.moment, 1)
  | dateDelta => some (.duration, 0)
  | dateTimeDelta => some (.duration, 1)
  | monthDelta => some (.months, 0)

/-- `widens_to`: whether a value of type `a` may stand where type `b` is expected. -/
def widensTo (a b : DataType) : Bool :=
  a = b ||
    match a.chain, b.chain with
    | some (c₁, r₁), some (c₂, r₂) => c₁ = c₂ && r₁ ≤ r₂
    | _, _ => false

/-- `widen`: the narrowest type to which both types widen, where `null` gives way to any type. -/
def widen (a b : DataType) : Option DataType :=
  if a = b then some a
  else if a = null then some b
  else if b = null then some a
  else if a.widensTo b then some b
  else if b.widensTo a then some a
  else none

/-- `meet`: the widest type that widens to both types. -/
def meet (a b : DataType) : Option DataType :=
  if a.widensTo b then some a
  else if b.widensTo a then some b
  else none

end DataType

end TypedSql
