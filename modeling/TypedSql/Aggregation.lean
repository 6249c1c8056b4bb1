/-!
# Aggregation

Whether an expression is about single rows or about groups of rows. The level of an expression says
so, levels of operands combine to the level of the whole, and the levels of the items of a select
list decide the mode of a query.
-/

namespace TypedSql

/-- An aggregate function (`AggregationKind`); `group` marks an expression as a grouping key. -/
inductive Aggregate where
  | group
  | count
  | min
  | max
  | sum
  deriving DecidableEq

namespace Aggregate

/-- All aggregate functions. -/
def all : List Aggregate := [group, count, min, max, sum]

/-- `as_str`: the name of an aggregate function in expressions. -/
def name : Aggregate → String
  | group => "group"
  | count => "count"
  | min => "min"
  | max => "max"
  | sum => "sum"

/-- `from_str`: the aggregate function of a name. -/
def ofName? (name : String) : Option Aggregate := all.find? fun a => a.name = name

/-- The number of arguments of an aggregate function. -/
def arity (_ : Aggregate) : Nat := 1

end Aggregate

/-- What an expression is about (`ExprClass`): nothing but constants, the current row, or a group of
rows. -/
inductive Level where
  | constant
  | row
  /-- The first aggregate function of the expression is remembered. -/
  | aggregated (function : Aggregate)
  deriving DecidableEq

namespace Level

/-- Whether an expression is about a group of rows. -/
def isAggregated : Level → Bool
  | aggregated _ => true
  | _ => false

/-- `combine`: the level of an expression with operands of two levels; rows and groups do not
mix. -/
def combine : Level → Level → Option Level
  | constant, l => some l
  | l, constant => some l
  | row, row => some row
  | aggregated a, aggregated _ => some (aggregated a)
  | _, _ => none

/-- The level of an expression with operands of the given levels. -/
def combineAll (levels : List Level) : Option Level :=
  levels.foldl (fun level l => level.bind (·.combine l)) (some constant)

/-- The level given to an expression whose operands do not go together: that of the first aggregated
operand if there is one, and otherwise `row`. -/
def dominant (levels : List Level) : Level := (levels.find? isAggregated).getD row

end Level

/-- What the select list of a query has decided so far (`AggregationState`). -/
inductive SelectMode where
  | undecided
  | rows
  | aggregated (function : Aggregate)
  deriving DecidableEq

namespace SelectMode

/-- Whether the query is about groups of rows. -/
def isAggregated : SelectMode → Bool
  | aggregated _ => true
  | _ => false

/-- `accept`: the mode after an item of the given level; `none` if the item does not go with the
mode. -/
def accept : SelectMode → Level → Option SelectMode
  | mode, .constant => some mode
  | undecided, .row => some rows
  | undecided, .aggregated a => some (aggregated a)
  | rows, .row => some rows
  | aggregated a, .aggregated _ => some (aggregated a)
  | _, _ => none

end SelectMode

end TypedSql
