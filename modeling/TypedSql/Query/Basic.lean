import TypedSql.Fragment.Emit
import TypedSql.Query.Order

/-!
# Queries

A `select` statement that is put together step by step. Its parts are expressions that have been
checked, or plain SQL, which is taken as it is.
-/

namespace TypedSql

/-- A part of a query (`Expression`): an expression with the result of checking it, or plain
SQL. -/
inductive Entry where
  | expr (node : Node) (checked : Checked)
  | sql (text : String)

namespace Entry

/-- `key`: what an entry is recognised by, the source of an expression or the SQL itself. -/
def key : Entry → String
  | expr n _ => n.source
  | sql text => text

/-- `comment`: the comment behind an entry of a select list. -/
def comment? : Entry → Option String
  | expr n _ => some (comment n.source)
  | sql _ => none

/-- The SQL of an entry, where `emit` generates that of an expression. -/
def emitWith (emit : Node → Checked → Emit String) : Entry → Emit String
  | expr n c => emit n c
  | sql text => pure text

end Entry

/-- An item of a select list. -/
structure SelectItem where
  entry : Entry
  aliasName : Option String

/-- A table of a query. -/
structure TableItem where
  sql : String
  aliasName : Option String

/-- An entry of an order. -/
structure OrderItem where
  entry : Entry
  direction : Option Direction
  nulls : Option Nulls

/-- A query. -/
structure Query where
  context : Context
  /-- Whether the query is about rows or about groups of rows. -/
  mode : SelectMode := .undecided
  comment : Option String := none
  select : List SelectItem := []
  tables : List TableItem := []
  conditions : List Entry := []
  groupBy : List Entry := []
  orderBy : List OrderItem := []
  offset : Option UInt64 := none
  limit : Option UInt64 := none
  /-- The aliases of the tables that have been joined for dotted paths. -/
  aliases : Aliases := []

/-- Adds an entry to a list, unless an entry with the same key is there already. -/
def pushEntry (entries : List Entry) (entry : Entry) : List Entry :=
  if entries.any fun e => e.key = entry.key then entries else entries ++ [entry]

namespace Query

/-- `push_condition`: adds a condition. -/
def pushCondition (q : Query) (entry : Entry) : Query :=
  { q with conditions := pushEntry q.conditions entry }

/-- `push_group_by`: adds a grouping key. -/
def pushGroupKey (q : Query) (entry : Entry) : Query :=
  { q with groupBy := pushEntry q.groupBy entry }

/-- Adds a table. -/
def pushTable (q : Query) (item : TableItem) : Query := { q with tables := q.tables ++ [item] }

/-- Adds an item to the select list. -/
def pushSelect (q : Query) (item : SelectItem) : Query := { q with select := q.select ++ [item] }

/-- Adds an entry to the order. -/
def pushOrder (q : Query) (item : OrderItem) : Query := { q with orderBy := q.orderBy ++ [item] }

end Query

end TypedSql
