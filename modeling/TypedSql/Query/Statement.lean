import TypedSql.Query.Step

/-!
# Statements

The text of a query. Each clause stands in lines of its own, with one indented line for each item.
The values of placeholders are collected in the order of the text.
-/

namespace TypedSql

namespace Query

/-- A generator for each item of a list, one after the other. -/
def emitEach {α : Type} (emit : α → Emit String) : List α → Emit (List String)
  | [] => pure []
  | item :: items => do
    let line ← emit item
    let lines ← emitEach emit items
    return line :: lines

/-- `push_lines`: a clause with its heading, and its lines with a separator between them. A clause
without lines is left out. -/
def clause (heading separator : String) (lines : List String) : String :=
  if lines.isEmpty then ""
  else heading ++ "\n" ++ String.intercalate (separator ++ "\n") lines ++ "\n"

/-- The line of an item of the select list. -/
def emitSelect (q : Query) (item : SelectItem) : Emit String := do
  let sql ← item.entry.emitWith (q.context.emitValue q.aliases)
  let note := match item.entry.comment? with
    | some note => " " ++ note
    | none => ""
  let aliasName := match item.aliasName with
    | some aliasName => " as " ++ aliasName
    | none => ""
  return "\t" ++ sql ++ note ++ aliasName

/-- The line of a table. -/
def tableLine (item : TableItem) : String :=
  match item.aliasName with
  | some aliasName => "\t" ++ item.sql ++ " " ++ aliasName
  | none => "\t" ++ item.sql

/-- The lines of the tables; a statement without tables may need one nevertheless. -/
def tableLines (q : Query) : List String :=
  if q.tables.isEmpty then (q.context.dialect.emptyFrom.map ("\t" ++ ·)).toList
  else q.tables.map tableLine

/-- The line of a condition; if there are several, each is put in parentheses. -/
def emitWhere (q : Query) (entry : Entry) : Emit String := do
  let sql ← entry.emitWith (q.context.emitCondition q.aliases)
  return if q.conditions.length > 1 then "\t(" ++ sql ++ ")" else "\t" ++ sql

/-- The line of a grouping key. -/
def emitGroupBy (q : Query) (entry : Entry) : Emit String := do
  let sql ← entry.emitWith (q.context.emitKey q.aliases)
  return "\t" ++ sql

/-- The line of an entry of the order. -/
def emitOrder (q : Query) (item : OrderItem) : Emit String := do
  let sql ← item.entry.emitWith (q.context.emitValue q.aliases)
  let direction := (item.direction.map Direction.suffix).getD ""
  let nulls := (item.nulls.map Nulls.suffix).getD ""
  return "\t" ++ sql ++ direction ++ nulls

/-- The comment line of a statement. -/
def commentLine (q : Query) : String :=
  match q.comment with
  | some text => TypedSql.comment text ++ "\n"
  | none => ""

/-- The lines that say which rows of the result are wanted. -/
def pageLines (q : Query) : String :=
  let offset := match q.offset with
    | some rows => "offset " ++ toString rows.toNat ++ " rows\n"
    | none => ""
  let limit := match q.limit with
    | some rows => "fetch next " ++ toString rows.toNat ++ " rows only\n"
    | none => ""
  offset ++ limit

/-- The text of a query. An empty select list is written as a constant. -/
def emitStatement (q : Query) : Emit String := do
  let items ← emitEach q.emitSelect q.select
  let conditions ← emitEach q.emitWhere q.conditions
  let keys ← emitEach q.emitGroupBy q.groupBy
  let order ← emitEach q.emitOrder q.orderBy
  return q.commentLine ++
    clause "select" "," (if items.isEmpty then ["\t42"] else items) ++
    clause "from" "," q.tableLines ++
    clause "where" " and" conditions ++
    clause "group by" "," keys ++
    clause "order by" "," order ++
    q.pageLines

/-- `sql`: the statement of a query, with the values of its placeholders. -/
def statement (q : Query) : Except Fault Fragment := q.emitStatement.toFragment

end Query

end TypedSql
