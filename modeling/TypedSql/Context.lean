import TypedSql.Rule.Registry
import TypedSql.Schema.Path

/-!
# Contexts

What the meaning of an expression depends on: the fields it may refer to, the rules for its
operators and calls, and how its literals are written.
-/

namespace TypedSql

/-- How literals go into SQL: as literals of the dialect, or as parameters that are bound to
placeholders. -/
inductive LiteralMode where
  | inline
  | bind
  deriving DecidableEq

/-- What the meaning of an expression depends on (`QueryContext`). -/
structure Context where
  schema : Schema
  rules : RuleTable
  literals : LiteralMode

namespace Context

/-- `new`: the context of a schema and the rules of a dialect, with literals inline. -/
def ofDialect (schema : Schema) (dialect : Dialect) : Except Fault Context := do
  let rules ← registry dialect
  .ok ⟨schema, rules, .inline⟩

/-- The dialect of a context. -/
def dialect (ctx : Context) : Dialect := ctx.rules.dialect

/-- `require_field`: the field that a path leads to. -/
def requireField (ctx : Context) (path : String) : Except Fault Field :=
  match ctx.schema.resolve? path with
  | some f => .ok f
  | none => .error (.unknownField path)

end Context

end TypedSql
