import TypedSql.Rule.Builtin.Oracle
import TypedSql.Rule.Builtin.Postgres

/-!
# The tables of both dialects
-/

namespace TypedSql

/-- The registrations of a dialect: those of both dialects first, then its own. -/
def registrations : Dialect → List Registration
  | .oracle => Builtin.shared .oracle ++ Builtin.oracle
  | .postgres => Builtin.shared .postgres ++ Builtin.postgres

/-- The table of Oracle. -/
def oracleTable : Except Fault RuleTable := RuleTable.build .oracle (registrations .oracle)

/-- The table of Postgres. -/
def postgresTable : Except Fault RuleTable := RuleTable.build .postgres (registrations .postgres)

/-- `registry`: the table of a dialect. -/
def registry : Dialect → Except Fault RuleTable
  | .oracle => oracleTable
  | .postgres => postgresTable

end TypedSql
