import TypedSql.Aggregation
import TypedSql.Binary64.Basic
import TypedSql.Binary64.Scaled
import TypedSql.Binary64.Shortest
import TypedSql.Calendar.Basic
import TypedSql.Calendar.Reader
import TypedSql.Checked.Basic
import TypedSql.Checked.Check
import TypedSql.Command.Arguments
import TypedSql.Command.Compile
import TypedSql.Command.Listing
import TypedSql.Command.Run
import TypedSql.Context
import TypedSql.DataType
import TypedSql.Decimal.Basic
import TypedSql.Decimal.Reader
import TypedSql.Diagnostic
import TypedSql.Dialect
import TypedSql.Expr.Equality
import TypedSql.Expr.Kind
import TypedSql.Expr.Maker
import TypedSql.Expr.Node
import TypedSql.Expr.Operator
import TypedSql.Expr.Source
import TypedSql.Expr.Vocabulary
import TypedSql.Fault
import TypedSql.Fragment.Basic
import TypedSql.Fragment.Emit
import TypedSql.Interchange.Decode
import TypedSql.Interchange.Encode
import TypedSql.Json.Basic
import TypedSql.Json.Printer
import TypedSql.Json.Reader
import TypedSql.Main
import TypedSql.Power
import TypedSql.Proofs.Answers
import TypedSql.Proofs.Binding
import TypedSql.Proofs.Building
import TypedSql.Proofs.Builtins
import TypedSql.Proofs.Checking
import TypedSql.Proofs.Composition
import TypedSql.Proofs.Conditionals
import TypedSql.Proofs.Conditions
import TypedSql.Proofs.Emission
import TypedSql.Proofs.EnclosedSql
import TypedSql.Proofs.Enclosure
import TypedSql.Proofs.Findings
import TypedSql.Proofs.FreshAliases
import TypedSql.Proofs.GroupKeys
import TypedSql.Proofs.Grouping
import TypedSql.Proofs.Injection
import TypedSql.Proofs.JoinedTables
import TypedSql.Proofs.Joins
import TypedSql.Proofs.Leaves
import TypedSql.Proofs.Levels
import TypedSql.Proofs.Lexemes
import TypedSql.Proofs.Lexing
import TypedSql.Proofs.Narrowing
import TypedSql.Proofs.OrderSuffixes
import TypedSql.Proofs.Origins
import TypedSql.Proofs.Outline
import TypedSql.Proofs.Paths
import TypedSql.Proofs.Printout
import TypedSql.Proofs.Quoting
import TypedSql.Proofs.ReadBack
import TypedSql.Proofs.Refusal
import TypedSql.Proofs.RefusedSteps
import TypedSql.Proofs.RepeatedSteps
import TypedSql.Proofs.Reports
import TypedSql.Proofs.Resolution
import TypedSql.Proofs.RoundTrip
import TypedSql.Proofs.SelectModes
import TypedSql.Proofs.Sequencing
import TypedSql.Proofs.Statements
import TypedSql.Proofs.Steps
import TypedSql.Proofs.StringLiterals
import TypedSql.Proofs.Sublanguage
import TypedSql.Proofs.TemplateReading
import TypedSql.Proofs.Templates
import TypedSql.Proofs.Transfer
import TypedSql.Proofs.Unambiguity
import TypedSql.Proofs.Widening
import TypedSql.Query.Basic
import TypedSql.Query.Join
import TypedSql.Query.Order
import TypedSql.Query.Statement
import TypedSql.Query.Step
import TypedSql.Rule.Basic
import TypedSql.Rule.Builtin.Oracle
import TypedSql.Rule.Builtin.Postgres
import TypedSql.Rule.Builtin.Shared
import TypedSql.Rule.Registry
import TypedSql.Rule.Table
import TypedSql.Rule.Template
import TypedSql.Schema.Basic
import TypedSql.Schema.Path
import TypedSql.Schema.Reader
import TypedSql.Text.Blank
import TypedSql.Text.DecimalDigit
import TypedSql.Text.Keyed
import TypedSql.Text.Numeral
import TypedSql.Text.Replace
