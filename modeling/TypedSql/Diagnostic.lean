import TypedSql.Expr.Source

/-!
# Diagnostics

What is wrong with an expression, for its author to mend. A diagnostic belongs to one node of the
expression; a report adds where that node stands in the source text.
-/

namespace TypedSql

/-- The kind of a diagnostic. -/
inductive DiagnosticKind where
  /-- Operands have errors of their own. -/
  | operandErrors
  /-- There is no rule for the types of the operands. -/
  | operandTypes
  | unknownField
  | unknownName
  /-- An aggregate, or a grouping key, contains an aggregate. -/
  | nestedAggregate
  /-- Operands about rows and operands about groups are mixed. -/
  | mixedLevels
  /-- A condition on rows contains an aggregate. -/
  | aggregateCondition
  deriving DecidableEq

/-- The name of a kind. -/
def DiagnosticKind.name : DiagnosticKind → String
  | operandErrors => "subnodeerror"
  | operandTypes => "subnodetypes"
  | unknownField => "field"
  | unknownName => "name"
  | nestedAggregate => "aggregate_nested"
  | mixedLevels => "aggregate_mixed"
  | aggregateCondition => "aggregate_where"

/-- What is wrong with a node. The texts are those of the node: its description and its source. -/
inductive Diagnostic where
  | operandErrors (description source : String)
  | operandTypes (description source signature : String)
  | unknownField (path source : String)
  /-- The name of a function, a method or an attribute is unknown. -/
  | unknownName (what name source : String)
  | nestedAggregate (source : String)
  | aggregateKey (source : String)
  | mixedLevels (description source : String)
  | aggregateCondition (source : String)
  deriving DecidableEq

/-- `lowercase_first`: a text with its first letter in lower case. -/
def lowerFirst (text : String) : String :=
  match text.toList with
  | [] => text
  | c :: cs => String.ofList (c.toLower :: cs)

namespace Diagnostic

/-- The kind of a diagnostic. -/
def kind : Diagnostic → DiagnosticKind
  | operandErrors _ _ => .operandErrors
  | operandTypes _ _ _ => .operandTypes
  | unknownField _ _ => .unknownField
  | unknownName _ _ _ => .unknownName
  | nestedAggregate _ => .nestedAggregate
  | aggregateKey _ => .nestedAggregate
  | mixedLevels _ _ => .mixedLevels
  | aggregateCondition _ => .aggregateCondition

/-- The wording of a diagnostic. -/
def message : Diagnostic → String
  | operandErrors description source =>
    "Subexpressions of " ++ lowerFirst description ++ " `" ++ source ++ "` have errors."
  | operandTypes description source signature =>
    description ++ " `" ++ source ++ "` uses unsupported types of operands: " ++ signature ++ "."
  | unknownField path source => "Field `" ++ path ++ "` in `" ++ source ++ "` is unknown."
  | unknownName what name source =>
    "Unknown " ++ what ++ " name `" ++ name ++ "` in `" ++ source ++ "`."
  | nestedAggregate source => "Aggregate call `" ++ source ++ "` contains another aggregate."
  | aggregateKey source => "Group key `" ++ source ++ "` must not use aggregates."
  | mixedLevels description source =>
    description ++ " `" ++ source ++ "` mixes aggregated and non-aggregated operands."
  | aggregateCondition source => "Condition `" ++ source ++ "` must not use aggregates."

/-- `is_root_cause`: whether a diagnostic is not just the consequence of another one. -/
def isRootCause (d : Diagnostic) : Bool := d.kind ≠ .operandErrors

end Diagnostic

/-- A diagnostic with the source text of its node and where that stands (`Reported`). -/
structure Report where
  diagnostic : Diagnostic
  source : String
  span : Option Span
  deriving DecidableEq

namespace Report

/-- The report of a diagnostic of a node. -/
def ofNode (n : Node) (d : Diagnostic) : Report := ⟨d, n.source, n.span⟩

/-- A report as one line of text. -/
def text (r : Report) : String :=
  match r.span with
  | some span => s!"[{span.start}..{span.stop}] " ++ r.diagnostic.message
  | none => r.diagnostic.message

end Report

/-- The label of an operand's type; a question mark if it has none. -/
def labelAt (types : List DataType) (index : Nat) : String :=
  match types[index]? with
  | some t => t.label
  | none => "?"

/-- `signature`: a call with the types of its operands. -/
def Expr.signature {α : Type} (types : List DataType) : Expr α → String
  | unary op _ => op.symbol ++ labelAt types 0
  | binary op _ _ =>
    if op = .item then labelAt types 0 ++ "[" ++ labelAt types 1 ++ "]"
    else labelAt types 0 ++ " " ++ op.symbol ++ " " ++ labelAt types 1
  | ifElse _ _ _ => labelAt types 0 ++ " if " ++ labelAt types 1 ++ " else " ++ labelAt types 2
  | func name _ => name ++ "(" ++ String.intercalate ", " (types.map DataType.label) ++ ")"
  | aggregate g _ => g.name ++ "(" ++ String.intercalate ", " (types.map DataType.label) ++ ")"
  | meth _ name _ =>
    labelAt types 0 ++ "." ++ name ++ "(" ++
      String.intercalate ", " ((types.drop 1).map DataType.label) ++ ")"
  | attr _ name => labelAt types 0 ++ "." ++ name
  | const _ => String.intercalate ", " (types.map DataType.label)
  | field _ => String.intercalate ", " (types.map DataType.label)

namespace Node

/-- `subnode_error`: the operands of an expression have errors. -/
def operandErrors (n : Node) : Diagnostic := .operandErrors n.description n.source

/-- `subnode_types`: there is no rule for operands of the given types. -/
def operandTypes (n : Node) (types : List DataType) : Diagnostic :=
  .operandTypes n.description n.source (n.expr.signature types)

/-- `field_unknown`: the schema has no such field. -/
def unknownField (n : Node) (path : String) : Diagnostic := .unknownField path n.source

/-- `name_unknown`: there is no rule for the name that is called. -/
def unknownName (n : Node) : Diagnostic :=
  let what := match n.expr with
    | .meth _ _ _ => "method"
    | .attr _ _ => "attribute"
    | _ => "function"
  .unknownName what (n.value?.getD "") n.source

/-- `aggregate_nested`: an aggregate contains an aggregate. -/
def nestedAggregate (n : Node) : Diagnostic := .nestedAggregate n.source

/-- `aggregate_group`: a grouping key contains an aggregate. -/
def aggregateKey (n : Node) : Diagnostic := .aggregateKey n.source

/-- `aggregate_mixed`: operands about rows and operands about groups are mixed. -/
def mixedLevels (n : Node) : Diagnostic := .mixedLevels n.description n.source

/-- `aggregate_where`: a condition on rows contains an aggregate. -/
def aggregateCondition (n : Node) : Diagnostic := .aggregateCondition n.source

end Node

end TypedSql
