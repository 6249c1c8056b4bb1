import TypedSql.Calendar.Reader
import TypedSql.Decimal.Reader
import TypedSql.Diagnostic
import TypedSql.Expr.Maker
import TypedSql.Json.Printer
import TypedSql.Rule.Basic

/-!
# Faults

Why an operation was refused. In contrast to diagnostics, faults are for the caller: a document of
the wrong shape, an inconsistent table of rules, a step that does not fit the query. Each fault is a
cause; its wording is that of `Fault.message`.
-/

namespace TypedSql

/-- What the value of a constant should have been. -/
inductive Expected where
  | bool
  | integer
  | string
  | decimal
  deriving DecidableEq

/-- The word for an expected value. -/
def Expected.text : Expected → String
  | bool => "bool"
  | integer => "integer"
  | string => "string"
  | decimal => "decimal"

/-- Why an expression has the wrong shape. -/
inductive ShapeFault where
  /-- The text is no JSON. -/
  | notJson
  | notObject (value : Json)
  | noNodeType (value : Json)
  | unknownNodeType (name : String)
  | childrenNotArray (value : Json)
  | leafWithChildren (kind : Kind)
  | expected (what : Expected) (value : Json)
  | badDecimal (fault : Decimal.ReadFault) (value : Json)
  | badDate (fault : Calendar.ReadFault) (value : Json)
  | badDateTime (fault : Calendar.ReadFault) (value : Json)
  | childCount (kind : Kind) (needed got : Nat)
  | methodWithoutObject
  /-- An expression is made from the wrong number of operands. -/
  | operandCount (maker : Maker) (needed got : Nat)
  /-- A checked tree has no rule for a node that needs one. -/
  | noRule (description source : String)
  /-- A template refers to an operand that is not there. -/
  | missingChild (template : Template) (index : Nat)

/-- The name of an aggregate function with a capital. -/
def Aggregate.title : Aggregate → String
  | group => "Group"
  | count => "Count"
  | min => "Min"
  | max => "Max"
  | sum => "Sum"

/-- A maker in messages. -/
def Maker.text : Maker → String
  | unary op => "Unary(" ++ op.info.title ++ ")"
  | binary op => "Binary(" ++ op.info.title ++ ")"
  | ifElse => "IfElse"
  | func name => "Func(" ++ Json.quoted name ++ ")"
  | aggregate g => "Aggregate(" ++ g.title ++ ")"

/-- The wording of a shape fault. -/
def ShapeFault.message : ShapeFault → String
  | notJson => "invalid JSON"
  | notObject value => "expected a node object: " ++ value.compact
  | noNodeType value => "node without nodetype: " ++ value.compact
  | unknownNodeType name => "unknown node type '" ++ name ++ "'"
  | childrenNotArray value => "children must be an array: " ++ value.compact
  | leafWithChildren kind => kind.name ++ " node with children"
  | expected what value => what.text ++ " expected: " ++ value.compact
  | badDecimal fault value => "bad decimal (" ++ fault.message ++ "): " ++ value.compact
  | badDate fault value => "bad date (" ++ fault.message ++ "): " ++ value.compact
  | badDateTime fault value => "bad datetime (" ++ fault.message ++ "): " ++ value.compact
  | childCount kind needed got => kind.name ++ s!" node needs {needed} children, got {got}"
  | methodWithoutObject => "meth node without object"
  | operandCount maker needed got => maker.text ++ s!" takes {needed} operand(s), got {got}"
  | noRule description source => description ++ " `" ++ source ++ "` has no resolved rule"
  | missingChild template index =>
    "template `" ++ template.text ++ s!"` refers to missing child {index + 1}"

/-- Why a document is no schema. -/
inductive SchemaFault where
  /-- The text is no JSON. -/
  | notJson
  | notObject
  | noType (identifier : String)
  /-- A member of a field's entry has to be a string. -/
  | notString (member identifier : String)
  /-- A join needs a group, and a group needs a join. -/
  | joinOrGroup (identifier : String)
  | badEntry (identifier : String)
  deriving DecidableEq

/-- The wording of a schema fault. -/
def SchemaFault.message : SchemaFault → String
  | notJson => "invalid JSON"
  | notObject => "expected an object mapping field names to types"
  | noType identifier => "field '" ++ identifier ++ "' has no type"
  | notString member identifier => member ++ " of field '" ++ identifier ++ "' must be a string"
  | joinOrGroup identifier =>
    "field '" ++ identifier ++ "' needs both a join and a group object, or neither"
  | badEntry identifier => "field '" ++ identifier ++ "' must be a type name or an object"

/-- Why an operation was refused (`CompileError`). -/
inductive Fault where
  | unknownType (name : String)
  | unknownAggregate (name : String)
  | shape (fault : ShapeFault)
  /-- An aggregate function is called with the wrong number of arguments. -/
  | malformedAggregate (function : Aggregate) (count : Nat) (source : String)
  /-- An item of a select list does not go with the items before it. -/
  | mixedSelection (source : String)
  /-- Two rules have the same key and the same types. -/
  | duplicateRule (rule : Rule)
  /-- Two rules overlap, and no rule is for the overlap. -/
  | ambiguousRules (first second : Rule)
  | badTemplate (operator : Operator) (fault : Template.Fault)
  | unknownField (path : String)
  /-- A dotted path is used outside of a query. -/
  | unjoinedField (path : String)
  /-- A field refers to no group. -/
  | noReference (path : String)
  | badSchema (fault : SchemaFault)
  | unknownDialect (name : String)
  | badIdentifier (name : String)
  /-- An expression has errors. -/
  | unresolved (reports : List Report)

/-- The wording of a fault. -/
def Fault.message : Fault → String
  | unknownType name => "Unknown data type: '" ++ name ++ "'"
  | unknownAggregate name => "Value '" ++ name ++ "' is not a valid AggregationKind"
  | shape fault => "Unsupported AST shape: " ++ fault.message
  | malformedAggregate function count source =>
    "Aggregation call is malformed: `" ++ source ++ s!"` passes {count} argument(s) to " ++
      function.name ++ s!", expected {function.arity}"
  | mixedSelection source =>
    "Can't mix aggregated and non-aggregated expressions: `" ++ source ++ "`"
  | duplicateRule rule => "Duplicate rule for " ++ rule.operator.text ++ ": " ++ rule.call
  | ambiguousRules first second =>
    "Ambiguous rules for " ++ first.operator.text ++ ": " ++ first.call ++ " and " ++ second.call ++
      " overlap without a narrower rule"
  | badTemplate operator fault =>
    "Invalid rule template for " ++ operator.text ++ ": " ++ fault.message
  | unknownField path => "Field '" ++ path ++ "' is unknown"
  | unjoinedField path => "Field '" ++ path ++ "' needs a query that joins its tables"
  | noReference path => "Field '" ++ path ++ "' does not refer to a group"
  | badSchema fault => "Invalid field schema: " ++ fault.message
  | unknownDialect name => "Unknown SQL dialect: '" ++ name ++ "'"
  | badIdentifier name => "'" ++ name ++ "' is not a valid SQL identifier"
  | unresolved reports =>
    "Expression has errors" ++ String.join (reports.map fun report => "\n  " ++ report.text)

end TypedSql
