import TypedSql.Aggregation
import TypedSql.DataType
import TypedSql.Expr.Operator
import TypedSql.Rule.Template

/-!
# Rules

A rule maps a typed call to a result type and an SQL template, for instance `INT <- binop_add(INT,
INT): ({1} + {2})` or `STR <- meth(STR, lower): lower({1})`. Rules with the same operator and the
same name overload each other.
-/

namespace TypedSql

/-- What a rule is about. -/
inductive Operator where
  | unary (op : UnaryOp)
  | binary (op : BinaryOp)
  | func
  | meth
  | attr
  | aggregate (function : Aggregate)
  | ifElse
  deriving DecidableEq

/-- The name of an operator in listings and messages. -/
def Operator.text : Operator → String
  | unary op => "unop_" ++ op.name
  | binary op => "binop_" ++ op.name
  | func => "func"
  | meth => "meth"
  | attr => "attr"
  | aggregate g => "aggregate_" ++ g.name
  | ifElse => "ternop_if"

/-- An entry of a signature (`Sig`): the type of an operand, or the name of what is called. -/
inductive Parameter where
  | type (type : DataType)
  | name (name : String)
  deriving DecidableEq

namespace Parameter

/-- The type of an operand. -/
def type? : Parameter → Option DataType
  | type t => some t
  | name _ => none

/-- The name of what is called. -/
def name? : Parameter → Option String
  | type _ => none
  | name n => some n

/-- An entry in listings and messages. -/
def text : Parameter → String
  | type t => t.label
  | name n => n

end Parameter

/-- A typed call with its result and its SQL. -/
structure Rule where
  operator : Operator
  result : DataType
  signature : List Parameter
  template : Template
  deriving DecidableEq

namespace Rule

/-- The name of what is called, if the signature has one. -/
def name (r : Rule) : Option String := r.signature.findSome? Parameter.name?

/-- The types of the operands. -/
def types (r : Rule) : List DataType := r.signature.filterMap Parameter.type?

/-- Rules with the same key overload each other. -/
def key (r : Rule) : Operator × Option String := (r.operator, r.name)

/-- `signature_text`: the call that a rule is about. -/
def call (r : Rule) : String :=
  r.operator.text ++ "(" ++ String.intercalate ", " (r.signature.map Parameter.text) ++ ")"

/-- A rule in listings. -/
def text (r : Rule) : String := r.result.label ++ " <- " ++ r.call ++ ": " ++ r.template.text

end Rule

/-- `pointwise_le`: whether two lists of types have the same length and each type of the first
widens to its counterpart. -/
def widenAll : List DataType → List DataType → Bool
  | [], [] => true
  | a :: as, b :: bs => a.widensTo b && widenAll as bs
  | _, _ => false

/-- `pointwise_meet`: the meets of two lists of types, if they have the same length and all meets
exist. -/
def meetAll : List DataType → List DataType → Option (List DataType)
  | [], [] => some []
  | a :: as, b :: bs => do
    let t ← a.meet b
    let ts ← meetAll as bs
    some (t :: ts)
  | _, _ => none

/-- `accepts`: whether a rule accepts operands of the given types. -/
def Rule.accepts (r : Rule) (types : List DataType) : Bool := widenAll types r.types

end TypedSql
