import TypedSql.Expr.Node

/-!
# Kinds of nodes

The kind of a node is its layer without operands and values. Kinds have names in the interchange
format and descriptions in messages.
-/

namespace TypedSql

/-- The kind of a node (`NodeKind`). -/
inductive Kind where
  | null
  | bool
  | int
  | number
  | str
  | date
  | dateTime
  | field
  | unary (op : UnaryOp)
  | binary (op : BinaryOp)
  | ifElse
  | func
  | meth
  | attr
  | aggregate
  deriving DecidableEq

namespace Kind

/-- All kinds. -/
def all : List Kind :=
  [null, bool, int, number, str, date, dateTime, field, ifElse, func, meth, attr, aggregate] ++
    UnaryOp.all.map unary ++ BinaryOp.all.map binary

/-- The name of a kind in the interchange format. -/
def name : Kind → String
  | null => "const_none"
  | bool => "const_bool"
  | int => "const_int"
  | number => "const_number"
  | str => "const_str"
  | date => "const_date"
  | dateTime => "const_datetime"
  | field => "field"
  | unary op => "unop_" ++ op.name
  | binary op => "binop_" ++ op.name
  | ifElse => "ternop_if"
  | func => "func"
  | meth => "meth"
  | attr => "attr"
  | aggregate => "aggregate"

/-- `from_name`: the kind of a name. -/
def ofName? (name : String) : Option Kind := all.find? fun k => k.name = name

/-- `is_leaf`: whether nodes of a kind have no operands by their nature. -/
def isLeaf : Kind → Bool
  | null | bool | int | number | str | date | dateTime | field => true
  | _ => false

end Kind

/-- The kind of a constant. -/
def Constant.kind : Constant → Kind
  | null => .null
  | bool _ => .bool
  | int _ => .int
  | number _ => .number
  | str _ => .str
  | date _ => .date
  | dateTime _ => .dateTime

/-- The text of a constant; there is none for the null constant. -/
def Constant.text? : Constant → Option String
  | null => none
  | bool b => some (if b then "True" else "False")
  | int n => some (toString n.toInt)
  | number d => some d.text
  | str s => some s
  | date d => some d.text
  | dateTime t => some t.text

/-- The description of a constant in messages. -/
def Constant.description : Constant → String
  | null => "None constant"
  | bool _ => "Bool constant"
  | int _ => "Integer constant"
  | number _ => "Number constant"
  | str _ => "String constant"
  | date _ => "Date constant"
  | dateTime _ => "Datetime constant"

namespace Expr

variable {α : Type}

/-- The kind of a layer. -/
def kind : Expr α → Kind
  | const c => c.kind
  | field _ => .field
  | unary op _ => .unary op
  | binary op _ _ => .binary op
  | ifElse _ _ _ => .ifElse
  | func _ _ => .func
  | meth _ _ _ => .meth
  | attr _ _ => .attr
  | aggregate _ _ => .aggregate

/-- The value of a layer as text: a constant, or the name of what is referred to or called. -/
def value? : Expr α → Option String
  | const c => c.text?
  | field path => some path
  | unary _ _ => none
  | binary _ _ _ => none
  | ifElse _ _ _ => none
  | func name _ => some name
  | meth _ name _ => some name
  | attr _ name => some name
  | aggregate g _ => some g.name

/-- The description of a layer in messages. -/
def description : Expr α → String
  | const c => c.description
  | field _ => "Field reference"
  | unary op _ => op.description
  | binary op _ _ => op.description
  | ifElse _ _ _ => "Ternary if/else"
  | func _ _ => "Function call"
  | meth _ _ _ => "Method call"
  | attr _ _ => "Attribute access"
  | aggregate _ _ => "Aggregate call"

end Expr

namespace Node

/-- `kind`: the kind of a node. -/
def kind (n : Node) : Kind := n.expr.kind

/-- `value`: the value of a node as text. -/
def value? (n : Node) : Option String := n.expr.value?

/-- `description`: the description of a node in messages. -/
def description (n : Node) : String := n.expr.description

end Node

end TypedSql
