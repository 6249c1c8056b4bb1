/-!
# Operators

The unary and binary operators of expressions, with their names in the interchange format, their
symbols in source text, their descriptions in messages and how tightly they bind.
-/

namespace TypedSql

/-- An operator with one operand. -/
inductive UnaryOp where
  | not
  | neg
  | bitNot
  deriving DecidableEq

/-- An operator with two operands. -/
inductive BinaryOp where
  | add
  | sub
  | mul
  | trueDiv
  | floorDiv
  | mod
  | eq
  | ne
  | lt
  | le
  | gt
  | ge
  | and
  | or
  | contains
  | notContains
  | is
  | isNot
  | item
  | bitAnd
  | bitOr
  | bitXor
  | shiftLeft
  | shiftRight
  deriving DecidableEq

/-- How an operator is named, written and described. -/
structure OperatorInfo where
  /-- The name in the interchange format and in the vocabulary. -/
  name : String
  /-- The name with capitals in messages about the number of operands. -/
  title : String
  /-- The symbol in source text. -/
  symbol : String
  /-- The description in diagnostics. -/
  description : String
  /-- How tightly the operator binds; larger is tighter. -/
  precedence : Nat

namespace UnaryOp

/-- All unary operators. -/
def all : List UnaryOp := [not, neg, bitNot]

/-- How an operator is named, written and described. The symbol of a word ends with a blank. -/
def info : UnaryOp → OperatorInfo
  | not => ⟨"not", "Not", "not ", "Logical negation", 4⟩
  | neg => ⟨"neg", "Neg", "-", "Arithmetic negation", 12⟩
  | bitNot => ⟨"bitnot", "BitNot", "~", "Bitwise not", 12⟩

/-- The name of an operator. -/
def name (op : UnaryOp) : String := op.info.name

/-- The symbol of an operator. -/
def symbol (op : UnaryOp) : String := op.info.symbol

/-- The description of an operator. -/
def description (op : UnaryOp) : String := op.info.description

/-- How tightly an operator binds. -/
def precedence (op : UnaryOp) : Nat := op.info.precedence

/-- The operator of a name. -/
def ofName? (name : String) : Option UnaryOp := all.find? fun op => op.name = name

end UnaryOp

namespace BinaryOp

/-- All binary operators. -/
def all : List BinaryOp :=
  [add, sub, mul, trueDiv, floorDiv, mod, eq, ne, lt, le, gt, ge, and, or, contains, notContains,
   is, isNot, item, bitAnd, bitOr, bitXor, shiftLeft, shiftRight]

/-- How an operator is named, written and described. -/
def info : BinaryOp → OperatorInfo
  | add => ⟨"add", "Add", "+", "Addition", 10⟩
  | sub => ⟨"sub", "Sub", "-", "Subtraction", 10⟩
  | mul => ⟨"mul", "Mul", "*", "Multiplication", 11⟩
  | trueDiv => ⟨"truediv", "TrueDiv", "/", "True division", 11⟩
  | floorDiv => ⟨"floordiv", "FloorDiv", "//", "Floor division", 11⟩
  | mod => ⟨"mod", "Mod", "%", "Modulo operation", 11⟩
  | eq => ⟨"eq", "Eq", "==", "Equality comparison", 5⟩
  | ne => ⟨"ne", "Ne", "!=", "Inequality comparison", 5⟩
  | lt => ⟨"lt", "Lt", "<", "Less-than comparison", 5⟩
  | le => ⟨"le", "Le", "<=", "Less-than-or-equal comparison", 5⟩
  | gt => ⟨"gt", "Gt", ">", "Greater-than comparison", 5⟩
  | ge => ⟨"ge", "Ge", ">=", "Greater-than-or-equal comparison", 5⟩
  | and => ⟨"and", "And", "and", "Logical and", 3⟩
  | or => ⟨"or", "Or", "or", "Logical or", 2⟩
  | contains => ⟨"contains", "Contains", "in", "Containment test", 5⟩
  | notContains => ⟨"notcontains", "NotContains", "not in", "Inverted containment test", 5⟩
  | is => ⟨"is", "Is", "is", "Identity test", 5⟩
  | isNot => ⟨"isnot", "IsNot", "is not", "Inverted identity test", 5⟩
  | item => ⟨"item", "Item", "[]", "Item access", 14⟩
  | bitAnd => ⟨"bitand", "BitAnd", "&", "Bitwise and", 8⟩
  | bitOr => ⟨"bitor", "BitOr", "|", "Bitwise or", 6⟩
  | bitXor => ⟨"bitxor", "BitXor", "^", "Bitwise exclusive or", 7⟩
  | shiftLeft => ⟨"shiftleft", "ShiftLeft", "<<", "Left shift", 9⟩
  | shiftRight => ⟨"shiftright", "ShiftRight", ">>", "Right shift", 9⟩

/-- The name of an operator. -/
def name (op : BinaryOp) : String := op.info.name

/-- The symbol of an operator. -/
def symbol (op : BinaryOp) : String := op.info.symbol

/-- The description of an operator. -/
def description (op : BinaryOp) : String := op.info.description

/-- How tightly an operator binds. -/
def precedence (op : BinaryOp) : Nat := op.info.precedence

/-- `is_comparison`: whether an operator compares its operands; comparisons do not associate. -/
def isComparison (op : BinaryOp) : Bool := op.precedence = 5

/-- The operator of a name. -/
def ofName? (name : String) : Option BinaryOp := all.find? fun op => op.name = name

end BinaryOp

end TypedSql
