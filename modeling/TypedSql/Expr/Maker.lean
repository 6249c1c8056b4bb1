import TypedSql.Expr.Node
import TypedSql.Text.Keyed

/-!
# The vocabulary of expressions

The names under which expressions are made from operands: the operators, the conditional, the
functions and the aggregate functions.
-/

namespace TypedSql

/-- A way to make an expression from operands (`Constructor`). -/
inductive Maker where
  | unary (op : UnaryOp)
  | binary (op : BinaryOp)
  | ifElse
  | func (name : String)
  | aggregate (function : Aggregate)
  deriving DecidableEq

namespace Maker

/-- `arity`: the number of operands, if it is fixed. -/
def arity : Maker → Option Nat
  | unary _ => some 1
  | binary _ => some 2
  | ifElse => some 3
  | func _ => none
  | aggregate _ => none

/-- Makes an expression; `none` if the number of operands is wrong. -/
def make? : Maker → List Node → Option Node
  | unary op, [a] => some (.ofExpr (.unary op a))
  | binary op, [a, b] => some (.ofExpr (.binary op a b))
  | ifElse, [a, c, b] => some (.ofExpr (.ifElse a c b))
  | func name, args => some (.ofExpr (.func name args))
  | aggregate g, args => some (.ofExpr (.aggregate g args))
  | _, _ => none

end Maker

/-- The names of the functions. -/
def functionNames : List String :=
  ["bool", "date", "datetime", "days", "float", "hours", "int", "len", "lower", "minutes", "months",
   "now", "seconds", "str", "today", "upper", "weeks", "years"]

/-- `entries`: all names of the vocabulary with what they make, in the order of the names. -/
def vocabulary : List (String × Maker) :=
  Keyed.ofList
    (UnaryOp.all.map (fun op => (op.name, .unary op)) ++
      BinaryOp.all.map (fun op => (op.name, .binary op)) ++
      [("ifelse", .ifElse)] ++
      functionNames.map (fun name => (name, .func name)) ++
      Aggregate.all.map (fun g => (g.name, .aggregate g)))

/-- `lookup`: what a name makes. -/
def maker? (name : String) : Option Maker := Keyed.get? name vocabulary

end TypedSql
