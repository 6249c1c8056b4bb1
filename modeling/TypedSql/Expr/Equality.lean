import TypedSql.Expr.Node

/-!
# Equality of expressions

Two expressions are the same if they have the same shape, the same names, constants of the same
values and the same origins. Decimals count as the same if their values are, whatever their scales.
-/

namespace TypedSql

/-- Whether two constants have the same value. -/
def Constant.same : Constant → Constant → Bool
  | .number a, .number b => a.SameValue b
  | a, b => a = b

namespace Expr

/-- Whether each test of a list holds of the expression at the same place of another list. -/
def sameList : List (Node → Bool) → List Node → Bool
  | [], [] => true
  | test :: tests, n :: ns => test n && sameList tests ns
  | _, _ => false

/-- Whether a layer is like another one whose operands pass the tests in the place of its own. -/
def same : Expr (Node → Bool) → Expr Node → Bool
  | .const a, .const b => a.same b
  | .field p, .field q => p = q
  | .unary op a, .unary op' a' => op = op' && a a'
  | .binary op a b, .binary op' a' b' => op = op' && a a' && b b'
  | .ifElse a c b, .ifElse a' c' b' => a a' && c c' && b b'
  | .func name args, .func name' args' => name = name' && sameList args args'
  | .meth a name args, .meth a' name' args' => a a' && name = name' && sameList args args'
  | .attr a name, .attr a' name' => a a' && name = name'
  | .aggregate g args, .aggregate g' args' => g = g' && sameList args args'
  | _, _ => false

end Expr

namespace Node

/-- Whether an expression is the same as another one. -/
def sameStep (n : Node) (layer : Expr (Node → Bool)) (m : Node) : Bool :=
  layer.same m.expr && n.origin = m.origin

/-- Whether two expressions are the same. -/
def same : Node → Node → Bool := fold sameStep

end Node

end TypedSql
