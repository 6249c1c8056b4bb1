import TypedSql.Fault

/-!
# Calls by name

Making an expression from the name of an operator, a function or an aggregate function and its
operands.
-/

namespace TypedSql

namespace Maker

/-- `build`: makes an expression, and refuses the wrong number of operands. -/
def make (m : Maker) (operands : List Node) : Except Fault Node :=
  match m.make? operands with
  | some n => .ok n
  | none => .error (.shape (.operandCount m (m.arity.getD 0) operands.length))

end Maker

/-- `call`: makes an expression of the vocabulary; `none` if the name is not in it. -/
def call (name : String) (operands : List Node) : Except Fault (Option Node) :=
  match maker? name with
  | some m => (m.make operands).map some
  | none => .ok none

end TypedSql
