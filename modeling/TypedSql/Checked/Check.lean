import TypedSql.Checked.Basic
import TypedSql.Context

/-!
# Checking

Checking finds the type, the rule and the level of each node of an expression. What its author can
mend becomes a diagnostic, so that all problems are found at once; only an aggregate function with
the wrong number of arguments ends checking with a fault.
-/

namespace TypedSql

/-- The template of the conditional `a if c else b`, given the truth template of `c`. -/
def conditionalTemplate (truth : Template) : Template :=
  ⟨[.text "(case when "] ++ (truth.remap [1]).pieces ++
    [.text " = 1 then ", .child 0, .text " else ", .child 2, .text " end)"]⟩

/-- The rule of a conditional with operands of the given types. -/
def conditionalRule (result : DataType) (types : List DataType) (truth : Template) : Rule :=
  ⟨.ifElse, result, types.map .type, conditionalTemplate truth⟩

/-- `precheck`: the level of an expression with the given operands, and what is wrong with their
levels or with the operands themselves. -/
def operandLevel (n : Node) (children : List Checked) : Level × Option Diagnostic :=
  let levels := children.map (·.level)
  let combined := Level.combineAll levels
  let level := combined.getD (Level.dominant levels)
  if children.any fun c => !c.isValid then (level, some n.operandErrors)
  else if combined.isNone then (level, some n.mixedLevels)
  else (level, none)

namespace Context

/-- `resolve`: the result for a call whose operands are in order. -/
def resolveCall (ctx : Context) (n : Node) (operator : Operator) (name : Option String)
    (level : Level) (children : List Checked) : Except Fault Checked :=
  let types := Checked.operandTypes children
  match ctx.rules.resolve operator name types with
  | .error fault => .error fault
  | .ok (.rule r) => .ok ⟨.resolved r, level, children⟩
  | .ok .noMatch => .ok ⟨.failed (n.operandTypes types), level, children⟩
  | .ok .unknownName => .ok ⟨.failed n.unknownName, level, children⟩

/-- `composite`: the result for an operator, a function, a method or an attribute. -/
def checkCall (ctx : Context) (n : Node) (operator : Operator) (name : Option String)
    (children : List Checked) : Except Fault Checked :=
  match operandLevel n children with
  | (level, some d) => .ok ⟨.failed d, level, children⟩
  | (level, none) => ctx.resolveCall n operator name level children

/-- `aggregate`: the result for an aggregate function. -/
def checkAggregate (ctx : Context) (n : Node) (g : Aggregate) (children : List Checked) :
    Except Fault Checked :=
  if children.any fun c => !c.isValid then
    .ok ⟨.failed n.operandErrors, .aggregated g, children⟩
  else if children.any fun c => c.level.isAggregated then
    .ok ⟨.failed n.nestedAggregate, .aggregated g, children⟩
  else
    ctx.resolveCall n (.aggregate g) none (.aggregated g) children

/-- The result for a conditional whose operands are in order. -/
def resolveConditional (ctx : Context) (n : Node) (level : Level) (children : List Checked) :
    Except Fault Checked :=
  let types := Checked.operandTypes children
  match types with
  | [value, condition, other] =>
    match ctx.rules.truth condition with
    | .error fault => .error fault
    | .ok truth =>
      match value.widen other, truth with
      | some result, some truth =>
        .ok ⟨.resolved (conditionalRule result types truth), level, children⟩
      | _, _ => .ok ⟨.failed (n.operandTypes types), level, children⟩
  | _ => .ok ⟨.failed (n.operandTypes types), level, children⟩

/-- `if_else`: the result for a conditional. -/
def checkConditional (ctx : Context) (n : Node) (children : List Checked) : Except Fault Checked :=
  match operandLevel n children with
  | (level, some d) => .ok ⟨.failed d, level, children⟩
  | (level, none) => ctx.resolveConditional n level children

/-- The result for a field. -/
def checkField (ctx : Context) (n : Node) (path : String) : Checked :=
  match ctx.schema.resolve? path with
  | some f => ⟨.leaf f.dataType, .row, []⟩
  | none => ⟨.failed (n.unknownField path), .row, []⟩

/-- `check`: the result for a node from those for its operands; the first fault of an operand
counts. -/
def checkStep (ctx : Context) (n : Node) (layer : Expr (Except Fault Checked)) :
    Except Fault Checked :=
  match layer with
  | .const c => .ok ⟨.leaf c.dataType, .constant, []⟩
  | .field path => .ok (ctx.checkField n path)
  | .unary op a => do
    let a ← a
    ctx.checkCall n (.unary op) none [a]
  | .binary op a b => do
    let a ← a
    let b ← b
    ctx.checkCall n (.binary op) none [a, b]
  | .ifElse a c b => do
    let a ← a
    let c ← c
    let b ← b
    ctx.checkConditional n [a, c, b]
  | .func name args => do
    let args ← args.mapM id
    ctx.checkCall n .func (some name) args
  | .meth a name args => do
    let a ← a
    let args ← args.mapM id
    ctx.checkCall n .meth (some name) (a :: args)
  | .attr a name => do
    let a ← a
    ctx.checkCall n .attr (some name) [a]
  | .aggregate g args =>
    if args.length ≠ g.arity then .error (.malformedAggregate g args.length n.source)
    else do
      let args ← args.mapM id
      ctx.checkAggregate n g args

/-- `validate`: checks an expression. -/
def check (ctx : Context) : Node → Except Fault Checked := Node.fold ctx.checkStep

end Context

end TypedSql
