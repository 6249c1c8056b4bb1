import TypedSql.Aggregation
import TypedSql.Calendar.Basic
import TypedSql.DataType
import TypedSql.Decimal.Basic
import TypedSql.Expr.Operator

/-!
# Expression trees

An expression is a tree of nodes. The type `Expr α` is one layer of such a tree with operands of
type `α`, and a `Node` is a layer of nodes together with its origin, the source text it was written
as. Functions on trees are folds: they say what becomes of a layer whose operands have been dealt
with already. The equation `Node.fold_eq` and the induction principle `Node.induction` are all that
proofs about them need.
-/

namespace TypedSql

/-- A constant of an expression. -/
inductive Constant where
  | null
  | bool (value : Bool)
  | int (value : Int64)
  | number (value : Decimal)
  | str (value : String)
  | date (value : Date)
  | dateTime (value : DateTime)
  deriving DecidableEq

/-- The type of a constant. -/
def Constant.dataType : Constant → DataType
  | null => .null
  | bool _ => .bool
  | int _ => .int
  | number _ => .number
  | str _ => .str
  | date _ => .date
  | dateTime _ => .dateTime

/-- One layer of an expression whose operands are of type `α`. -/
inductive Expr (α : Type) where
  | const (value : Constant)
  | field (path : String)
  | unary (op : UnaryOp) (operand : α)
  | binary (op : BinaryOp) (left right : α)
  /-- The conditional `value if condition else other`. -/
  | ifElse (value condition other : α)
  | func (name : String) (args : List α)
  | meth (object : α) (name : String) (args : List α)
  | attr (object : α) (name : String)
  | aggregate (function : Aggregate) (args : List α)

namespace Expr

variable {α β : Type}

/-- The operands of a layer, from left to right. -/
def children : Expr α → List α
  | const _ => []
  | field _ => []
  | unary _ a => [a]
  | binary _ a b => [a, b]
  | ifElse a c b => [a, c, b]
  | func _ args => args
  | meth a _ args => a :: args
  | attr a _ => [a]
  | aggregate _ args => args

/-- Applies a function to the operands of a layer. -/
def map (f : α → β) : Expr α → Expr β
  | const c => const c
  | field p => field p
  | unary op a => unary op (f a)
  | binary op a b => binary op (f a) (f b)
  | ifElse a c b => ifElse (f a) (f c) (f b)
  | func name args => func name (args.map f)
  | meth a name args => meth (f a) name (args.map f)
  | attr a name => attr (f a) name
  | aggregate g args => aggregate g (args.map f)

@[simp] theorem children_map (f : α → β) (e : Expr α) : (e.map f).children = e.children.map f := by
  cases e <;> simp [map, children]

end Expr

/-- A stretch of a source text, as the positions of its start and its end. -/
structure Span where
  start : UInt64
  stop : UInt64
  deriving DecidableEq

/-- Where an expression comes from: its source text, and where that stands in a longer text. -/
structure Origin where
  source : String
  span : Option Span
  deriving DecidableEq

/-- An expression. -/
structure Node where
  /-- The topmost layer. -/
  expr : Expr Node
  /-- Where the expression comes from; `none` for an expression without source text of its own. -/
  origin : Option Origin

namespace Node

variable {α : Type}

/-- An expression without origin. -/
def ofExpr (e : Expr Node) : Node := ⟨e, none⟩

/-- `children`: the operands of an expression, from left to right. -/
def children (n : Node) : List Node := n.expr.children

/-- `with_origin`: the same expression with the given origin. -/
def withOrigin (n : Node) (origin : Origin) : Node := { n with origin := some origin }

/-- `span`: where the source text of an expression stands. -/
def span (n : Node) : Option Span := n.origin.bind (·.span)

mutual

/-- Computes a result for an expression from the results for its operands: `step` is given the
expression and its topmost layer with the operands replaced by their results. -/
def fold (step : Node → Expr α → α) : Node → α
  | ⟨e, origin⟩ => step ⟨e, origin⟩ (foldLayer step e)

/-- A layer with the operands replaced by their results. -/
def foldLayer (step : Node → Expr α → α) : Expr Node → Expr α
  | .const c => .const c
  | .field p => .field p
  | .unary op a => .unary op (fold step a)
  | .binary op a b => .binary op (fold step a) (fold step b)
  | .ifElse a c b => .ifElse (fold step a) (fold step c) (fold step b)
  | .func name args => .func name (foldList step args)
  | .meth a name args => .meth (fold step a) name (foldList step args)
  | .attr a name => .attr (fold step a) name
  | .aggregate g args => .aggregate g (foldList step args)

/-- The results for a list of expressions. -/
def foldList (step : Node → Expr α → α) : List Node → List α
  | [] => []
  | n :: ns => fold step n :: foldList step ns

end

theorem foldList_eq (step : Node → Expr α → α) (ns : List Node) :
    foldList step ns = ns.map (fold step) := by
  induction ns with
  | nil => rfl
  | cons n ns ih => simp [foldList, ih]

theorem foldLayer_eq (step : Node → Expr α → α) (e : Expr Node) :
    foldLayer step e = e.map (fold step) := by
  cases e <;> simp [foldLayer, Expr.map, foldList_eq]

/-- The result for an expression is the step applied to the results for its operands. -/
theorem fold_eq (step : Node → Expr α → α) (n : Node) :
    n.fold step = step n (n.expr.map (fold step)) := by
  cases n with
  | mk e origin => rw [fold, foldLayer_eq]

/-- A property that passes from the operands of an expression to the expression holds of all
expressions. -/
theorem induction {P : Node → Prop} (step : ∀ n : Node, (∀ c ∈ n.children, P c) → P n) (n : Node) :
    P n := by
  refine @Node.rec P (fun e => ∀ c ∈ e.children, P c) (fun ns => ∀ c ∈ ns, P c)
    ?_ ?_ ?_ ?_ ?_ ?_ ?_ ?_ ?_ ?_ ?_ ?_ n
  · intro e origin he
    exact step _ he
  all_goals simp +contextual [Expr.children]

end Node

end TypedSql
