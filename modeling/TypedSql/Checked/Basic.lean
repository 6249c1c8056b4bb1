import TypedSql.Diagnostic
import TypedSql.Rule.Basic

/-!
# Checked trees

Checking an expression gives a tree of the same shape with a verdict at each node: the type of a
leaf, the rule of a call, or what is wrong. The reports of an expression are those of its root
causes; nodes that are wrong only because of their operands do not count.
-/

namespace TypedSql

/-- What checking found out about a node. -/
inductive Verdict where
  /-- A constant or a field of the given type. -/
  | leaf (type : DataType)
  /-- A call that resolves to the given rule. -/
  | resolved (rule : Rule)
  | failed (diagnostic : Diagnostic)
  deriving DecidableEq

/-- The result of checking an expression. -/
structure Checked where
  verdict : Verdict
  /-- What the expression is about. -/
  level : Level
  /-- The results for the operands. -/
  children : List Checked

namespace Verdict

/-- The type of a node; `none` if something is wrong with it. -/
def dataType? : Verdict → Option DataType
  | leaf t => some t
  | resolved r => some r.result
  | failed _ => none

/-- What is wrong with a node. -/
def diagnostic? : Verdict → Option Diagnostic
  | failed d => some d
  | _ => none

/-- The rule of a call. -/
def rule? : Verdict → Option Rule
  | resolved r => some r
  | _ => none

end Verdict

namespace Checked

/-- `data_type`: the type of an expression; `none` if something is wrong with it. -/
def dataType? (c : Checked) : Option DataType := c.verdict.dataType?

/-- What is wrong with the topmost node of an expression. -/
def diagnostic? (c : Checked) : Option Diagnostic := c.verdict.diagnostic?

/-- The rule of the topmost node of an expression. -/
def rule? (c : Checked) : Option Rule := c.verdict.rule?

/-- `is_valid`: whether nothing is wrong with an expression. -/
def isValid (c : Checked) : Bool := c.diagnostic?.isNone

/-- `operand_types`: the types of operands. -/
def operandTypes (children : List Checked) : List DataType := children.filterMap dataType?

mutual

/-- The results for an expression and all its parts, each before its operands. -/
def preorder : Checked → List Checked
  | ⟨verdict, level, children⟩ => ⟨verdict, level, children⟩ :: preorderList children

/-- The results for a list of expressions and all their parts. -/
def preorderList : List Checked → List Checked
  | [] => []
  | c :: cs => preorder c ++ preorderList cs

end

end Checked

namespace Node

/-- `collect`: the reports of a node and of its operands, with its own first if it is a root cause.
A node without diagnostic ends the search. -/
def reportStep (n : Node) (layer : Expr (Checked → List Report)) (c : Checked) : List Report :=
  match c.diagnostic? with
  | none => []
  | some d =>
    (if d.isRootCause then [Report.ofNode n d] else []) ++
      (List.zipWith (fun reports child => reports child) layer.children c.children).flatten

/-- `report`: the reports of a checked expression, each before those of its operands. -/
def report : Node → Checked → List Report := fold reportStep

/-- The first root cause at a node or below it. -/
def firstErrorStep (n : Node) (layer : Expr (Checked → Option (Node × Diagnostic))) (c : Checked) :
    Option (Node × Diagnostic) :=
  match c.diagnostic? with
  | none => none
  | some d =>
    if d.isRootCause then some (n, d)
    else (List.zipWith (fun find child => find child) layer.children c.children).findSome? id

/-- `first_error`: the first root cause of a checked expression and the node it belongs to. -/
def firstError : Node → Checked → Option (Node × Diagnostic) := fold firstErrorStep

end Node

end TypedSql
