import TypedSql.Checked.Check
import TypedSql.Fragment.Basic

/-!
# Generating SQL

The SQL of a checked expression. Constants and fields are written by themselves, and all other nodes
by the template of their rule, in which each reference is replaced by the SQL of an operand. A
reference that occurs twice generates its operand twice, and binds its literals twice.
-/

namespace TypedSql

/-- `push_numeral`: a number as SQL; negative numbers are put in parentheses. -/
def numeral (text : String) (negative : Bool) : String :=
  if negative then "(" ++ text ++ ")" else text

/-- Writes a value as literal, or binds it. -/
def emitLiteral (d : Dialect) (mode : LiteralMode) (p : Param) : Emit String :=
  match mode with
  | .inline => pure (p.literal d)
  | .bind => Emit.bindParam d p

/-- The SQL of a constant. -/
def emitConstant (d : Dialect) (mode : LiteralMode) : Constant → Emit String
  | .null => pure "null"
  | .bool b => pure (if b then "1" else "0")
  | .int n => pure (numeral (toString n.toInt) (n < 0))
  | .number v => pure (numeral v.text v.negative)
  | .str s => emitLiteral d mode (.str s)
  | .date v => emitLiteral d mode (.date v)
  | .dateTime t => emitLiteral d mode (.dateTime t)

/-- The SQL of a piece of a template. -/
def Template.expandPiece (t : Template) (operands : List (Emit String)) : Piece → Emit String
  | .text text => pure text
  | .child index =>
    match operands[index]? with
    | some operand => operand
    | none => Emit.fail (.shape (.missingChild t index))

/-- The SQL of pieces of a template, one after the other. -/
def Template.expandPieces (t : Template) (operands : List (Emit String)) : List Piece → Emit String
  | [] => pure ""
  | piece :: pieces => do
    let first ← t.expandPiece operands piece
    let rest ← t.expandPieces operands pieces
    return first ++ rest

/-- `emit_template`: the SQL of a template with the given operands. -/
def Template.expand (t : Template) (operands : List (Emit String)) : Emit String :=
  t.expandPieces operands t.pieces

namespace Context

/-- `emit_field`: the SQL of a field. A dotted path needs the alias of the table of its last
segment. -/
def emitField (ctx : Context) (aliases : Aliases) (path : String) : Emit String :=
  match ctx.schema.resolve? path with
  | none => Emit.fail (.unknownField path)
  | some f =>
    match Path.splitLast? path with
    | none => pure (f.sqlAs path none)
    | some (parent, identifier) =>
      match aliases.lookup parent with
      | none => Emit.fail (.unjoinedField path)
      | some aliasName => pure (f.sqlAs identifier aliasName)

/-- `emit_rule`: the SQL of a node by the template of its rule. -/
def emitRule (n : Node) (c : Checked) (operands : List (Emit String)) : Emit String :=
  match c.rule? with
  | some r => r.template.expand operands
  | none => Emit.fail (.shape (.noRule n.description n.source))

/-- What generates the SQL of an expression, given the result of checking it and how to write
literals. -/
abbrev Emitter := Checked → LiteralMode → Emit String

/-- The generators of operands, given the results of checking them. -/
def emitOperands (emitters : List Emitter) (children : List Checked) (mode : LiteralMode) :
    List (Emit String) :=
  List.zipWith (fun emitter child => emitter child mode) emitters children

/-- The SQL of a node from that of its operands. Below a grouping key all literals are written
inline. -/
def emitStep (ctx : Context) (aliases : Aliases) (n : Node) (layer : Expr Emitter) : Emitter :=
  fun c mode =>
    match layer with
    | .const v => emitConstant ctx.dialect mode v
    | .field path => ctx.emitField aliases path
    | .aggregate .group args => emitRule n c (emitOperands args c.children .inline)
    | _ => emitRule n c (emitOperands layer.children c.children mode)

/-- `emit`: the SQL of an expression. -/
def emit (ctx : Context) (aliases : Aliases) : Node → Emitter := Node.fold (ctx.emitStep aliases)

/-- `ensure_valid`: refuses an expression with errors. -/
def ensureValid (n : Node) (c : Checked) : Emit Unit :=
  if c.isValid then pure () else Emit.fail (.unresolved (n.report c))

/-- `expression`: the SQL of an expression as a value. -/
def emitValue (ctx : Context) (aliases : Aliases) (n : Node) (c : Checked) : Emit String := do
  ensureValid n c
  ctx.emit aliases n c ctx.literals

/-- `group_key`: the SQL of an expression as grouping key, without placeholders. -/
def emitKey (ctx : Context) (aliases : Aliases) (n : Node) (c : Checked) : Emit String := do
  ensureValid n c
  ctx.emit aliases n c .inline

/-- The template that turns a checked expression into 1 or 0. -/
def truthOf (ctx : Context) (c : Checked) : Except Fault (Option Template) :=
  match c.dataType? with
  | some t => ctx.rules.truth t
  | none => .ok none

/-- `condition`: the SQL of an expression as condition. -/
def emitCondition (ctx : Context) (aliases : Aliases) (n : Node) (c : Checked) : Emit String := do
  ensureValid n c
  match ctx.truthOf c with
  | .error fault => Emit.fail fault
  | .ok none => Emit.fail (.unresolved [Report.ofNode n (n.operandTypes c.dataType?.toList)])
  | .ok (some truth) => do
    let sql ← truth.expand [ctx.emit aliases n c ctx.literals]
    return sql ++ " = 1"

/-- `generate`: the SQL of a checked expression by itself. -/
def generate (ctx : Context) (n : Node) (c : Checked) : Except Fault Fragment :=
  (ctx.emitValue [] n c).toFragment

/-- `compile`: checks an expression and generates its SQL. -/
def compile (ctx : Context) (n : Node) : Except Fault Fragment := do
  let c ← ctx.check n
  ctx.generate n c

end Context

end TypedSql
