import TypedSql.Fault
import TypedSql.Json.Reader

/-!
# Reading expressions from JSON

A node is an object with its kind under `nodetype`, its operands under `children` and its constant
or name under `value`. The members `source` and `span` give its origin; all other members are
ignored.
-/

namespace TypedSql.Node

/-- `shape`: a shape fault. -/
def misshapen {α : Type} (fault : ShapeFault) : Except Fault α := .error (.shape fault)

/-- `text`: the text of a value. -/
def textOf (value : Json) : Except Fault String :=
  match value.str? with
  | some s => .ok s
  | none => misshapen (.expected .string value)

/-- `decimal`: the decimal of a string, or of a number in its printed form. -/
def decimalOf (value : Json) : Except Fault Decimal :=
  let text? := match value with
    | .str s => some s
    | .number n => some n.text
    | _ => none
  match text? with
  | none => misshapen (.expected .decimal value)
  | some text =>
    match Decimal.read text with
    | .ok d => .ok d
    | .error fault => misshapen (.badDecimal fault value)

/-- The date of a value. -/
def dateOf (value : Json) : Except Fault Date := do
  let text ← textOf value
  match Calendar.readDate text with
  | .ok d => .ok d
  | .error fault => misshapen (.badDate fault value)

/-- The moment of a value. -/
def dateTimeOf (value : Json) : Except Fault DateTime := do
  let text ← textOf value
  match Calendar.readDateTime text with
  | .ok t => .ok t
  | .error fault => misshapen (.badDateTime fault value)

/-- The aggregate function of a value. -/
def aggregateOf (value : Json) : Except Fault Aggregate := do
  let name ← textOf value
  match Aggregate.ofName? name with
  | some g => .ok g
  | none => .error (.unknownAggregate name)

/-- `build`: a node of a kind, with its value and its operands. -/
def assemble (kind : Kind) (value : Json) (children : List Node) : Except Fault (Expr Node) :=
  if kind.isLeaf && !children.isEmpty then misshapen (.leafWithChildren kind)
  else
    match kind with
    | .null => .ok (.const .null)
    | .bool =>
      match value.bool? with
      | some b => .ok (.const (.bool b))
      | none => misshapen (.expected .bool value)
    | .int =>
      match value.int64? with
      | some n => .ok (.const (.int n))
      | none => misshapen (.expected .integer value)
    | .number => return .const (.number (← decimalOf value))
    | .str => return .const (.str (← textOf value))
    | .date => return .const (.date (← dateOf value))
    | .dateTime => return .const (.dateTime (← dateTimeOf value))
    | .field => return .field (← textOf value)
    | .unary op =>
      match children with
      | [a] => .ok (.unary op a)
      | _ => misshapen (.childCount kind 1 children.length)
    | .binary op =>
      match children with
      | [a, b] => .ok (.binary op a b)
      | _ => misshapen (.childCount kind 2 children.length)
    | .ifElse =>
      match children with
      | [a, c, b] => .ok (.ifElse a c b)
      | _ => misshapen (.childCount kind 3 children.length)
    | .func => return .func (← textOf value) children
    | .meth =>
      match children with
      | a :: args => return .meth a (← textOf value) args
      | [] => misshapen .methodWithoutObject
    | .attr =>
      match children with
      | [a] => return .attr a (← textOf value)
      | _ => misshapen (.childCount kind 1 children.length)
    | .aggregate => return .aggregate (← aggregateOf value) children

/-- The kind of a node object. -/
def kindOf (members : List (String × Json)) : Except Fault Kind :=
  match (Keyed.get? "nodetype" members).bind Json.str? with
  | none => misshapen (.noNodeType (.obj members))
  | some name =>
    match Kind.ofName? name with
    | some kind => .ok kind
    | none => misshapen (.unknownNodeType name)

/-- `span`: the span of a node object, an array of two positions. -/
def spanOf (members : List (String × Json)) : Option Span :=
  match Keyed.get? "span" members with
  | some (.arr [start, stop]) => do
    let start ← start.uint64?
    let stop ← stop.uint64?
    some ⟨start, stop⟩
  | _ => none

/-- The origin of a node object; without source text there is none. -/
def originOf (members : List (String × Json)) : Option Origin :=
  (Keyed.get? "source" members).bind Json.str? |>.map fun source => ⟨source, spanOf members⟩

/-- A node from the members of its object and its operands. -/
def ofMembers (members : List (String × Json)) (children : Except Fault (List Node)) :
    Except Fault Node := do
  let kind ← kindOf members
  let children ← children
  let e ← assemble kind ((Keyed.get? "value" members).getD .null) children
  return ⟨e, originOf members⟩

mutual

/-- `from_json`: reads an expression. -/
def decode : Json → Except Fault Node
  | .obj members => ofMembers members (decodeChildren members)
  | value => misshapen (.notObject value)

/-- Reads the operands of a node object; without a member `children` there are none. -/
def decodeChildren : List (String × Json) → Except Fault (List Node)
  | [] => .ok []
  | (member, value) :: rest =>
    if member = "children" then
      match value with
      | .null => .ok []
      | .arr items => decodeItems items
      | other => misshapen (.childrenNotArray other)
    else decodeChildren rest

/-- Reads a list of expressions. -/
def decodeItems : List Json → Except Fault (List Node)
  | [] => .ok []
  | item :: items => do
    let n ← decode item
    let ns ← decodeItems items
    return n :: ns

end

/-- `from_json_str`: reads an expression from the text of a JSON document. -/
def ofText (text : String) : Except Fault Node :=
  match Json.parse text with
  | some document => decode document
  | none => misshapen .notJson

end TypedSql.Node
