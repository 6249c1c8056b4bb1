import TypedSql.Checked.Basic
import TypedSql.Json.Basic

/-!
# Writing expressions as JSON

The JSON form of an expression, plain or with the results of checking it: the type of each node
under `datatype`, or what is wrong with it under `error`. Members are in key order, and members
without content are left out.
-/

namespace TypedSql

/-- The value of a constant; decimals are written as strings, so that all their places are kept. -/
def Constant.encode? : Constant → Option Json
  | null => none
  | bool b => some (.bool b)
  | int n => some (.ofInt n.toInt)
  | number d => some (.str d.text)
  | str s => some (.str s)
  | date d => some (.str d.text)
  | dateTime t => some (.str t.text)

/-- The value of a layer. -/
def Expr.encodeValue? {α : Type} : Expr α → Option Json
  | const c => c.encode?
  | e => e.value?.map .str

/-- A span as an array of two positions. -/
def Span.encode (s : Span) : Json := .arr [.ofNat s.start.toNat, .ofNat s.stop.toNat]

/-- A diagnostic as object. -/
def Diagnostic.encode (d : Diagnostic) : Json :=
  .obj [("kind", .str d.kind.name), ("message", .str d.message)]

namespace Node

/-- A member of an object, if it has content. -/
def member (key : String) : Option Json → List (String × Json)
  | some value => [(key, value)]
  | none => []

/-- The JSON forms of operands, with the results of checking them as far as there are any. -/
def encodeOperands : List (Option Checked → Json) → List Checked → List Json
  | [], _ => []
  | encode :: encoders, [] => encode none :: encodeOperands encoders []
  | encode :: encoders, c :: cs => encode (some c) :: encodeOperands encoders cs

/-- The JSON form of a node from those of its operands. -/
def encodeStep (n : Node) (layer : Expr (Option Checked → Json)) (c : Option Checked) : Json :=
  let children := encodeOperands layer.children ((c.map (·.children)).getD [])
  .obj
    (member "children" (if children.isEmpty then none else some (.arr children)) ++
      member "datatype" ((c.bind (·.dataType?)).map fun t => .str t.name) ++
      member "error" ((c.bind (·.diagnostic?)).map Diagnostic.encode) ++
      [("nodetype", .str n.kind.name)] ++
      member "source" (n.origin.map fun o => .str o.source) ++
      member "span" (n.span.map Span.encode) ++
      member "value" n.expr.encodeValue?)

/-- `to_json`: the JSON form of an expression, with the results of checking it if they are
given. -/
def encode : Node → Option Checked → Json := fold encodeStep

end Node

end TypedSql
