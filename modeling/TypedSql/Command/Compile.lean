import TypedSql.Fragment.Emit
import TypedSql.Interchange.Decode
import TypedSql.Interchange.Encode
import TypedSql.Schema.Reader

/-!
# The command `compile`

Compiles an expression against a schema, both given as JSON documents. The answer is the SQL, or a
JSON report that holds the types of all parts of the expression and what is wrong with it.
-/

namespace TypedSql.Command

/-- Why a command was refused (`CliError`). -/
inductive CommandFault where
  | refused (fault : Fault)
  /-- A document is no JSON. -/
  | notJson
  /-- A file cannot be read. -/
  | io (reason : String)
  /-- There is no expression. -/
  | noInput

/-- The wording of a command's fault. -/
def CommandFault.message : CommandFault → String
  | refused fault => fault.message
  | notJson => "Invalid JSON: the document is malformed"
  | io reason => "IO error: " ++ reason
  | noInput => "No expression provided. Pass an AST file or pipe AST JSON to stdin."

/-- What `compile` works on. -/
structure CompileOptions where
  /-- The document of the schema. -/
  schema : String
  /-- The document of the expression. -/
  expression : Option String
  dialect : Dialect := .oracle
  /-- Whether literals are bound to placeholders. -/
  bind : Bool := false
  /-- Whether to answer with a report. -/
  json : Bool := false

/-- What `compile` answers. -/
inductive CompileOutput where
  | sql (fragment : Fragment)
  | report (document : Json)

/-- How literals are written. -/
def CompileOptions.literals (o : CompileOptions) : LiteralMode := if o.bind then .bind else .inline

/-- A report of a diagnostic as object. -/
def encodeReport (r : Report) : Json :=
  .obj
    [("kind", .str r.diagnostic.kind.name),
     ("message", .str r.diagnostic.message),
     ("source", .str r.source),
     ("span", .ofOption Span.encode r.span)]

/-- The JSON report on a checked expression; the SQL is there if the expression has no errors. -/
def encodeAnswer (dialect : Dialect) (n : Node) (c : Checked) (fragment : Option Fragment) : Json :=
  .obj
    [("ast", n.encode (some c)),
     ("datatype", .ofOption (fun t => .str t.name) c.dataType?),
     ("dialect", .str dialect.name),
     ("errors", .arr ((n.report c).map encodeReport)),
     ("params", .arr (((fragment.map (·.params)).getD []).map fun p => .str p.text)),
     ("sql", .ofOption (fun f => .str f.sql) fragment)]

/-- Reads a document. -/
def parseDocument (text : String) : Except CommandFault Json :=
  match Json.parse text with
  | some document => .ok document
  | none => .error .notJson

/-- A fault of the library as fault of a command. -/
def lift {α : Type} : Except Fault α → Except CommandFault α := Except.mapError .refused

/-- The SQL of a checked expression, if it has no errors. -/
def generateValid (ctx : Context) (n : Node) (c : Checked) : Except Fault (Option Fragment) :=
  if c.isValid then (ctx.generate n c).map some else .ok none

/-- Compiles an expression in a context. -/
def compileIn (ctx : Context) (json : Bool) (n : Node) : Except Fault CompileOutput := do
  let c ← ctx.check n
  if json then
    let fragment ← generateValid ctx n c
    return .report (encodeAnswer ctx.dialect n c fragment)
  else
    let fragment ← ctx.generate n c
    return .sql fragment

/-- `execute_compile`: compiles an expression. -/
def compile (o : CompileOptions) : Except CommandFault CompileOutput :=
  match o.expression with
  | none => .error .noInput
  | some text => do
    let document ← parseDocument o.schema
    let schema ← lift (Schema.ofJson document)
    let document ← parseDocument text
    let n ← lift (Node.decode document)
    let rules ← lift (registry o.dialect)
    lift (compileIn ⟨schema, rules, o.literals⟩ o.json n)

/-- The lines for the values of placeholders, from a number on. -/
def paramLines (dialect : Dialect) : Nat → List Param → List String
  | _, [] => []
  | index, p :: ps =>
    ("-- " ++ dialect.placeholder index ++ " = " ++ p.text ++ "\n") ::
      paramLines dialect (index + 1) ps

/-- What is printed for an answer. -/
def CompileOutput.text (dialect : Dialect) : CompileOutput → String
  | sql fragment => fragment.sql ++ "\n" ++ String.join (paramLines dialect 1 fragment.params)
  | report document => document.pretty ++ "\n"

end TypedSql.Command
