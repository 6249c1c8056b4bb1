import TypedSql.Command.Arguments
import TypedSql.Command.Compile
import TypedSql.Command.Listing

/-!
# Running commands

What a command prints and how it ends, given the files and the standard input that it finds.
-/

namespace TypedSql.Command

/-- What a command prints, and its exit code. -/
structure Response where
  exit : UInt8
  stdout : String
  stderr : String
  deriving DecidableEq

/-- What a command finds. -/
structure Surroundings where
  /-- The text of a file, or why it cannot be read. -/
  readFile : String → Except String String
  /-- The standard input; a terminal is none. -/
  input : Option String

/-- The commands in short. -/
def usage : String :=
  "Usage: vsql compile --schema <SCHEMA> [--dialect <DIALECT>] [--bind] [--json] [AST]\n" ++
  "       vsql functions\n" ++
  "       vsql rules [--dialect <DIALECT>] [NAME]\n"

namespace Response

/-- A command that did what it should. -/
def success (stdout : String) : Response := ⟨0, stdout, ""⟩

/-- A command that was refused. -/
def failure (fault : CommandFault) : Response := ⟨1, "", fault.message ++ "\n"⟩

/-- The response with the text of a command, or with its fault. -/
def ofExcept : Except CommandFault String → Response
  | .ok stdout => success stdout
  | .error fault => failure fault

/-- Arguments that lead to no command. -/
def ofRefusal : Refusal → Response
  | .usage => ⟨2, "", usage⟩
  | .help => success usage

end Response

namespace Surroundings

/-- Reads a file. -/
def read (s : Surroundings) (name : String) : Except CommandFault String :=
  (s.readFile name).mapError .io

/-- The document of the expression: that of a file if one is named, and else the standard input. -/
def expression (s : Surroundings) : Option String → Except CommandFault (Option String)
  | some name => (s.read name).map some
  | none => .ok s.input

/-- What a command prints. The file of the expression is read before that of the schema. -/
def output (s : Surroundings) : Invocation → Except CommandFault String
  | .compile schema expression dialect bind json => do
    let expression ← s.expression expression
    let schema ← s.read schema
    let answer ← Command.compile ⟨schema, expression, dialect, bind, json⟩
    return answer.text dialect
  | .functions => .ok listFunctions
  | .rules name dialect => lift (listRules dialect name)
  | .version => .ok "vsql 0.2.0\n"

end Surroundings

/-- `main`: runs the command line. -/
def run (s : Surroundings) (args : List String) : Response :=
  match Invocation.parse args with
  | .error refusal => .ofRefusal refusal
  | .ok invocation => .ofExcept (s.output invocation)

/-- The files that a command reads. -/
def Invocation.files : Invocation → List String
  | .compile schema expression _ _ _ => expression.toList ++ [schema]
  | _ => []

/-- Whether a command reads the standard input. -/
def Invocation.readsInput : Invocation → Bool
  | .compile _ none _ _ _ => true
  | _ => false

end TypedSql.Command
