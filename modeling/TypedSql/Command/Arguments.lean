import TypedSql.Dialect

/-!
# Arguments of the command line

A command is followed by options and positional arguments in any order. An option with a value is
written `--option value`, `--option=value`, `-o value`, `-ovalue` or `-o=value`. No option may be
repeated. Behind `--` all arguments are positional. Arguments are judged from left to right, so a
wrong one counts if it stands before a request for help, and does not if it stands behind it.
-/

namespace TypedSql.Command

/-- An option of a command. -/
inductive OptionSpec where
  /-- An option in its long and its short form, and which values it takes. -/
  | valued (long : String) (short : Char) (accepts : String → Bool)
  | flag (long : String)

namespace OptionSpec

/-- The long form of an option. -/
def long : OptionSpec → String
  | valued long _ _ => long
  | flag long => long

/-- The short form of an option. -/
def short? : OptionSpec → Option Char
  | valued _ short _ => some short
  | flag _ => none

end OptionSpec

/-- What may follow a command. -/
structure Expectation where
  options : List OptionSpec := []
  /-- Which texts the positional argument can be, if there is one. -/
  positional : Option (String → Bool) := none

/-- Why arguments lead to no command: they are wrong, or they ask for help. -/
inductive Refusal where
  | usage
  | help
  deriving DecidableEq

/-- Arguments that have been taken apart. -/
structure Arguments where
  /-- The values of options under their long forms. -/
  values : List (String × String) := []
  flags : List String := []
  positional : Option String := none

namespace Arguments

/-- Adds the value of an option. -/
def addValue (a : Arguments) (long : String) (accepts : String → Bool) (value : String) :
    Except Refusal Arguments :=
  if (a.values.lookup long).isSome || !accepts value then .error .usage
  else .ok { a with values := a.values ++ [(long, value)] }

/-- Adds a flag. -/
def addFlag (a : Arguments) (long : String) : Except Refusal Arguments :=
  if a.flags.contains long then .error .usage else .ok { a with flags := a.flags ++ [long] }

/-- Adds a positional argument. -/
def addPositional (expected : Expectation) (a : Arguments) (text : String) :
    Except Refusal Arguments :=
  match expected.positional, a.positional with
  | some accepts, none =>
    if accepts text then .ok { a with positional := some text } else .error .usage
  | _, _ => .error .usage

/-- One argument, taken apart. -/
inductive Token where
  /-- The mark behind which all arguments are positional. -/
  | rest
  | long (name : String) (attached : Option String)
  | short (letter : Char) (attached : Option String)
  | plain (text : String)

/-- Splits a text at its first equals sign. -/
def splitEquals : List Char → List Char × Option (List Char)
  | [] => ([], none)
  | c :: cs =>
    if c = '=' then ([], some cs)
    else
      let (name, value) := splitEquals cs
      (c :: name, value)

/-- The value that is attached to a short option. -/
def attachedShort : List Char → Option String
  | [] => none
  | '=' :: cs => some (String.ofList cs)
  | cs => some (String.ofList cs)

/-- Takes an argument apart. A single dash is a plain argument. -/
def token (arg : String) : Token :=
  match arg.toList with
  | ['-', '-'] => .rest
  | '-' :: '-' :: cs =>
    let (name, value) := splitEquals cs
    .long (String.ofList name) (value.map String.ofList)
  | '-' :: c :: cs => .short c (attachedShort cs)
  | _ => .plain arg

/-- Whether an argument can be the value of the option before it. -/
def isPlain (arg : String) : Bool :=
  match token arg with
  | .plain _ => true
  | _ => false

/-- The option with the given long form. -/
def findLong (specs : List OptionSpec) (name : String) : Option OptionSpec :=
  specs.find? fun spec => spec.long = name

/-- The option with the given short form. -/
def findShort (specs : List OptionSpec) (letter : Char) : Option OptionSpec :=
  specs.find? fun spec => spec.short? = some letter

/-- The option that an argument starts, with the value attached to it. -/
def optionOf (specs : List OptionSpec) : Token → Except Refusal (OptionSpec × Option String)
  | .long name attached =>
    match findLong specs name, attached with
    | some spec, _ => .ok (spec, attached)
    | none, none => if name = "help" then .error .help else .error .usage
    | none, some _ => .error .usage
  | .short letter attached =>
    match findShort specs letter with
    | some spec => .ok (spec, attached)
    | none => if letter = 'h' then .error .help else .error .usage
  | _ => .error .usage

/-- Takes the arguments of a command apart, behind those that have been read already. -/
def parseFrom (expected : Expectation) (a : Arguments) : List String → Except Refusal Arguments
  | [] => .ok a
  | arg :: args =>
    match token arg with
    | .rest => args.foldlM (addPositional expected) a
    | .plain text =>
      match a.addPositional expected text with
      | .error refusal => .error refusal
      | .ok a => parseFrom expected a args
    | t =>
      match optionOf expected.options t with
      | .error refusal => .error refusal
      | .ok (.flag long, none) =>
        match a.addFlag long with
        | .error refusal => .error refusal
        | .ok a => parseFrom expected a args
      | .ok (.flag _, some _) => .error .usage
      | .ok (.valued long _ accepts, some value) =>
        match a.addValue long accepts value with
        | .error refusal => .error refusal
        | .ok a => parseFrom expected a args
      | .ok (.valued long _ accepts, none) =>
        match args with
        | [] => .error .usage
        | value :: rest =>
          if isPlain value then
            match a.addValue long accepts value with
            | .error refusal => .error refusal
            | .ok a => parseFrom expected a rest
          else .error .usage

/-- Takes the arguments of a command apart. -/
def parse (expected : Expectation) (args : List String) : Except Refusal Arguments :=
  parseFrom expected {} args

/-- The dialect that the arguments ask for. -/
def dialect (a : Arguments) : Dialect :=
  ((a.values.lookup "dialect").bind Dialect.ofName?).getD .oracle

end Arguments

/-- Whether a text can be the name of a file. -/
def isFileName (text : String) : Bool := !text.isEmpty

/-- The words that a command line can start with. -/
inductive Verb where
  | compile
  | functions
  | rules
  | help
  deriving DecidableEq

/-- The word with the given spelling. -/
def Verb.ofName? (name : String) : Option Verb :=
  if name = "compile" then some compile
  else if name = "functions" then some functions
  else if name = "rules" then some rules
  else if name = "help" then some help
  else none

/-- What the command line asks for. -/
inductive Invocation where
  /-- Compile the expression of a file, or of the standard input. -/
  | compile (schema : String) (expression : Option String) (dialect : Dialect) (bind json : Bool)
  | functions
  | rules (name : Option String) (dialect : Dialect)
  | version
  deriving DecidableEq

namespace Invocation

/-- The option for the dialect. -/
def dialectOption : OptionSpec := .valued "dialect" 'd' fun name => (Dialect.ofName? name).isSome

/-- What may follow `compile`. -/
def compileExpectation : Expectation where
  options := [.valued "schema" 's' isFileName, dialectOption, .flag "bind", .flag "json"]
  positional := some isFileName

/-- What may follow `rules`. -/
def rulesExpectation : Expectation where
  options := [dialectOption]
  positional := some fun _ => true

/-- Reads the arguments of `compile`. -/
def parseCompile (args : List String) : Except Refusal Invocation := do
  let a ← Arguments.parse compileExpectation args
  match a.values.lookup "schema" with
  | none => .error .usage
  | some schema =>
    return .compile schema a.positional a.dialect (a.flags.contains "bind")
      (a.flags.contains "json")

/-- Reads the arguments of `functions`. -/
def parseFunctions (args : List String) : Except Refusal Invocation := do
  let _ ← Arguments.parse {} args
  return .functions

/-- Reads the arguments of `rules`. -/
def parseRules (args : List String) : Except Refusal Invocation := do
  let a ← Arguments.parse rulesExpectation args
  return .rules a.positional a.dialect

/-- Where the arguments of `help` lead: it takes at most one word, which must be one that a command
line can start with. -/
def helpRefusal : List String → Refusal
  | [] => .help
  | [name] => if (Verb.ofName? name).isSome then .help else .usage
  | _ => .usage

/-- Reads a command line that starts with an option. -/
def parseOption (arg : String) : Except Refusal Invocation :=
  match Arguments.token arg with
  | .long name none =>
    if name = "version" then .ok .version
    else if name = "help" then .error .help
    else .error .usage
  | .short letter _ =>
    if letter = 'V' then .ok .version
    else if letter = 'h' then .error .help
    else .error .usage
  | _ => .error .usage

/-- Reads the command line. -/
def parse : List String → Except Refusal Invocation
  | [] => .error .usage
  | arg :: args =>
    match Verb.ofName? arg with
    | some .compile => parseCompile args
    | some .functions => parseFunctions args
    | some .rules => parseRules args
    | some .help => .error (helpRefusal args)
    | none => parseOption arg

end Invocation

end TypedSql.Command
