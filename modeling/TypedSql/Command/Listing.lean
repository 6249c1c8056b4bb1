import TypedSql.Rule.Registry
import TypedSql.Text.Blank
import TypedSql.Text.Numeral

/-!
# Listings

The commands `functions` and `rules`, which list the vocabulary of expressions and the rules of a
dialect.
-/

namespace TypedSql.Command

/-- What a name of the vocabulary stands for. -/
def describe : Maker → String
  | .unary op => "unary operator `" ++ String.ofList (Text.trimEnd op.symbol.toList) ++ "`"
  | .binary op => "binary operator `" ++ op.symbol ++ "`"
  | .ifElse => "conditional `a if c else b`"
  | .func _ => "function"
  | .aggregate _ => "aggregate"

/-- How many operands a name of the vocabulary takes. -/
def describeArity : Option Nat → String
  | some n => toString n ++ " operand(s)"
  | none => "any arguments"

/-- The line for a name of the vocabulary. -/
def functionLine (name : String) (m : Maker) : String :=
  "  " ++ Text.padRight 14 name ++ Text.padRight 32 (describe m) ++ describeArity m.arity ++ "\n"

/-- `list_functions`: the vocabulary, one line for each name. -/
def listFunctions : String := String.join (vocabulary.map fun (name, m) => functionLine name m)

/-- Whether a rule is asked for: by its operator or by the name that it is called by. -/
def isListed (filter : Option String) (r : Rule) : Bool :=
  match filter with
  | some word => r.operator.text = word || r.name = some word
  | none => true

/-- `list_rules`: the rules of a dialect, one line for each. -/
def listRules (dialect : Dialect) (filter : Option String) : Except Fault String := do
  let table ← registry dialect
  return String.join ((table.rules.filter (isListed filter)).map fun r => r.text ++ "\n")

end TypedSql.Command
