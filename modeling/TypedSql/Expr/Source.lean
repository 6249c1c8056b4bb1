import TypedSql.Expr.Kind

/-!
# Source text

The text of an expression in its own language. An expression with an origin has the text it was
written as; any other expression is written canonically, with parentheses only where they are
needed.
-/

namespace TypedSql

namespace Text

/-- Whether a character is a control character. -/
def isControl (c : Char) : Bool := c.toNat < 0x20 || (0x7F ≤ c.toNat && c.toNat < 0xA0)

/-- The quote of a string literal: single, unless only double quotes need no escape. -/
def literalQuote (cs : List Char) : Char :=
  if cs.contains '\'' && !cs.contains '"' then '"' else '\''

/-- One character of a string literal with the given quote. -/
def literalChar (quote c : Char) : List Char :=
  if c = '\\' then ['\\', '\\']
  else if c = '\n' then ['\\', 'n']
  else if c = '\r' then ['\\', 'r']
  else if c = '\t' then ['\\', 't']
  else if c = quote then ['\\', c]
  else if isControl c then ['\\', 'x', Nat.digitChar (c.toNat / 16), Nat.digitChar (c.toNat % 16)]
  else [c]

/-- The characters of a string literal. -/
def literalChars (cs : List Char) : List Char :=
  let quote := literalQuote cs
  quote :: cs.flatMap (literalChar quote) ++ [quote]

/-- `repr_str`: a text as string literal of the expression language. -/
def literal (text : String) : String := String.ofList (literalChars text.toList)

end Text

/-- The precedence of the conditional, the loosest of all forms. -/
def ifPrecedence : Nat := 1

/-- The precedence of a negative number, which is written with a sign. -/
def signPrecedence : Nat := 12

/-- The precedence of calls, attributes and item access. -/
def postfixPrecedence : Nat := 14

/-- The precedence of forms that never need parentheses. -/
def atomPrecedence : Nat := 15

/-- How tightly the text of a constant holds together. -/
def Constant.precedence : Constant → Nat
  | int n => if n < 0 then signPrecedence else atomPrecedence
  | number d => if d.negative then signPrecedence else atomPrecedence
  | _ => atomPrecedence

/-- A constant in source text. -/
def Constant.source : Constant → String
  | null => "None"
  | bool b => if b then "True" else "False"
  | int n => toString n.toInt
  | number d => if d.scale = 0 then d.text ++ ".0" else d.text
  | str s => Text.literal s
  | date d => "@(" ++ d.text ++ ")"
  | dateTime t => "@(" ++ t.text ++ ")"

/-- `precedence`: how tightly the text of a layer holds together. -/
def Expr.precedence {α : Type} : Expr α → Nat
  | const c => c.precedence
  | field _ => atomPrecedence
  | unary op _ => op.precedence
  | binary op _ _ => op.precedence
  | ifElse _ _ _ => ifPrecedence
  | func _ _ => postfixPrecedence
  | meth _ _ _ => postfixPrecedence
  | attr _ _ => postfixPrecedence
  | aggregate _ _ => postfixPrecedence

/-- The text of an expression and how tightly it holds together. -/
structure Phrase where
  text : String
  precedence : Nat

namespace Phrase

/-- `wrap`: the text of a phrase, in parentheses if it does not hold together as tightly as
`least`. -/
def atLeast (p : Phrase) (least : Nat) : String :=
  if p.precedence < least then "(" ++ p.text ++ ")" else p.text

/-- `render_args`: the texts of arguments, separated by commas. -/
def arguments (args : List Phrase) : String := String.intercalate ", " (args.map text)

/-- `render`: the canonical text of a layer. -/
def ofLayer : Expr Phrase → String
  | .const c => c.source
  | .field path => path
  | .unary op a => op.symbol ++ a.atLeast op.precedence
  | .binary op a b =>
    if op = .item then
      a.atLeast postfixPrecedence ++ "[" ++ b.text ++ "]"
    else
      let left := if op.isComparison then op.precedence + 1 else op.precedence
      a.atLeast left ++ " " ++ op.symbol ++ " " ++ b.atLeast (op.precedence + 1)
  | .ifElse a c b =>
    a.atLeast (ifPrecedence + 1) ++ " if " ++ c.atLeast (ifPrecedence + 1) ++ " else " ++
      b.atLeast ifPrecedence
  | .func name args => name ++ "(" ++ arguments args ++ ")"
  | .meth a name args => a.atLeast postfixPrecedence ++ "." ++ name ++ "(" ++ arguments args ++ ")"
  | .attr a name => a.atLeast postfixPrecedence ++ "." ++ name
  | .aggregate g args => g.name ++ "(" ++ arguments args ++ ")"

end Phrase

namespace Node

/-- The text of an expression and how tightly it holds together. An origin replaces the text, and
the precedence remains that of the expression. -/
def phrase : Node → Phrase :=
  fold fun n layer =>
    ⟨match n.origin with
      | some origin => origin.source
      | none => Phrase.ofLayer layer,
     n.expr.precedence⟩

/-- `source`: the source text of an expression. -/
def source (n : Node) : String := n.phrase.text

end Node

end TypedSql
