import TypedSql.Text.DecimalDigit
import TypedSql.Text.Numeral

/-!
# SQL templates

A template is a text with numbered references to operands, such as `lower({1})`. It is kept as the
list of its pieces. A reference is a pair of braces around decimal digits of any script; its number
counts from one, has to be written in ASCII digits, has to fit into 64 bits and may not exceed the
number of operands.
-/

namespace TypedSql

/-- A piece of a template. -/
inductive Piece where
  | text (text : String)
  /-- The operand with the given index, counted from zero. -/
  | child (index : Nat)
  deriving DecidableEq

/-- An SQL text with references to operands. -/
structure Template where
  pieces : List Piece
  deriving DecidableEq

namespace Template

/-- Why a text is no template. -/
inductive Fault where
  /-- The digits of a reference are not a number of 64 bits. -/
  | invalidIndex (reference : String)
  /-- There is no such operand. -/
  | outOfRange (reference : String) (arity : Nat) (text : String)
  deriving DecidableEq

/-- The wording of a fault. -/
def Fault.message : Fault → String
  | invalidIndex reference => s!"reference {reference} is not a valid index"
  | outOfRange reference arity text =>
    s!"reference {reference} out of range for {arity} operand(s) in `{text}`"

/-- A character of a template that belongs to no reference, or the digits of a reference. -/
inductive Token where
  | char (c : Char)
  | reference (digits : List Char)

/-- `reference_regex`: the digits of a reference behind its opening brace. -/
def referenceDigits? (cs : List Char) : Option (List Char) :=
  let digits := cs.takeWhile Text.isDecimalDigit
  if digits.isEmpty then none
  else
    match cs.dropWhile Text.isDecimalDigit with
    | '\x7d' :: _ => some digits
    | _ => none

/-- Splits a text into characters and references, where the first `skip` characters belong to a
reference that has been found already. -/
def tokensFrom : Nat → List Char → List Token
  | _, [] => []
  | skip + 1, _ :: cs => tokensFrom skip cs
  | 0, c :: cs =>
    if c = '\x7b' then
      match referenceDigits? cs with
      | some digits => .reference digits :: tokensFrom (digits.length + 1) cs
      | none => .char c :: tokensFrom 0 cs
    else
      .char c :: tokensFrom 0 cs

/-- The text of a reference. -/
def referenceText (digits : List Char) : String := "\x7b" ++ String.ofList digits ++ "\x7d"

/-- The index of an operand, counted from zero, that the digits of a reference denote. -/
def indexOf (text : String) (arity : Nat) (digits : List Char) : Except Fault Nat :=
  match Text.natOfDigits? digits with
  | none => .error (.invalidIndex (referenceText digits))
  | some n =>
    if UInt64.size ≤ n then .error (.invalidIndex (referenceText digits))
    else if n = 0 ∨ arity < n then .error (.outOfRange (referenceText digits) arity text)
    else .ok (n - 1)

/-- Puts a character in front of pieces whose texts are still lists of characters. -/
def consChar (c : Char) : List (List Char ⊕ Nat) → List (List Char ⊕ Nat)
  | .inl cs :: pieces => .inl (c :: cs) :: pieces
  | pieces => .inl [c] :: pieces

/-- The pieces of a list of tokens; adjacent characters form one piece. -/
def gather (text : String) (arity : Nat) : List Token → Except Fault (List (List Char ⊕ Nat))
  | [] => .ok []
  | .char c :: tokens => do
    let pieces ← gather text arity tokens
    .ok (consChar c pieces)
  | .reference digits :: tokens => do
    let index ← indexOf text arity digits
    let pieces ← gather text arity tokens
    .ok (.inr index :: pieces)

/-- A piece from its characters or its index. -/
def pieceOf : List Char ⊕ Nat → Piece
  | .inl cs => .text (String.ofList cs)
  | .inr index => .child index

/-- `parse`: reads a template for the given number of operands. -/
def parse (text : String) (arity : Nat) : Except Fault Template := do
  let pieces ← gather text arity (tokensFrom 0 text.toList)
  .ok ⟨pieces.map pieceOf⟩

/-- The text of a piece; a reference counts from one. -/
def pieceText : Piece → String
  | .text text => text
  | .child index => referenceText (Nat.toDigits 10 (index + 1))

/-- The text of a template. -/
def text (t : Template) : String := String.join (t.pieces.map pieceText)

/-- `remap`: sends the references of a template to other operands, index `i` to entry `i` of
`mapping` if there is one. -/
def remap (mapping : List Nat) (t : Template) : Template :=
  ⟨t.pieces.map fun
    | .text text => .text text
    | .child index => .child (mapping.getD index index)⟩

end Template

end TypedSql
