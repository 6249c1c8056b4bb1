import TypedSql.Text.Blank

/-!
# Order by

The direction and the place of nulls of an `order by` entry. In an entry of plain SQL they are
written behind the expression, in any mixture of upper and lower case: `name desc nulls last`.
-/

namespace TypedSql

/-- The direction of an order. -/
inductive Direction where
  | asc
  | desc
  deriving DecidableEq

/-- Where an order puts nulls. -/
inductive Nulls where
  | first
  | last
  deriving DecidableEq

/-- The word for a direction. -/
def Direction.name : Direction → String
  | asc => "asc"
  | desc => "desc"

/-- The word for a place of nulls. -/
def Nulls.name : Nulls → String
  | first => "first"
  | last => "last"

/-- What SQL has for a direction behind the expression. -/
def Direction.suffix (d : Direction) : String := " " ++ d.name

/-- What SQL has for a place of nulls behind the expression and its direction. -/
def Nulls.suffix (n : Nulls) : String := " nulls " ++ n.name

namespace Order

/-- `strip_suffix_ignore_case`: the characters before an ending in lower case, which may be written
in upper case; `none` for texts that end differently. -/
def dropEnding (ending cs : List Char) : Option (List Char) :=
  if ending.length ≤ cs.length ∧
      (cs.drop (cs.length - ending.length)).map Char.toLower = ending then
    some (cs.take (cs.length - ending.length))
  else
    none

/-- Splits off the first of the given endings that a text has, with the white space before it. -/
def splitEnding {α : Type} : List (List Char × α) → List Char → List Char × Option α
  | [], cs => (cs, none)
  | (ending, value) :: endings, cs =>
    match dropEnding ending cs with
    | some rest => (Text.trimEnd rest, some value)
    | none => splitEnding endings cs

/-- The endings for the place of nulls. -/
def nullsEndings : List (List Char × Nulls) :=
  [Nulls.first, Nulls.last].map fun n => (n.suffix.toList, n)

/-- The endings for the direction. -/
def directionEndings : List (List Char × Direction) :=
  [Direction.asc, Direction.desc].map fun d => (d.suffix.toList, d)

/-- Splits an `order by` entry into the expression, the direction and the place of nulls. -/
def splitChars (cs : List Char) : List Char × Option Direction × Option Nulls :=
  let (rest, nulls) := splitEnding nullsEndings (Text.trimEnd cs)
  let (rest, direction) := splitEnding directionEndings rest
  (rest, direction, nulls)

/-- `split_order_suffix`: splits the text of an `order by` entry. -/
def split (text : String) : String × Option Direction × Option Nulls :=
  let (rest, direction, nulls) := splitChars text.toList
  (String.ofList rest, direction, nulls)

end Order

end TypedSql
