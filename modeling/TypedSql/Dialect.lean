import TypedSql.Calendar.Basic
import TypedSql.Text.Replace

/-!
# SQL dialects

The literal syntax of the two target dialects. Every text from outside that goes into SQL passes
through one of the quoting functions of this module.
-/

namespace TypedSql

/-- A target dialect. -/
inductive Dialect where
  | oracle
  | postgres
  deriving DecidableEq

namespace Dialect

/-- The name of a dialect. -/
def name : Dialect → String
  | oracle => "oracle"
  | postgres => "postgres"

/-- `from_name`: the dialect of a name, in any mixture of upper and lower case. -/
def ofName? (name : String) : Option Dialect :=
  let lower := String.ofList (name.toList.map Char.toLower)
  if lower = "oracle" then some oracle
  else if lower = "postgres" ∨ lower = "postgresql" then some postgres
  else none

open Text (doubled)

/-- The characters of a string literal. Quotes are doubled; a Postgres literal with a backslash
takes the escape form, in which backslashes are doubled too. -/
def quoteChars (d : Dialect) (cs : List Char) : List Char :=
  if d = postgres && cs.contains '\\' then
    'E' :: '\'' :: doubled '\\' (doubled '\'' cs) ++ ['\'']
  else
    '\'' :: doubled '\'' cs ++ ['\'']

/-- `quote_str`: a text as string literal. -/
def quoteText (d : Dialect) (text : String) : String := String.ofList (d.quoteChars text.toList)

/-- `date_literal`: a date as literal. -/
def dateLiteral (d : Dialect) (date : Date) : String :=
  match d with
  | oracle => "to_date(" ++ d.quoteText date.text ++ ", 'YYYY-MM-DD')"
  | postgres => "date " ++ d.quoteText date.text

/-- `datetime_literal`: a moment as literal. -/
def dateTimeLiteral (d : Dialect) (moment : DateTime) : String :=
  match d with
  | oracle => "to_date(" ++ d.quoteText moment.sqlText ++ ", 'YYYY-MM-DD HH24:MI:SS')"
  | postgres => "timestamp " ++ d.quoteText moment.sqlText

/-- `placeholder`: the mark of the parameter with the given number, counted from one. -/
def placeholder : Dialect → Nat → String
  | oracle, index => ":" ++ toString index
  | postgres, index => "$" ++ toString index

/-- `empty_from`: the table of a statement that names none; Postgres needs no table. -/
def emptyFrom : Dialect → Option String
  | oracle => some "dual"
  | postgres => none

end Dialect

/-- The characters of a quoted identifier, in which double quotes are doubled. -/
def identifierChars (cs : List Char) : List Char := '"' :: Text.doubled '"' cs ++ ['"']

/-- `quote_identifier`: a name as quoted identifier. -/
def quoteIdentifier (name : String) : String := String.ofList (identifierChars name.toList)

/-- The characters of a comment. Delimiters in the text are pulled apart, so that the comment ends
where it should. -/
def commentChars (cs : List Char) : List Char :=
  let opened := Text.replaceFrom ['/', '*'] ['/', ' ', '*'] 0 cs
  let closed := Text.replaceFrom ['*', '/'] ['*', ' ', '/'] 0 opened
  ['/', '*', ' '] ++ closed ++ [' ', '*', '/']

/-- `make_comment`: a text as SQL comment. -/
def comment (text : String) : String := String.ofList (commentChars text.toList)

end TypedSql
