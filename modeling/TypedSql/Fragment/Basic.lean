import TypedSql.Checked.Basic
import TypedSql.Context

/-!
# SQL fragments

A piece of SQL with the values that are bound to its placeholders. Generating SQL collects these
values as it goes along: a generator takes the values bound so far and returns its text with the
values bound after it.
-/

namespace TypedSql

/-- A value that is bound to a placeholder. -/
inductive Param where
  | str (value : String)
  | date (value : Date)
  | dateTime (value : DateTime)
  deriving DecidableEq

/-- A bound value as text. -/
def Param.text : Param → String
  | str s => s
  | date d => d.text
  | dateTime t => t.sqlText

/-- A bound value as literal of a dialect. -/
def Param.literal (d : Dialect) : Param → String
  | str s => d.quoteText s
  | date v => d.dateLiteral v
  | dateTime t => d.dateTimeLiteral t

/-- SQL with the values of its placeholders (`SqlFragment`), in the order of their numbers. -/
structure Fragment where
  sql : String
  params : List Param
  deriving DecidableEq

/-- A generator of text (`Generator`); its state are the values bound so far. -/
abbrev Emit (α : Type) := StateT (List Param) (Except Fault) α

/-- The aliases of the tables that dotted paths lead to (`JoinAliases`); a group without table has
none. -/
abbrev Aliases := List (String × Option String)

namespace Emit

/-- `bind`: binds a value and returns its placeholder. -/
def bindParam (d : Dialect) (p : Param) : Emit String := do
  let params ← get
  set (params ++ [p])
  return d.placeholder (params.length + 1)

/-- Refuses to generate. -/
def fail {α : Type} (fault : Fault) : Emit α := throw fault

/-- `finish`: runs a generator from the start. -/
def toFragment (e : Emit String) : Except Fault Fragment :=
  match e.run [] with
  | .ok (sql, params) => .ok ⟨sql, params⟩
  | .error fault => .error fault

end Emit

end TypedSql
