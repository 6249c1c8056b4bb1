import TypedSql.DataType
import TypedSql.Dialect

/-!
# Schemas

The fields that expressions may refer to. A field may refer to a group of further fields, usually
the columns of another table, which is reached by a join. A dotted path such as
`person.manager.name` goes from a field of the schema through such groups.
-/

namespace TypedSql

/-- Further fields that are reached through a field: the table they belong to, if any, and the
fields in the order of their identifiers. -/
structure Group (α : Type) where
  table : Option String
  fields : List α

/-- How a field refers to a group: the condition of the join, in which `{m}` stands for the alias of
the referring table and `{d}` for the alias of the group's table. -/
structure Reference (α : Type) where
  join : String
  group : Group α

/-- A field of a schema or of a group. -/
structure Field where
  identifier : String
  dataType : DataType
  /-- The SQL of the field, in which `{a}` stands for the alias of its table; without it the field
  is the column of its name. -/
  sql : Option String
  reference : Option (Reference Field)

/-- The fields of a schema, in the order of their identifiers. -/
structure Schema where
  fields : List Field

/-- The field with the given identifier. -/
def findField (fields : List Field) (identifier : String) : Option Field :=
  fields.find? fun f => f.identifier = identifier

/-- `get`: the field of a group with the given identifier, or else the field `*` for all others. -/
def Group.get? (g : Group Field) (identifier : String) : Option Field :=
  (findField g.fields identifier).orElse fun _ => findField g.fields "*"

namespace Field

/-- `reference_sql`: the SQL of a field under an identifier, in a table with the given alias or
without one. -/
def sqlAs (f : Field) (identifier : String) (aliasName : Option String) : String :=
  match f.sql, aliasName with
  | some sql, some aliasName => Text.replace sql "\x7ba\x7d" aliasName
  | some sql, none => sql
  | none, some aliasName => aliasName ++ "." ++ quoteIdentifier identifier
  | none, none => quoteIdentifier identifier

end Field

end TypedSql
