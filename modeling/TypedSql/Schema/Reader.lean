import TypedSql.Fault
import TypedSql.Json.Reader
import TypedSql.Schema.Basic

/-!
# Loading schemas

A schema document is an object that maps identifiers to type names or to objects with the members
`type`, `sql`, `join` and `group`. A group is an object with the members `table` and `fields`, where
`fields` is a schema document again. Entries are read in the order of their identifiers, and the
first fault counts.
-/

namespace TypedSql.Schema

/-- `optional_str`: a member that is a string or absent; null counts as absent. -/
def optionalText (entry : List (String × Json)) (member identifier : String) :
    Except Fault (Option String) :=
  match Keyed.get? member entry with
  | none => .ok none
  | some .null => .ok none
  | some (.str text) => .ok (some text)
  | some _ => .error (.badSchema (.notString member identifier))

/-- The type of a name. -/
def typeOfName (name : String) : Except Fault DataType :=
  match DataType.ofName? name with
  | some t => .ok t
  | none => .error (.unknownType name)

/-- The type of a field's entry. -/
def typeOfEntry (entry : List (String × Json)) (identifier : String) : Except Fault DataType :=
  match (Keyed.get? "type" entry).bind Json.str? with
  | some name => typeOfName name
  | none => .error (.badSchema (.noType identifier))

/-- What the entry of a field has under `group`. -/
inductive GroupEntry where
  | absent
  | malformed
  /-- An object, with its members and what its fields are read as. -/
  | group (entry : List (String × Json)) (fields : Except Fault (List Field))

mutual

/-- `fields_from_json`: reads a document of fields. -/
def readFields : Json → Except Fault (List Field)
  | .obj members => readEntries members
  | _ => .error (.badSchema .notObject)

/-- Reads the entries of a document, one after the other. -/
def readEntries : List (String × Json) → Except Fault (List Field)
  | [] => .ok []
  | (identifier, entry) :: rest => do
    let f ← readField identifier entry
    let fs ← readEntries rest
    .ok (f :: fs)

/-- `field_from_json`: reads the entry of a field. -/
def readField (identifier : String) : Json → Except Fault Field
  | .str name => do
    let t ← typeOfName name
    .ok ⟨identifier, t, none, none⟩
  | .obj entry => do
    let t ← typeOfEntry entry identifier
    let sql ← optionalText entry "sql" identifier
    let join ← optionalText entry "join" identifier
    match join, readGroup entry with
    | none, .absent => .ok ⟨identifier, t, sql, none⟩
    | some join, .group entry fields => do
      let table ← optionalText entry "table" identifier
      let fields ← fields
      .ok ⟨identifier, t, sql, some ⟨join, ⟨table, fields⟩⟩⟩
    | _, _ => .error (.badSchema (.joinOrGroup identifier))
  | _ => .error (.badSchema (.badEntry identifier))

/-- `group_from_json`: looks for the group of a field's entry. -/
def readGroup : List (String × Json) → GroupEntry
  | [] => .absent
  | (member, value) :: rest =>
    if member = "group" then
      match value with
      | .null => .absent
      | .obj entry => .group entry (readGroupFields entry)
      | _ => .malformed
    else readGroup rest

/-- Reads the fields of a group; there are none without a member `fields`. -/
def readGroupFields : List (String × Json) → Except Fault (List Field)
  | [] => .ok []
  | (member, value) :: rest =>
    if member = "fields" then readFields value else readGroupFields rest

end

/-- `from_json`: reads a schema document. -/
def ofJson (document : Json) : Except Fault Schema := do
  let fields ← readFields document
  .ok ⟨fields⟩

/-- `from_json_str`: reads a schema from the text of a document. -/
def ofText (text : String) : Except Fault Schema :=
  match Json.parse text with
  | some document => ofJson document
  | none => .error (.badSchema .notJson)

end TypedSql.Schema
