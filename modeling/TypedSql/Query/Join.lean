import TypedSql.Query.Basic

/-!
# Joins

A dotted path needs the tables of all groups that it passes through. Each of them is joined once,
under an alias of its own, from the first segment of the path on. The join condition becomes a
condition of the query.
-/

namespace TypedSql

/-- A query after a step, and the fault that ended the step before its time. What the step did
before is kept. -/
structure Outcome where
  query : Query
  fault : Option Fault

namespace Outcome

/-- A step that went through. -/
def done (q : Query) : Outcome := ⟨q, none⟩

/-- A step that was refused. -/
def refused (q : Query) (fault : Fault) : Outcome := ⟨q, some fault⟩

/-- Goes on with a step, unless it was refused. -/
def andThen (o : Outcome) (next : Query → Outcome) : Outcome :=
  match o.fault with
  | none => next o.query
  | some _ => o

end Outcome

/-- A join condition with the aliases of the referring table, if it has one, and of the joined
table. -/
def Reference.condition {α : Type} (r : Reference α) (parent : Option String)
    (aliasName : String) : String :=
  let condition := match parent with
    | some parent => Text.replace r.join "\x7bm\x7d" parent
    | none => r.join
  Text.replace condition "\x7bd\x7d" aliasName

namespace Query

/-- The alias for the next table that is joined. -/
def nextAlias (q : Query) : String := "t" ++ toString (q.tables.length + 1)

/-- The alias of the table that a path goes out from. -/
def parentAlias (q : Query) (path : String) : Option String := do
  let (parent, _) ← Path.splitLast? path
  let aliasName ← q.aliases.lookup parent
  aliasName

/-- Joins the group of a reference for a path. A group without table adds its condition only. -/
def addJoin (q : Query) (path : String) (r : Reference Field) : Query :=
  let aliasName := q.nextAlias
  let condition := r.condition (q.parentAlias path) aliasName
  let q := if condition.isEmpty then q else q.pushCondition (.sql condition)
  match r.group.table with
  | some table =>
    { q.pushTable ⟨table, some aliasName⟩ with aliases := q.aliases ++ [(path, some aliasName)] }
  | none => { q with aliases := q.aliases ++ [(path, none)] }

/-- Joins the group that the last field of a path refers to, unless that was done before. -/
def joinLast (q : Query) (path : String) : Outcome :=
  match q.aliases.lookup path with
  | some _ => .done q
  | none =>
    match q.context.requireField path with
    | .error fault => .refused q fault
    | .ok f =>
      match f.reference with
      | none => .refused q (.noReference path)
      | some r => .done (q.addJoin path r)

/-- Joins the groups that paths refer to, one after the other. -/
def joinEach (q : Query) : List String → Outcome
  | [] => .done q
  | path :: paths => (q.joinLast path).andThen fun q => q.joinEach paths

/-- `join`: joins all groups along a path, the shortest path first. -/
def join (q : Query) (path : String) : Outcome := q.joinEach (Path.prefixes path)

/-- Joins all groups along several paths. -/
def joinPaths (q : Query) : List String → Outcome
  | [] => .done q
  | path :: paths => (q.join path).andThen fun q => q.joinPaths paths

end Query

namespace Node

/-- The paths that the dotted fields of an expression go out from. -/
def fieldParentsStep (_ : Node) (layer : Expr (List String)) : List String :=
  match layer with
  | .field path => ((Path.splitLast? path).map (·.1)).toList
  | _ => layer.children.flatten

/-- `collect_field_parents`: the paths that have to be joined for the fields of an expression, in
the order of the fields. -/
def fieldParents : Node → List String := fold fieldParentsStep

end Node

/-- `join_fields`: joins what the fields of an expression need. -/
def Query.joinFields (q : Query) (n : Node) : Outcome := q.joinPaths n.fieldParents

end TypedSql
