import TypedSql.Query.Join

/-!
# Steps of a query

Each step adds one part to a query. Expressions are checked as they are added, the select list is
kept either about rows or about groups of rows, and the tables of dotted paths are joined.
-/

namespace TypedSql

/-- A step of a query. -/
inductive Step where
  | selectExpr (node : Node) (aliasName : Option String)
  | selectSql (sql : String) (aliasName : Option String)
  | fromSql (sql : String) (aliasName : Option String)
  /-- Joins the groups along a path. -/
  | fromPath (path : String)
  | whereExpr (node : Node)
  | whereSql (sql : String)
  | groupByExpr (node : Node)
  | groupBySql (sql : String)
  | orderExpr (node : Node) (direction : Option Direction) (nulls : Option Nulls)
  | orderSql (sql : String)
  | offset (rows : UInt64)
  | limit (rows : UInt64)

namespace Identifier

/-- Whether a character is a letter of the Latin alphabet or an underscore. -/
def isStart (c : Char) : Bool := c.isAlpha || c = '_'

/-- Whether a character may occur in an identifier. -/
def isPart (c : Char) : Bool := c.isAlphanum || c = '_' || c = '$' || c = '#'

/-- Whether a text is an identifier that needs no quotes. -/
def isPlain (name : String) : Bool :=
  match name.toList with
  | [] => false
  | c :: cs => isStart c && cs.all isPart

/-- `check_identifier`: refuses an alias that is no identifier. -/
def checkAlias : Option String → Except Fault Unit
  | some name => if isPlain name then .ok () else .error (.badIdentifier name)
  | none => .ok ()

end Identifier

namespace Node

/-- The grouping keys of a checked expression: the arguments of `group` that are not inside another
one. -/
def groupKeysStep (n : Node) (layer : Expr (Checked → List (Node × Checked))) (c : Checked) :
    List (Node × Checked) :=
  match n.expr with
  | .aggregate .group args =>
    match args, c.children with
    | arg :: _, child :: _ => [(arg, child)]
    | _, _ => []
  | _ => (List.zipWith (fun keys child => keys child) layer.children c.children).flatten

/-- `collect_group_keys`: the grouping keys of a checked expression. -/
def groupKeys : Node → Checked → List (Node × Checked) := fold groupKeysStep

end Node

/-- `accept`: the mode after an item of the given level and source. -/
def SelectMode.extend (mode : SelectMode) (level : Level) (source : String) :
    Except Fault SelectMode :=
  match mode.accept level with
  | some mode => .ok mode
  | none => .error (.mixedSelection source)

/-- `checked`: checks an expression and refuses it if it has errors. -/
def Context.checkValid (ctx : Context) (n : Node) : Except Fault Checked :=
  match ctx.check n with
  | .error fault => .error fault
  | .ok c => if c.isValid then .ok c else .error (.unresolved (n.report c))

/-- Checks an expression and refuses it if it has errors or is about groups of rows. -/
def Context.checkRows (ctx : Context) (n : Node) (d : Diagnostic) : Except Fault Checked :=
  match ctx.checkValid n with
  | .error fault => .error fault
  | .ok c => if c.level.isAggregated then .error (.unresolved [Report.ofNode n d]) else .ok c

namespace Query

/-- Goes on with a value, or refuses the step. -/
def tryWith {α : Type} (q : Query) (value : Except Fault α) (next : α → Outcome) : Outcome :=
  match value with
  | .ok a => next a
  | .error fault => .refused q fault

/-- `select_vsql`: adds an expression to the select list, and its grouping keys to the grouping. -/
def selectExpr (q : Query) (n : Node) (aliasName : Option String) : Outcome :=
  q.tryWith (Identifier.checkAlias aliasName) fun _ =>
  q.tryWith (q.context.checkValid n) fun c =>
  q.tryWith (q.mode.extend c.level n.source) fun mode =>
  (joinFields { q with mode } n).andThen fun q =>
  let q := (n.groupKeys c).foldl (fun q (key, child) => q.pushGroupKey (.expr key child)) q
  .done (q.pushSelect ⟨.expr n c, aliasName⟩)

/-- `select_sql`: adds plain SQL to the select list; it counts as an expression about rows. -/
def selectSql (q : Query) (sql : String) (aliasName : Option String) : Outcome :=
  q.tryWith (Identifier.checkAlias aliasName) fun _ =>
  q.tryWith (q.mode.extend .row sql) fun mode =>
  .done (pushSelect { q with mode } ⟨.sql sql, aliasName⟩)

/-- `from_sql`: adds a table. -/
def fromSql (q : Query) (sql : String) (aliasName : Option String) : Outcome :=
  q.tryWith (Identifier.checkAlias aliasName) fun _ =>
  .done (q.pushTable ⟨sql, aliasName⟩)

/-- `where_vsql`: adds a condition. It must not be about groups of rows. -/
def whereExpr (q : Query) (n : Node) : Outcome :=
  q.tryWith (q.context.checkRows n n.aggregateCondition) fun c =>
  (q.joinFields n).andThen fun q =>
  .done (q.pushCondition (.expr n c))

/-- `group_by_vsql`: adds a grouping key. It must not be about groups of rows itself. -/
def groupByExpr (q : Query) (n : Node) : Outcome :=
  q.tryWith (q.context.checkRows n n.aggregateKey) fun c =>
  q.tryWith (q.mode.extend (.aggregated .group) n.source) fun mode =>
  (joinFields { q with mode } n).andThen fun q =>
  .done (q.pushGroupKey (.expr n c))

/-- `group_by_sql`: adds plain SQL as grouping key. -/
def groupBySql (q : Query) (sql : String) : Outcome :=
  q.tryWith (q.mode.extend (.aggregated .group) sql) fun mode =>
  .done (pushGroupKey { q with mode } (.sql sql))

/-- `order_vsql`: adds an expression to the order. -/
def orderExpr (q : Query) (n : Node) (direction : Option Direction) (nulls : Option Nulls) :
    Outcome :=
  q.tryWith (q.context.checkValid n) fun c =>
  (q.joinFields n).andThen fun q =>
  .done (q.pushOrder ⟨.expr n c, direction, nulls⟩)

/-- `order_sql`: adds plain SQL to the order; a direction and a place of nulls at its end are
recognised. -/
def orderSql (q : Query) (sql : String) : Query :=
  let (rest, direction, nulls) := Order.split sql
  q.pushOrder ⟨.sql rest, direction, nulls⟩

/-- Does one step. -/
def apply (q : Query) : Step → Outcome
  | .selectExpr n aliasName => q.selectExpr n aliasName
  | .selectSql sql aliasName => q.selectSql sql aliasName
  | .fromSql sql aliasName => q.fromSql sql aliasName
  | .fromPath path => q.join path
  | .whereExpr n => q.whereExpr n
  | .whereSql sql => .done (q.pushCondition (.sql sql))
  | .groupByExpr n => q.groupByExpr n
  | .groupBySql sql => q.groupBySql sql
  | .orderExpr n direction nulls => q.orderExpr n direction nulls
  | .orderSql sql => .done (q.orderSql sql)
  | .offset rows => .done { q with offset := some rows }
  | .limit rows => .done { q with limit := some rows }

/-- The outcomes of steps, one after the other. A step that was refused does not keep the following
ones from being done. -/
def outcomes (q : Query) : List Step → List Outcome
  | [] => []
  | step :: steps =>
    let o := q.apply step
    o :: o.query.outcomes steps

/-- The query after all steps. -/
def run (q : Query) (steps : List Step) : Query :=
  steps.foldl (fun q step => (q.apply step).query) q

end Query

end TypedSql
