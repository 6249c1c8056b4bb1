import Mathlib.Data.List.Induction
import TypedSql.Proofs.Emission
import TypedSql.Proofs.Grouping

/-!
# Which conditions are in force

Steps and joins ask for conditions, and of several conditions with the same key the first one is
kept. The key of an expression is its source and the key of plain SQL is the SQL itself, so a
condition can be dropped in favour of an earlier one that says something else. The conditions of a
statement are those that were the first to be asked for under their key, and no others.
-/

namespace TypedSql

/-! ## The first entry of each key -/

/-- Whether an entry stands in a list with no entry of the same key before it. -/
def Entry.IsFirst (e : Entry) (asked : List Entry) : Prop :=
  ∃ before after, asked = before ++ e :: after ∧ ∀ d ∈ before, d.key ≠ e.key

/-- Every entry that was asked for has a counterpart of its key among those that were kept. -/
theorem exists_key_foldl_pushEntry {asked : List Entry} {key : String} :
    (∃ d ∈ asked.foldl pushEntry [], d.key = key) ↔ ∃ d ∈ asked, d.key = key := by
  induction asked using List.reverseRecOn with
  | nil => rfl
  | append_singleton asked a ih =>
    rw [List.foldl_append, List.foldl_cons, List.foldl_nil]
    constructor
    · rintro ⟨d, hd, hkey⟩
      rcases mem_pushEntry_iff.1 hd with hd | ⟨rfl, -⟩
      · obtain ⟨d', hd', hkey'⟩ := ih.1 ⟨d, hd, hkey⟩
        exact ⟨d', List.mem_append_left _ hd', hkey'⟩
      · exact ⟨d, by simp, hkey⟩
    · rintro ⟨d, hd, hkey⟩
      by_cases hold : ∃ d ∈ asked.foldl pushEntry [], d.key = key
      · obtain ⟨d', hd', hkey'⟩ := hold
        exact ⟨d', mem_pushEntry_iff.2 (Or.inl hd'), hkey'⟩
      · rcases List.mem_append.1 hd with hd | hd
        · exact absurd (ih.2 ⟨d, hd, hkey⟩) hold
        · rw [List.mem_singleton] at hd
          subst hd
          refine ⟨d, mem_pushEntry_iff.2 (Or.inr ⟨rfl, fun d' hd' hkey' => ?_⟩), hkey⟩
          exact hold ⟨d', hd', hkey'.trans hkey⟩

theorem Entry.isFirst_append_singleton {e a : Entry} {asked : List Entry} :
    e.IsFirst (asked ++ [a]) ↔ e.IsFirst asked ∨ e = a ∧ ∀ d ∈ asked, d.key ≠ a.key := by
  constructor
  · rintro ⟨before, after, hsplit, hne⟩
    induction after using List.reverseRecOn with
    | nil =>
      obtain ⟨rfl, ha⟩ := List.append_inj' hsplit rfl
      cases ha
      exact Or.inr ⟨rfl, hne⟩
    | append_singleton after b _ =>
      rw [← List.cons_append, ← List.append_assoc] at hsplit
      obtain ⟨rfl, -⟩ := List.append_inj' hsplit rfl
      exact Or.inl ⟨before, after, rfl, hne⟩
  · rintro (⟨before, after, rfl, hne⟩ | ⟨rfl, hne⟩)
    · exact ⟨before, after ++ [a], by simp, hne⟩
    · exact ⟨asked, [], rfl, hne⟩

/-- An entry is kept if and only if it is the first one of its key. -/
theorem mem_foldl_pushEntry_iff {asked : List Entry} {e : Entry} :
    e ∈ asked.foldl pushEntry [] ↔ e.IsFirst asked := by
  induction asked using List.reverseRecOn with
  | nil => simp [Entry.IsFirst]
  | append_singleton asked a ih =>
    have hkeys : (∀ d ∈ asked.foldl pushEntry [], d.key ≠ a.key) ↔ ∀ d ∈ asked, d.key ≠ a.key := by
      simpa using not_congr (@exists_key_foldl_pushEntry asked a.key)
    rw [List.foldl_append, List.foldl_cons, List.foldl_nil, mem_pushEntry_iff, ih, hkeys,
      Entry.isFirst_append_singleton]

/-! ## What is asked for -/

namespace Query

/-- The condition that joining the last group of a path asks for, unless that was done before. -/
def asksOfLast (q : Query) (path : String) : List Entry :=
  if (q.aliases.lookup path).isSome then []
  else
    match (q.context.schema.resolve? path).bind (·.reference) with
    | some r => q.joinCondition path r
    | none => []

/-- The conditions that joining paths one after the other asks for, up to the first path that cannot
be joined. -/
def asksOfEach (q : Query) : List String → List Entry
  | [] => []
  | path :: paths =>
    q.asksOfLast path ++
      if (q.joinLast path).fault.isNone then (q.joinLast path).query.asksOfEach paths else []

/-- The conditions that joining what the fields of an expression need asks for. -/
def asksOfFields (q : Query) (n : Node) : List Entry :=
  q.asksOfEach (n.fieldParents.flatMap Path.prefixes)

/-- The conditions that a step asks for, in this order: those of the joins it does, and its own. -/
def asks (q : Query) (step : Step) : List Entry :=
  match step with
  | .fromPath path => q.asksOfEach (Path.prefixes path)
  | .whereSql sql => [.sql sql]
  | .whereExpr n =>
    if (q.apply step).fault.isNone then
      q.asksOfFields n ++ (q.context.check n).toOption.toList.map (.expr n)
    else []
  | .selectExpr n _ | .groupByExpr n | .orderExpr n _ _ =>
    if (q.apply step).fault.isNone then q.asksOfFields n else []
  | _ => []

/-- The conditions that steps ask for, one after the other. -/
def asked (q : Query) : List Step → List Entry
  | [] => []
  | step :: steps => q.asks step ++ (q.apply step).query.asked steps

/-! ## What is kept -/

theorem joinLast_conditions (q : Query) (path : String) :
    (q.joinLast path).query.conditions = (q.asksOfLast path).foldl pushEntry q.conditions := by
  unfold joinLast asksOfLast Context.requireField
  cases q.aliases.lookup path with
  | some aliasName => rfl
  | none =>
    cases q.context.schema.resolve? path with
    | none => rfl
    | some f =>
      cases hr : f.reference with
      | none => simp [hr, Outcome.refused]
      | some r => simp [hr, Outcome.done, addJoin_eq]

/-- Joining pushes the conditions that it asks for. -/
theorem joinEach_conditions (q : Query) (paths : List String) :
    (q.joinEach paths).query.conditions = (q.asksOfEach paths).foldl pushEntry q.conditions := by
  induction paths generalizing q with
  | nil => rfl
  | cons path paths ih =>
    rw [joinEach, asksOfEach, List.foldl_append, ← joinLast_conditions]
    cases hfault : (q.joinLast path).fault with
    | none => simp [Outcome.andThen, hfault, ih]
    | some fault => simp [Outcome.andThen, hfault]

theorem joinFields_conditions (q : Query) (n : Node) :
    (q.joinFields n).query.conditions = (q.asksOfFields n).foldl pushEntry q.conditions := by
  rw [joinFields, joinPaths_eq, joinEach_conditions, asksOfFields]

theorem joinLast_mode (q : Query) (mode : SelectMode) (path : String) :
    joinLast { q with mode } path =
      ⟨{ (q.joinLast path).query with mode }, (q.joinLast path).fault⟩ := by
  unfold joinLast
  cases q.aliases.lookup path with
  | some aliasName => simp [Outcome.done]
  | none =>
    cases q.context.requireField path with
    | error fault => simp [Outcome.refused]
    | ok f =>
      cases hr : f.reference with
      | none => simp [hr, Outcome.refused]
      | some r =>
        simp only [hr, Outcome.done, addJoin_eq]
        rfl

/-- What joins ask for does not depend on the mode of the query. -/
theorem asksOfFields_mode (q : Query) (mode : SelectMode) (n : Node) :
    asksOfFields { q with mode } n = q.asksOfFields n := by
  have heach : ∀ (paths : List String) (q : Query),
      asksOfEach { q with mode } paths = q.asksOfEach paths := by
    intro paths
    induction paths with
    | nil => exact fun _ => rfl
    | cons path paths ih =>
      intro q
      rw [asksOfEach, asksOfEach, joinLast_mode, ih]
      rfl
  exact heach _ q

/-- A step pushes the conditions that it asks for. -/
theorem apply_conditions (q : Query) (step : Step) :
    (q.apply step).query.conditions = (q.asks step).foldl pushEntry q.conditions := by
  cases step with
  | selectExpr n aliasName =>
    rw [asks]
    rcases q.selectExpr_cases n aliasName with ⟨fault, h⟩ | ⟨c, mode, -, -, -, h⟩
    · simp [apply, h, Outcome.refused]
    · simp [apply, h, Outcome.done, pushSelect, pushGroupKeys, joinFields_conditions,
        asksOfFields_mode]
  | fromSql sql aliasName =>
    rcases q.fromSql_cases sql aliasName with ⟨fault, h⟩ | h <;> rw [apply, h] <;> rfl
  | selectSql sql aliasName =>
    rcases q.selectSql_cases sql aliasName with ⟨fault, h⟩ | ⟨mode, -, h⟩ <;> rw [apply, h] <;> rfl
  | fromPath path => exact q.joinEach_conditions (Path.prefixes path)
  | whereExpr n =>
    rw [asks]
    rcases q.whereExpr_cases n with ⟨fault, h⟩ | ⟨c, hcheck, -, -, h⟩
    · simp [apply, h, Outcome.refused]
    · simp [apply, h, Outcome.done, pushCondition, joinFields_conditions, hcheck,
        Except.toOption]
  | whereSql sql => rfl
  | groupByExpr n =>
    rw [asks]
    rcases q.groupByExpr_cases n with ⟨fault, h⟩ | ⟨c, mode, -, -, -, -, h⟩
    · simp [apply, h, Outcome.refused]
    · simp [apply, h, Outcome.done, pushGroupKey, joinFields_conditions, asksOfFields_mode]
  | groupBySql sql =>
    rcases q.groupBySql_cases sql with ⟨fault, h⟩ | ⟨mode, -, h⟩ <;> rw [apply, h] <;> rfl
  | orderExpr n direction nulls =>
    rw [asks]
    rcases q.orderExpr_cases n direction nulls with ⟨fault, h⟩ | ⟨c, -, -, h⟩
    · simp [apply, h, Outcome.refused]
    · simp [apply, h, Outcome.done, pushOrder, joinFields_conditions]
  | orderSql sql => rfl
  | offset rows => rfl
  | limit rows => rfl

/-- All steps together push the conditions that they ask for. -/
theorem run_conditions (q : Query) (steps : List Step) :
    (q.run steps).conditions = (q.asked steps).foldl pushEntry q.conditions := by
  induction steps generalizing q with
  | nil => rfl
  | cons step steps ih =>
    rw [asked, List.foldl_append, ← apply_conditions]
    exact ih (q.apply step).query

/-- The conditions of a query that was empty are the first ones asked for under their keys. -/
theorem mem_run_conditions_iff {context : Context} {mode : SelectMode} {comment : Option String}
    {steps : List Step} {e : Entry} :
    e ∈ (run { context, mode, comment } steps).conditions ↔
      e.IsFirst (asked { context, mode, comment } steps) := by
  rw [run_conditions]
  exact mem_foldl_pushEntry_iff

/-- If a query that was empty, in any mode, has a statement, its `where` clause consists of the SQL
of the conditions that were the first ones asked for under their keys. A condition that was asked
for is therefore in force if and only if one of these has the same SQL; the first one with its own
key is always in force, but may have other SQL. -/
theorem condition_in_force_iff {context : Context} {mode : SelectMode} {comment : Option String}
    {steps : List Step} {f : Fragment} (hinline : context.literals = .inline)
    (h : (run { context, mode, comment } steps).statement = .ok f) :
    let q := run { context, mode, comment } steps
    let asked := asked { context, mode, comment } steps
    ∃ items sqls keys order,
      f.sql = q.assemble items (sqls.map q.conditionLine) keys order ∧
      q.conditions.mapM q.conditionSql = .ok sqls ∧
      ∀ e ∈ asked,
        (∀ sql, q.conditionSql e = .ok sql →
          (sql ∈ sqls ↔ ∃ d : Entry, d.IsFirst asked ∧ q.conditionSql d = .ok sql)) ∧
        ∃ d : Entry, d.IsFirst asked ∧ d.key = e.key ∧
          ∃ sql ∈ sqls, q.conditionSql d = .ok sql := by
  intro q asked
  have hcontext : q.context = context := run_context _ steps
  obtain ⟨items, sqls, keys, order, -, hsqls, -, -, rfl⟩ :=
    (statement_eq_ok_iff (by rw [hcontext]; exact hinline)).1 h
  have hkept := mapM_eq_ok_iff.1 hsqls
  refine ⟨items, sqls, keys, order, rfl, hsqls, fun e he => ⟨fun sql _ => ⟨fun hmem => ?_, ?_⟩, ?_⟩⟩
  · obtain ⟨d, hd, hdsql⟩ := exists_of_forall₂_of_mem hkept.flip hmem
    exact ⟨d, mem_run_conditions_iff.1 hd, hdsql⟩
  · rintro ⟨d, hfirst, hdsql⟩
    obtain ⟨sql', hmem, hsql'⟩ :=
      exists_of_forall₂_of_mem hkept (mem_run_conditions_iff.2 hfirst)
    cases hdsql.symm.trans hsql'
    exact hmem
  · obtain ⟨d, hd, hkey⟩ := exists_key_foldl_pushEntry.2 ⟨e, he, rfl⟩
    rw [mem_foldl_pushEntry_iff] at hd
    obtain ⟨sql, hmem, hsql⟩ := exists_of_forall₂_of_mem hkept (mem_run_conditions_iff.2 hd)
    exact ⟨d, hd, hkey, sql, hmem, hsql⟩

/-- A schema with the field `active`, which stands for a column of another name. -/
def activeContext : Context :=
  ⟨⟨[⟨"active", .bool, some "customer_active", none⟩]⟩, ⟨.postgres, [], rfl⟩, .inline⟩

/-- Asks for the column `active` and then for the field `active`. -/
def activeSteps : List Step := [.whereSql "active", .whereExpr (.ofExpr (.field "active"))]

/-- The field `active` has the source of the column `active` as its key, so the condition on the
field is not in force, though its step went through. -/
theorem condition_in_force_iff_active :
    let q := run { context := activeContext } activeSteps
    let e := Entry.expr (.ofExpr (.field "active")) ⟨.leaf .bool, .row, []⟩
    e ∈ asked { context := activeContext } activeSteps ∧
      q.conditionSql e = .ok "customer_active = 1" ∧
      q.statement = .ok ⟨"select\n\t42\nwhere\n\tactive\n", []⟩ ∧
      ∃ sqls, q.conditions.mapM q.conditionSql = .ok sqls ∧ "customer_active = 1" ∉ sqls := by
  intro q e
  have hstatement : q.statement = .ok ⟨"select\n\t42\nwhere\n\tactive\n", []⟩ := rfl
  have hsql : q.conditionSql e = .ok "customer_active = 1" := rfl
  have hasked : asked { context := activeContext } activeSteps = [.sql "active", e] := rfl
  have he : e ∈ asked { context := activeContext } activeSteps := by simp [hasked]
  obtain ⟨items, sqls, keys, order, -, hsqls, hall⟩ := condition_in_force_iff rfl hstatement
  refine ⟨he, hsql, hstatement, sqls, hsqls, fun hmem => ?_⟩
  obtain ⟨d, ⟨before, after, hsplit, hne⟩, hd⟩ := ((hall e he).1 _ hsql).1 hmem
  rw [hasked] at hsplit
  cases before with
  | nil =>
    cases hsplit
    have hfirst : q.conditionSql (.sql "active") = .ok "active" := rfl
    have htexts : "active" = "customer_active = 1" := Except.ok.inj (hfirst.symm.trans hd)
    exact absurd htexts (by decide)
  | cons first before =>
    obtain ⟨rfl, hrest⟩ := List.cons.inj hsplit
    cases before with
    | nil =>
      cases hrest
      exact hne _ List.mem_cons_self rfl
    | cons second before => simp at hrest

end Query

end TypedSql
