import TypedSql.Proofs.Steps

/-!
# Rows and groups in a query

A query selects either rows or groups of rows, and its mode says which. The mode is decided before
the parts of a step are stored, and it never gets ahead of them: whatever steps are done, refused
ones included, the select list and the grouping agree with the mode, and neither a condition nor a
grouping key contains an aggregate function.
-/

namespace TypedSql

/-! ## Grouping keys of an expression -/

namespace Node

/-- The grouping key of a call of `group` is its argument. -/
theorem groupKeys_group {n : Node} {args : List Node} (h : n.expr = .aggregate .group args)
    (c : Checked) : n.groupKeys c = (args.zip c.children).head?.toList := by
  rw [groupKeys, fold_eq, groupKeysStep, h]
  cases args with
  | nil => rfl
  | cons arg args => cases c.children <;> rfl

/-- The grouping keys of any other expression are those of its operands. -/
theorem groupKeys_of_ne {n : Node} (h : ∀ args, n.expr ≠ .aggregate .group args) (c : Checked) :
    n.groupKeys c = (List.zipWith groupKeys n.children c.children).flatten := by
  have hlayer : (n.expr.map groupKeys).children = n.children.map groupKeys :=
    Expr.children_map groupKeys n.expr
  rw [groupKeys, fold_eq, ← groupKeys, groupKeysStep, hlayer, List.zipWith_map_left]
  split
  · rename_i args hn
    exact absurd hn (h args)
  · rfl

/-- A grouping key of an expression is a part of it. -/
theorem mem_preorder_of_mem_groupKeys {n arg : Node} {c child : Checked}
    (h : (arg, child) ∈ n.groupKeys c) : arg ∈ n.preorder := by
  induction n using Node.induction generalizing c with
  | step n ih =>
    by_cases hgroup : ∃ args, n.expr = .aggregate .group args
    · obtain ⟨args, hn⟩ := hgroup
      rw [groupKeys_group hn] at h
      have hzip := List.mem_of_mem_head? (Option.mem_toList.1 h)
      have harg : arg ∈ n.children := by
        rw [children, hn]
        exact (List.of_mem_zip hzip).1
      exact mem_preorder_iff.2 (Or.inr ⟨arg, harg, mem_preorder_self arg⟩)
    · have hne : ∀ args, n.expr ≠ .aggregate .group args := fun args hn => hgroup ⟨args, hn⟩
      rw [groupKeys_of_ne hne, ← List.map_uncurry_zip_eq_zipWith, ← List.flatMap_def] at h
      obtain ⟨⟨m, d⟩, hzip, hkey⟩ := List.mem_flatMap.1 h
      have hm : m ∈ n.children := (List.of_mem_zip hzip).1
      exact mem_preorder_iff.2 (Or.inr ⟨m, hm, ih m hm hkey⟩)

/-- A grouping key of a valid expression stands below an aggregate function. It is valid itself and
not about groups of rows. -/
theorem mem_groupKeys {ctx : Context} {n arg : Node} {c child : Checked}
    (h : ctx.check n = .ok c) (hv : c.isValid = true) (hkey : (arg, child) ∈ n.groupKeys c) :
    (∃ m ∈ n.preorder, m.IsAggregate) ∧
      ctx.check arg = .ok child ∧ child.isValid = true ∧ child.level.isAggregated = false := by
  induction n using Node.induction generalizing c with
  | step n ih =>
    have hchildren := Context.check_children h
    by_cases hgroup : ∃ args, n.expr = .aggregate .group args
    · obtain ⟨args, hn⟩ := hgroup
      have hzip : (arg, child) ∈ List.zip n.children c.children := by
        rw [groupKeys_group hn] at hkey
        rw [children, hn]
        exact List.mem_of_mem_head? (Option.mem_toList.1 hkey)
      have hchild : child ∈ c.children := (List.of_mem_zip hzip).2
      refine ⟨⟨n, mem_preorder_self n, .group, args, hn⟩, List.forall₂_zip hchildren hzip, ?_, ?_⟩
      · exact Context.isValid_children h hv child hchild
      · exact Context.level_children_of_aggregate h hv hn child hchild
    · have hne : ∀ args, n.expr ≠ .aggregate .group args := fun args hn => hgroup ⟨args, hn⟩
      rw [groupKeys_of_ne hne] at hkey
      obtain ⟨m, hm, d, hd, hcheck, hkey⟩ := exists_of_mem_flatten_zipWith hchildren hkey
      obtain ⟨⟨a, ha, hagg⟩, harg⟩ := ih m hm hcheck (Context.isValid_children h hv d hd) hkey
      exact ⟨⟨a, mem_preorder_iff.2 (Or.inr ⟨m, hm, ha⟩), hagg⟩, harg⟩

end Node

/-! ## Modes -/

/-- Whether a mode agrees with the levels of the selected items and with there being grouping
keys. -/
def SelectMode.Fits (mode : SelectMode) (levels : List Level) (grouped : Prop) : Prop :=
  match mode with
  | undecided => (∀ l ∈ levels, l = .constant) ∧ ¬ grouped
  | rows => (∀ l ∈ levels, l.isAggregated = false) ∧ .row ∈ levels ∧ ¬ grouped
  | aggregated _ => .row ∉ levels ∧ ((∃ l ∈ levels, l.isAggregated = true) ∨ grouped)

namespace SelectMode

variable {mode mode' : SelectMode} {levels : List Level} {grouped grouped' : Prop}

/-- A mode that accepts an item fits the select list with this item, if only an item about groups
adds grouping keys. -/
theorem Fits.append {level : Level} (h : mode.Fits levels grouped)
    (haccept : mode.accept level = some mode') (hold : grouped → grouped')
    (hnew : grouped' → grouped ∨ level.isAggregated = true) :
    mode'.Fits (levels ++ [level]) grouped' := by
  cases mode <;> cases level <;> cases haccept <;>
    simp_all [Fits, Level.isAggregated] <;> grind

/-- A mode that accepts groups fits once there is a grouping key. -/
theorem Fits.group {g : Aggregate} (h : mode.Fits levels grouped)
    (haccept : mode.accept (.aggregated g) = some mode') (hnew : grouped') :
    mode'.Fits levels grouped' := by
  cases mode with
  | undecided =>
    cases haccept
    refine ⟨fun hrow => ?_, Or.inr hnew⟩
    cases h.1 _ hrow
  | rows => cases haccept
  | aggregated a =>
    cases haccept
    exact ⟨h.1, Or.inr hnew⟩

end SelectMode

/-! ## Queries -/

namespace Entry

/-- What an entry is about; plain SQL counts as being about rows. -/
def level : Entry → Level
  | expr _ c => c.level
  | sql _ => .row

/-- Whether the result that is kept for an expression is that of checking it, and nothing is wrong
with it. -/
def IsChecked (ctx : Context) : Entry → Prop
  | expr n c => ctx.check n = .ok c ∧ c.isValid = true
  | sql _ => True

/-- Whether an entry is free of aggregate functions, as far as it is an expression. -/
def IsRowwise : Entry → Prop
  | expr n _ => ∀ m ∈ n.preorder, ¬ m.IsAggregate
  | sql _ => True

end Entry

/-- Whether the parts of a query in a context agree with its mode. -/
structure Query.Consistent (q : Query) (ctx : Context) : Prop where
  context : q.context = ctx
  mode : q.mode.Fits (q.select.map (·.entry.level)) (q.groupBy ≠ [])
  checked : ∀ item ∈ q.select, item.entry.IsChecked ctx
  conditions : ∀ e ∈ q.conditions, e.IsRowwise
  groupBy : ∀ e ∈ q.groupBy, e.IsRowwise

namespace Query

variable {q q' : Query} {ctx : Context}

/-- Joins keep conditions free of aggregate functions, whatever mode they are done in. -/
theorem ExtendsByJoins.isRowwise {mode : SelectMode} (h : q'.ExtendsByJoins { q with mode })
    (hq : q.Consistent ctx) : ∀ e ∈ q'.conditions, e.IsRowwise := by
  intro e he
  rcases h.conditions e he with he | ⟨text, rfl⟩
  · exact hq.conditions e he
  · trivial

namespace Consistent

theorem joins (hq : q.Consistent ctx) (h : q'.ExtendsByJoins q) : q'.Consistent ctx where
  context := h.context.trans hq.context
  mode := by
    rw [h.mode, h.select, h.groupBy]
    exact hq.mode
  checked := by
    rw [h.select]
    exact hq.checked
  conditions := h.isRowwise hq
  groupBy := by
    rw [h.groupBy]
    exact hq.groupBy

theorem selectExpr (hq : q.Consistent ctx) (n : Node) (aliasName : Option String) :
    (q.selectExpr n aliasName).query.Consistent ctx := by
  rcases q.selectExpr_cases n aliasName with ⟨fault, h⟩ | ⟨c, mode, hcheck, hvalid, haccept, h⟩
  · rw [h]
    exact hq
  have hext := extendsByJoins_joinFields { q with mode } n
  have hkeys : ∀ key ∈ n.groupKeys c, (∃ m ∈ n.preorder, m.IsAggregate) ∧
      Entry.IsRowwise (.expr key.1 key.2) := by
    intro ⟨arg, child⟩ hkey
    obtain ⟨hagg, hchild, hchildValid, hlevel⟩ := Node.mem_groupKeys hcheck hvalid hkey
    exact ⟨hagg, fun m hm => Context.not_isAggregate_of_mem_preorder hchild hchildValid hlevel hm⟩
  rw [h]
  constructor
  case context => exact hext.context.trans hq.context
  case mode =>
    simp only [Outcome.done, pushSelect, pushGroupKeys, hext.mode, hext.select, hext.groupBy,
      List.map_append, List.map_cons, List.map_nil]
    refine hq.mode.append haccept (fun hold => foldl_pushEntry_ne_nil_iff.2 (Or.inl hold)) ?_
    intro hnew
    rcases foldl_pushEntry_ne_nil_iff.1 hnew with hold | hnew
    · exact Or.inl hold
    · -- a new grouping key stands below an aggregate function of the selected expression
      have hne : n.groupKeys c ≠ [] := fun hnil => hnew (by simp [hnil])
      obtain ⟨key, hkey⟩ := List.exists_mem_of_ne_nil _ hne
      obtain ⟨⟨m, hm, hagg⟩, -⟩ := hkeys key hkey
      refine Or.inr (Bool.of_not_eq_false fun hlevel => ?_)
      exact Context.not_isAggregate_of_mem_preorder hcheck hvalid hlevel hm hagg
  case checked =>
    intro item hitem
    simp only [Outcome.done, pushSelect, pushGroupKeys, hext.select, List.mem_append,
      List.mem_singleton] at hitem
    rcases hitem with hitem | rfl
    · exact hq.checked item hitem
    · rw [hq.context] at hcheck
      exact ⟨hcheck, hvalid⟩
  case conditions => exact hext.isRowwise hq
  case groupBy =>
    intro e he
    simp only [Outcome.done, pushSelect, pushGroupKeys, hext.groupBy] at he
    rcases mem_foldl_pushEntry he with he | he
    · exact hq.groupBy e he
    · obtain ⟨key, hkey, rfl⟩ := List.mem_map.1 he
      exact (hkeys key hkey).2

theorem selectSql (hq : q.Consistent ctx) (sql : String) (aliasName : Option String) :
    (q.selectSql sql aliasName).query.Consistent ctx := by
  rcases q.selectSql_cases sql aliasName with ⟨fault, h⟩ | ⟨mode, haccept, h⟩
  · rw [h]
    exact hq
  rw [h]
  refine ⟨hq.context, ?_, ?_, hq.conditions, hq.groupBy⟩
  · simp only [Outcome.done, pushSelect, List.map_append, List.map_cons, List.map_nil]
    exact hq.mode.append haccept id Or.inl
  · intro item hitem
    rcases List.mem_append.1 hitem with hitem | hitem
    · exact hq.checked item hitem
    · rw [List.mem_singleton.1 hitem]
      trivial

/-- A grouping key that is free of aggregate functions can be added in a mode for groups. -/
theorem pushGroupKey {mode : SelectMode} {e : Entry} (hq : q.Consistent ctx)
    (haccept : q.mode.accept (.aggregated .group) = some mode)
    (hext : q'.ExtendsByJoins { q with mode }) (he : e.IsRowwise) :
    (q'.pushGroupKey e).Consistent ctx where
  context := hext.context.trans hq.context
  mode := by
    simp only [Query.pushGroupKey, hext.mode, hext.select]
    exact hq.mode.group haccept (pushEntry_ne_nil _ _)
  checked := by
    simp only [Query.pushGroupKey, hext.select]
    exact hq.checked
  conditions := hext.isRowwise hq
  groupBy := by
    intro e' he'
    rcases mem_pushEntry he' with he' | rfl
    · rw [hext.groupBy] at he'
      exact hq.groupBy e' he'
    · exact he

theorem pushCondition {e : Entry} (hq : q.Consistent ctx) (he : e.IsRowwise) :
    (q.pushCondition e).Consistent ctx := by
  refine ⟨hq.context, hq.mode, hq.checked, fun e' he' => ?_, hq.groupBy⟩
  rcases mem_pushEntry he' with he' | rfl
  · exact hq.conditions e' he'
  · exact he

theorem groupByExpr (hq : q.Consistent ctx) (n : Node) :
    (q.groupByExpr n).query.Consistent ctx := by
  rcases q.groupByExpr_cases n with
    ⟨fault, h⟩ | ⟨c, mode, hcheck, hvalid, hlevel, haccept, h⟩
  · rw [h]
    exact hq
  · rw [h]
    refine hq.pushGroupKey haccept (extendsByJoins_joinFields { q with mode } n) fun m hm => ?_
    exact Context.not_isAggregate_of_mem_preorder hcheck hvalid hlevel hm

theorem groupBySql (hq : q.Consistent ctx) (sql : String) :
    (q.groupBySql sql).query.Consistent ctx := by
  rcases q.groupBySql_cases sql with ⟨fault, h⟩ | ⟨mode, haccept, h⟩
  · rw [h]
    exact hq
  · rw [h]
    exact hq.pushGroupKey haccept (.refl _) trivial

theorem whereExpr (hq : q.Consistent ctx) (n : Node) : (q.whereExpr n).query.Consistent ctx := by
  rcases q.whereExpr_cases n with ⟨fault, h⟩ | ⟨c, hcheck, hvalid, hlevel, h⟩
  · rw [h]
    exact hq
  · rw [h]
    refine (hq.joins (extendsByJoins_joinFields q n)).pushCondition fun m hm => ?_
    exact Context.not_isAggregate_of_mem_preorder hcheck hvalid hlevel hm

theorem orderExpr (hq : q.Consistent ctx) (n : Node) (direction : Option Direction)
    (nulls : Option Nulls) : (q.orderExpr n direction nulls).query.Consistent ctx := by
  rcases q.orderExpr_cases n direction nulls with ⟨fault, h⟩ | ⟨c, -, -, h⟩
  · rw [h]
    exact hq
  · rw [h]
    have hjoined := hq.joins (extendsByJoins_joinFields q n)
    obtain ⟨hcontext, hmode, hchecked, hconditions, hgroup⟩ := hjoined
    exact ⟨hcontext, hmode, hchecked, hconditions, hgroup⟩

theorem fromSql (hq : q.Consistent ctx) (sql : String) (aliasName : Option String) :
    (q.fromSql sql aliasName).query.Consistent ctx := by
  obtain ⟨hcontext, hmode, hchecked, hconditions, hgroup⟩ := hq
  rcases q.fromSql_cases sql aliasName with ⟨fault, h⟩ | h <;> rw [h] <;>
    exact ⟨hcontext, hmode, hchecked, hconditions, hgroup⟩

/-- A step keeps a query consistent, whether it goes through or not. -/
theorem apply (hq : q.Consistent ctx) (step : Step) : (q.apply step).query.Consistent ctx := by
  cases step with
  | selectExpr n aliasName => exact hq.selectExpr n aliasName
  | selectSql sql aliasName => exact hq.selectSql sql aliasName
  | fromSql sql aliasName => exact hq.fromSql sql aliasName
  | fromPath path => exact hq.joins (q.extendsByJoins_joinEach (Path.prefixes path))
  | whereExpr n => exact hq.whereExpr n
  | whereSql sql => exact hq.pushCondition trivial
  | groupByExpr n => exact hq.groupByExpr n
  | groupBySql sql => exact hq.groupBySql sql
  | orderExpr n direction nulls => exact hq.orderExpr n direction nulls
  | _ => exact ⟨hq.context, hq.mode, hq.checked, hq.conditions, hq.groupBy⟩

/-- All steps together keep a query consistent. -/
theorem run (hq : q.Consistent ctx) (steps : List Step) : (q.run steps).Consistent ctx := by
  induction steps generalizing q with
  | nil => exact hq
  | cons step steps ih => exact ih (hq.apply step)

theorem empty (context : Context) (comment : Option String) :
    Query.Consistent { context, comment } context :=
  ⟨rfl, ⟨by simp, by simp⟩, by simp, by simp, by simp⟩

end Consistent

/-- After any steps on an empty query, the mode of the query says what has been selected. While it
is undecided, only constants are selected; a query about rows selects something about rows, nothing
about groups, and has no grouping keys; a query about groups selects nothing about rows, and has an
aggregated item or a grouping key. Conditions and grouping keys contain no aggregate function. -/
theorem run_mode_fits (context : Context) (comment : Option String) (steps : List Step) :
    let q := run { context, comment } steps
    (q.mode = .undecided →
      (∀ item ∈ q.select, item.entry.level = .constant) ∧ q.groupBy = []) ∧
    (q.mode = .rows →
      (∀ item ∈ q.select, item.entry.level.isAggregated = false) ∧
      (∃ item ∈ q.select, item.entry.level = .row) ∧ q.groupBy = []) ∧
    (∀ g, q.mode = .aggregated g →
      (∀ item ∈ q.select, item.entry.level ≠ .row) ∧
      ((∃ item ∈ q.select, item.entry.level.isAggregated = true) ∨ q.groupBy ≠ [])) ∧
    (∀ item ∈ q.select, item.entry.IsChecked context) ∧
    ∀ n c, .expr n c ∈ q.conditions ∨ .expr n c ∈ q.groupBy →
      ∀ m ∈ n.preorder, ¬ m.IsAggregate := by
  intro q
  have hq : q.Consistent context := (Consistent.empty context comment).run steps
  have hmode := hq.mode
  refine ⟨fun h => ?_, fun h => ?_, fun g h => ?_, hq.checked, fun n c h => ?_⟩
  · simpa [h, SelectMode.Fits] using hmode
  · simpa [h, SelectMode.Fits] using hmode
  · simpa [h, SelectMode.Fits] using hmode
  · rcases h with h | h
    · exact hq.conditions _ h
    · exact hq.groupBy _ h

end Query

end TypedSql
