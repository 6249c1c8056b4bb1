import TypedSql.Proofs.Joins

/-!
# What a step of a query can do

A step is either refused, and then the query stays as it was, or it goes through, and then the
expression that it adds is valid and goes with the mode of the query. The only step that can be
refused halfway is joining a path that the caller names.
-/

namespace TypedSql

/-! ## Checks before a step -/

theorem SelectMode.extend_eq_ok_iff {mode mode' : SelectMode} {level : Level} {source : String} :
    mode.extend level source = .ok mode' ↔ mode.accept level = some mode' := by
  unfold extend
  split <;> simp_all

theorem Context.checkValid_eq_ok_iff {ctx : Context} {n : Node} {c : Checked} :
    ctx.checkValid n = .ok c ↔ ctx.check n = .ok c ∧ c.isValid = true := by
  unfold checkValid
  cases hcheck : ctx.check n with
  | error fault => simp
  | ok d =>
    by_cases hvalid : d.isValid = true
    · simp only [if_pos hvalid, Except.ok.injEq]
      constructor
      · rintro rfl
        exact ⟨rfl, hvalid⟩
      · exact And.left
    · simp only [if_neg hvalid, Except.ok.injEq]
      constructor
      · simp
      · rintro ⟨rfl, hc⟩
        exact absurd hc hvalid

theorem Context.checkRows_eq_ok_iff {ctx : Context} {n : Node} {d : Diagnostic} {c : Checked} :
    ctx.checkRows n d = .ok c ↔
      ctx.check n = .ok c ∧ c.isValid = true ∧ c.level.isAggregated = false := by
  rw [← and_assoc, ← checkValid_eq_ok_iff, checkRows]
  cases ctx.checkValid n with
  | error fault => simp
  | ok e =>
    by_cases hlevel : e.level.isAggregated = true
    · simp only [if_pos hlevel, Except.ok.injEq]
      constructor
      · simp
      · rintro ⟨rfl, hc⟩
        simp [hlevel] at hc
    · simp only [if_neg hlevel, Except.ok.injEq]
      constructor
      · rintro rfl
        exact ⟨rfl, by simpa using hlevel⟩
      · exact And.left

namespace Query

/-- A step that depends on a value is refused, or goes on with the value. -/
theorem tryWith_cases {α : Type} (q : Query) (value : Except Fault α) (next : α → Outcome) :
    (∃ fault, q.tryWith value next = .refused q fault) ∨
      ∃ a, value = .ok a ∧ q.tryWith value next = next a := by
  cases value with
  | error fault => exact Or.inl ⟨fault, rfl⟩
  | ok a => exact Or.inr ⟨a, rfl, rfl⟩

theorem Outcome.andThen_of_fault {o : Outcome} (h : o.fault = none) (next : Query → Outcome) :
    o.andThen next = next o.query := by
  rw [TypedSql.Outcome.andThen, h]

/-! ## The steps that may be refused -/

/-- Adds grouping keys. -/
def pushGroupKeys (q : Query) (keys : List (Node × Checked)) : Query :=
  { q with groupBy := (keys.map fun (key, child) => .expr key child).foldl pushEntry q.groupBy }

theorem foldl_pushGroupKey (q : Query) (keys : List (Node × Checked)) :
    keys.foldl (fun q (key, child) => q.pushGroupKey (.expr key child)) q =
      q.pushGroupKeys keys := by
  induction keys generalizing q with
  | nil => rfl
  | cons key keys ih => exact ih (q.pushGroupKey (.expr key.1 key.2))

/-- An expression is selected if it is valid and goes with the mode of the query. -/
theorem selectExpr_cases (q : Query) (n : Node) (aliasName : Option String) :
    (∃ fault, q.selectExpr n aliasName = .refused q fault) ∨
      ∃ c mode, q.context.check n = .ok c ∧ c.isValid = true ∧ q.mode.accept c.level = some mode ∧
        q.selectExpr n aliasName =
          .done (((joinFields { q with mode } n).query.pushGroupKeys (n.groupKeys c)).pushSelect
            ⟨.expr n c, aliasName⟩) := by
  unfold selectExpr
  rcases q.tryWith_cases (Identifier.checkAlias aliasName) _ with h | ⟨_, -, h⟩
  · exact Or.inl h
  rw [h]
  rcases q.tryWith_cases (q.context.checkValid n) _ with h | ⟨c, hc, h⟩
  · exact Or.inl h
  rw [h]
  rcases q.tryWith_cases (q.mode.extend c.level n.source) _ with h | ⟨mode, hmode, h⟩
  · exact Or.inl h
  obtain ⟨hcheck, hvalid⟩ := Context.checkValid_eq_ok_iff.1 hc
  refine Or.inr ⟨c, mode, hcheck, hvalid, SelectMode.extend_eq_ok_iff.1 hmode, ?_⟩
  rw [h, Outcome.andThen_of_fault (joinFields_fault (q := { q with mode }) hcheck hvalid)]
  simp only [foldl_pushGroupKey]

theorem selectSql_cases (q : Query) (sql : String) (aliasName : Option String) :
    (∃ fault, q.selectSql sql aliasName = .refused q fault) ∨
      ∃ mode, q.mode.accept .row = some mode ∧
        q.selectSql sql aliasName = .done (pushSelect { q with mode } ⟨.sql sql, aliasName⟩) := by
  unfold selectSql
  rcases q.tryWith_cases (Identifier.checkAlias aliasName) _ with h | ⟨_, -, h⟩
  · exact Or.inl h
  rw [h]
  rcases q.tryWith_cases (q.mode.extend .row sql) _ with h | ⟨mode, hmode, h⟩
  · exact Or.inl h
  · exact Or.inr ⟨mode, SelectMode.extend_eq_ok_iff.1 hmode, h⟩

theorem fromSql_cases (q : Query) (sql : String) (aliasName : Option String) :
    (∃ fault, q.fromSql sql aliasName = .refused q fault) ∨
      q.fromSql sql aliasName = .done (q.pushTable ⟨sql, aliasName⟩) := by
  unfold fromSql
  rcases q.tryWith_cases (Identifier.checkAlias aliasName) _ with h | ⟨_, -, h⟩
  · exact Or.inl h
  · exact Or.inr h

/-- An expression becomes a condition if it is valid and not about groups of rows. -/
theorem whereExpr_cases (q : Query) (n : Node) :
    (∃ fault, q.whereExpr n = .refused q fault) ∨
      ∃ c, q.context.check n = .ok c ∧ c.isValid = true ∧ c.level.isAggregated = false ∧
        q.whereExpr n = .done ((q.joinFields n).query.pushCondition (.expr n c)) := by
  unfold whereExpr
  rcases q.tryWith_cases (q.context.checkRows n n.aggregateCondition) _ with h | ⟨c, hc, h⟩
  · exact Or.inl h
  obtain ⟨hcheck, hvalid, hlevel⟩ := Context.checkRows_eq_ok_iff.1 hc
  refine Or.inr ⟨c, hcheck, hvalid, hlevel, ?_⟩
  rw [h, Outcome.andThen_of_fault (joinFields_fault hcheck hvalid)]

/-- An expression becomes a grouping key if it is valid, not about groups of rows itself, and the
query can be about groups. -/
theorem groupByExpr_cases (q : Query) (n : Node) :
    (∃ fault, q.groupByExpr n = .refused q fault) ∨
      ∃ c mode, q.context.check n = .ok c ∧ c.isValid = true ∧ c.level.isAggregated = false ∧
        q.mode.accept (.aggregated .group) = some mode ∧
        q.groupByExpr n =
          .done ((joinFields { q with mode } n).query.pushGroupKey (.expr n c)) := by
  unfold groupByExpr
  rcases q.tryWith_cases (q.context.checkRows n n.aggregateKey) _ with h | ⟨c, hc, h⟩
  · exact Or.inl h
  rw [h]
  rcases q.tryWith_cases (q.mode.extend (.aggregated .group) n.source) _ with h | ⟨mode, hmode, h⟩
  · exact Or.inl h
  obtain ⟨hcheck, hvalid, hlevel⟩ := Context.checkRows_eq_ok_iff.1 hc
  refine Or.inr ⟨c, mode, hcheck, hvalid, hlevel, SelectMode.extend_eq_ok_iff.1 hmode, ?_⟩
  rw [h, Outcome.andThen_of_fault (joinFields_fault (q := { q with mode }) hcheck hvalid)]

theorem groupBySql_cases (q : Query) (sql : String) :
    (∃ fault, q.groupBySql sql = .refused q fault) ∨
      ∃ mode, q.mode.accept (.aggregated .group) = some mode ∧
        q.groupBySql sql = .done (pushGroupKey { q with mode } (.sql sql)) := by
  unfold groupBySql
  rcases q.tryWith_cases (q.mode.extend (.aggregated .group) sql) _ with h | ⟨mode, hmode, h⟩
  · exact Or.inl h
  · exact Or.inr ⟨mode, SelectMode.extend_eq_ok_iff.1 hmode, h⟩

theorem orderExpr_cases (q : Query) (n : Node) (direction : Option Direction)
    (nulls : Option Nulls) :
    (∃ fault, q.orderExpr n direction nulls = .refused q fault) ∨
      ∃ c, q.context.check n = .ok c ∧ c.isValid = true ∧
        q.orderExpr n direction nulls =
          .done ((q.joinFields n).query.pushOrder ⟨.expr n c, direction, nulls⟩) := by
  unfold orderExpr
  rcases q.tryWith_cases (q.context.checkValid n) _ with h | ⟨c, hc, h⟩
  · exact Or.inl h
  obtain ⟨hcheck, hvalid⟩ := Context.checkValid_eq_ok_iff.1 hc
  refine Or.inr ⟨c, hcheck, hvalid, ?_⟩
  rw [h, Outcome.andThen_of_fault (joinFields_fault hcheck hvalid)]

/-! ## The context of a query -/

/-- A step leaves the context as it is, whether it goes through or not. -/
theorem apply_context (q : Query) (step : Step) : (q.apply step).query.context = q.context := by
  cases step with
  | selectExpr n aliasName =>
    rcases q.selectExpr_cases n aliasName with ⟨fault, h⟩ | ⟨c, mode, -, -, -, h⟩ <;> rw [apply, h]
    · rfl
    · exact (extendsByJoins_joinFields { q with mode } n).context
  | selectSql sql aliasName =>
    rcases q.selectSql_cases sql aliasName with ⟨fault, h⟩ | ⟨mode, -, h⟩ <;> rw [apply, h] <;> rfl
  | fromSql sql aliasName =>
    rcases q.fromSql_cases sql aliasName with ⟨fault, h⟩ | h <;> rw [apply, h] <;> rfl
  | fromPath path => exact (q.extendsByJoins_joinEach (Path.prefixes path)).context
  | whereExpr n =>
    rcases q.whereExpr_cases n with ⟨fault, h⟩ | ⟨c, -, -, -, h⟩ <;> rw [apply, h]
    · rfl
    · exact (extendsByJoins_joinFields q n).context
  | groupByExpr n =>
    rcases q.groupByExpr_cases n with ⟨fault, h⟩ | ⟨c, mode, -, -, -, -, h⟩ <;> rw [apply, h]
    · rfl
    · exact (extendsByJoins_joinFields { q with mode } n).context
  | groupBySql sql =>
    rcases q.groupBySql_cases sql with ⟨fault, h⟩ | ⟨mode, -, h⟩ <;> rw [apply, h] <;> rfl
  | orderExpr n direction nulls =>
    rcases q.orderExpr_cases n direction nulls with ⟨fault, h⟩ | ⟨c, -, -, h⟩ <;> rw [apply, h]
    · rfl
    · exact (extendsByJoins_joinFields q n).context
  | _ => rfl

theorem run_context (q : Query) (steps : List Step) : (q.run steps).context = q.context := by
  induction steps generalizing q with
  | nil => rfl
  | cons step steps ih => exact (ih (q.apply step).query).trans (q.apply_context step)

end Query

end TypedSql
