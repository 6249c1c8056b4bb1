import TypedSql.Proofs.Grouping
import TypedSql.Proofs.Levels

/-!
# Select lists and operands

The items of a select list must go together, and so must the operands of an expression. Both are
decided one after the other: a mode is kept for the select list, and a level for the operands. After
every item, the mode is that of the level which an expression with the same operands has, so both
refuse the same lists. An item that is refused leaves the mode alone, and the first item that is not
constant alone decides what is refused behind it. The mode of a query after any steps comes about in
this way.
-/

namespace TypedSql

namespace Level

/-- The mode of a select list whose items are the operands of an expression of the given level. -/
def mode : Level → SelectMode
  | constant => .undecided
  | row => .rows
  | aggregated g => .aggregated g

/-- The first of some levels that is not constant. -/
def decisive? (levels : List Level) : Option Level := levels.find? (· ≠ constant)

end Level

namespace SelectMode

/-- The mode after items of the given levels; `none` if one of them does not go with those before
it. -/
def acceptAll (levels : List Level) : Option SelectMode := levels.foldlM accept undecided

/-- The mode after an item that is left out if it does not go with the mode. -/
def acceptOrSkip (mode : SelectMode) (level : Level) : SelectMode := (mode.accept level).getD mode

/-- The mode after items of the given levels, where those that do not go with the mode are left
out. -/
def acceptFitting (levels : List Level) : SelectMode := levels.foldl acceptOrSkip undecided

/-! ## One item -/

/-- An item is accepted as it is combined with an operand. -/
theorem accept_mode (a b : Level) : a.mode.accept b = (a.combine b).map Level.mode := by
  cases a <;> cases b <;> rfl

/-- Only an undecided select list takes over the level of an item. -/
theorem acceptOrSkip_mode (a b : Level) :
    a.mode.acceptOrSkip b = (if a = .constant then b else a).mode := by
  cases a <;> cases b <;> rfl

/-- An item is refused if and only if either it or the select list is about rows and the other one
about groups. -/
theorem accept_mode_eq_none_iff {a b : Level} :
    a.mode.accept b = none ↔
      ∃ g, (a = .row ∧ b = .aggregated g) ∨ (a = .aggregated g ∧ b = .row) := by
  cases a <;> cases b <;> simp [Level.mode, accept]

/-! ## All items -/

theorem acceptAll_append_singleton (levels : List Level) (b : Level) :
    acceptAll (levels ++ [b]) = (acceptAll levels).bind (·.accept b) := by
  rw [acceptAll, List.foldlM_append]
  simp [acceptAll]

theorem acceptFitting_append_singleton (levels : List Level) (b : Level) :
    acceptFitting (levels ++ [b]) = (acceptFitting levels).acceptOrSkip b := by
  rw [acceptFitting, List.foldl_append]
  rfl

/-- The items of a select list go together if and only if they combine as operands do. -/
theorem acceptAll_eq_map_mode (levels : List Level) :
    acceptAll levels = (Level.combineAll levels).map Level.mode := by
  -- the induction is on the levels from the last one on, as for `Level.combineAll`
  induction levels using List.reverseRecOn with
  | nil => rfl
  | append_singleton levels b ih =>
    rw [acceptAll_append_singleton, Level.combineAll_append_singleton, ih]
    cases Level.combineAll levels with
    | none => rfl
    | some a => exact accept_mode a b

/-- The first level that is not constant decides on the mode, whatever comes after it. -/
theorem acceptFitting_eq_mode (levels : List Level) :
    acceptFitting levels = ((Level.decisive? levels).getD .constant).mode := by
  induction levels using List.reverseRecOn with
  | nil => rfl
  | append_singleton levels b ih =>
    rw [acceptFitting_append_singleton, ih, acceptOrSkip_mode, Level.decisive?, Level.decisive?,
      List.find?_append]
    congr 1
    cases hfirst : levels.find? (· ≠ .constant) with
    | none => cases b <;> rfl
    | some first =>
      have hne : first ≠ .constant := by simpa using List.find?_some hfirst
      simp [hne]

/-- An item is refused if and only if it goes against the first item that is not constant. -/
theorem acceptFitting_accept_eq_none_iff {levels : List Level} {next : Level} :
    (acceptFitting levels).accept next = none ↔
      ∃ g, (Level.decisive? levels = some .row ∧ next = .aggregated g) ∨
        (Level.decisive? levels = some (.aggregated g) ∧ next = .row) := by
  rw [acceptFitting_eq_mode, accept_mode_eq_none_iff]
  cases Level.decisive? levels <;> simp

end SelectMode

/-! ## Queries -/

/-- The level that a step adds to the select list, if it passes all checks before that. A grouping
key counts as an item about groups. -/
def Step.level? (ctx : Context) : Step → Option Level
  | .selectExpr n aliasName =>
    (Identifier.checkAlias aliasName).toOption.bind fun _ =>
      (ctx.checkValid n).toOption.map (·.level)
  | .selectSql _ aliasName => (Identifier.checkAlias aliasName).toOption.map fun _ => .row
  | .groupByExpr n => (ctx.checkRows n n.aggregateKey).toOption.map fun _ => .aggregated .group
  | .groupBySql _ => some (.aggregated .group)
  | _ => none

namespace Query

/-- Going on with the mode after an item, or refusing the item. -/
theorem mode_tryWith_extend {q : Query} {level : Level} {source : String}
    {next : SelectMode → Outcome} (h : ∀ mode, (next mode).query.mode = mode) :
    (q.tryWith (q.mode.extend level source) next).query.mode = q.mode.acceptOrSkip level := by
  rw [SelectMode.extend, SelectMode.acceptOrSkip]
  cases q.mode.accept level with
  | none => rfl
  | some mode => exact h mode

/-- A step changes the mode of a query by the level that it adds to the select list. -/
theorem mode_apply (q : Query) (step : Step) :
    (q.apply step).query.mode = (step.level? q.context).elim q.mode q.mode.acceptOrSkip := by
  cases step with
  | selectExpr n aliasName =>
    rw [apply, selectExpr, Step.level?]
    cases Identifier.checkAlias aliasName with
    | error fault => rfl
    | ok _ =>
      cases hc : q.context.checkValid n with
      | error fault => rfl
      | ok c =>
        obtain ⟨hcheck, hvalid⟩ := Context.checkValid_eq_ok_iff.1 hc
        refine mode_tryWith_extend fun mode => ?_
        rw [Outcome.andThen_of_fault (joinFields_fault (q := { q with mode }) hcheck hvalid)]
        simp only [foldl_pushGroupKey]
        exact (extendsByJoins_joinFields { q with mode } n).mode
  | selectSql sql aliasName =>
    rw [apply, selectSql, Step.level?]
    cases Identifier.checkAlias aliasName with
    | error fault => rfl
    | ok _ => exact mode_tryWith_extend fun mode => rfl
  | groupByExpr n =>
    rw [apply, groupByExpr, Step.level?]
    cases hc : q.context.checkRows n n.aggregateKey with
    | error fault => rfl
    | ok c =>
      obtain ⟨hcheck, hvalid, -⟩ := Context.checkRows_eq_ok_iff.1 hc
      refine mode_tryWith_extend fun mode => ?_
      rw [Outcome.andThen_of_fault (joinFields_fault (q := { q with mode }) hcheck hvalid)]
      exact (extendsByJoins_joinFields { q with mode } n).mode
  | groupBySql sql => exact mode_tryWith_extend fun mode => rfl
  | fromSql sql aliasName =>
    rcases q.fromSql_cases sql aliasName with ⟨fault, h⟩ | h <;> rw [apply, h] <;> rfl
  | fromPath path => exact (q.extendsByJoins_joinEach (Path.prefixes path)).mode
  | whereExpr n =>
    rcases q.whereExpr_cases n with ⟨fault, h⟩ | ⟨c, -, -, -, h⟩ <;> rw [apply, h]
    · rfl
    · exact (extendsByJoins_joinFields q n).mode
  | orderExpr n direction nulls =>
    rcases q.orderExpr_cases n direction nulls with ⟨fault, h⟩ | ⟨c, -, -, h⟩ <;> rw [apply, h]
    · rfl
    · exact (extendsByJoins_joinFields q n).mode
  | _ => rfl

/-- The mode of a query after any steps on an empty one. -/
theorem mode_run (context : Context) (comment : Option String) (steps : List Step) :
    (run { context, comment } steps).mode =
      SelectMode.acceptFitting (steps.filterMap (Step.level? context)) := by
  induction steps using List.reverseRecOn with
  | nil => rfl
  | append_singleton steps step ih =>
    have hcontext : (run { context, comment } steps).context = context := run_context _ steps
    have hrun : run { context, comment } (steps ++ [step]) =
        ((run { context, comment } steps).apply step).query := by
      rw [run, List.foldl_append]
      rfl
    rw [hrun, mode_apply, hcontext, ih, List.filterMap_append]
    cases hlevel : step.level? context with
    | none => simp [hlevel]
    | some level =>
      rw [List.filterMap_cons_some hlevel, List.filterMap_nil,
        SelectMode.acceptFitting_append_singleton]
      rfl

/-- Collecting a select list agrees with combining operands. For any levels, the items are accepted
one after the other if and only if they combine as operands of an expression, and then the mode is
that of the combined level. If items that are refused are left out, the first item that is not
constant determines the mode, and an item is refused if and only if one of these two is about rows
and the other about groups. The steps of a query change its mode in just this way. -/
theorem select_list_agrees_with_operands :
    (∀ levels : List Level,
      SelectMode.acceptAll levels = (Level.combineAll levels).map Level.mode ∧
      SelectMode.acceptFitting levels = ((Level.decisive? levels).getD .constant).mode ∧
      ∀ next, (SelectMode.acceptFitting levels).accept next = none ↔
        ∃ g, (Level.decisive? levels = some .row ∧ next = .aggregated g) ∨
          (Level.decisive? levels = some (.aggregated g) ∧ next = .row)) ∧
    ∀ (context : Context) (comment : Option String) (steps : List Step),
      (run { context, comment } steps).mode =
        SelectMode.acceptFitting (steps.filterMap (Step.level? context)) := by
  refine ⟨fun levels => ⟨?_, ?_, fun next => ?_⟩, mode_run⟩
  · exact SelectMode.acceptAll_eq_map_mode levels
  · exact SelectMode.acceptFitting_eq_mode levels
  · exact SelectMode.acceptFitting_accept_eq_none_iff

end Query

end TypedSql
