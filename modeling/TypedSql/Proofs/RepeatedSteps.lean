import TypedSql.Proofs.RefusedSteps

/-!
# Steps that are done twice

Joins, conditions and grouping keys are added once. A step looks for what it is about to add among
what the query has, and no step ever takes anything away from that: the conditions, the grouping
keys and the joined paths only grow, and a mode that is decided stays. A step of this kind that went
through therefore goes through again, whatever has been done in between, and changes nothing.
-/

namespace TypedSql

/-! ## Lists of entries only grow -/

theorem prefix_pushEntry (entries : List Entry) (entry : Entry) :
    entries <+: pushEntry entries entry := by
  unfold pushEntry
  split
  · exact List.prefix_rfl
  · exact List.prefix_append _ _

theorem prefix_foldl_pushEntry (entries asked : List Entry) :
    entries <+: asked.foldl pushEntry entries := by
  induction asked generalizing entries with
  | nil => exact List.prefix_rfl
  | cons a asked ih => exact (prefix_pushEntry entries a).trans (ih _)

/-- Whether an entry with the given key is listed. -/
def HasKey (entries : List Entry) (key : String) : Prop := ∃ e ∈ entries, e.key = key

theorem HasKey.mono {entries more : List Entry} {key : String} (h : HasKey entries key)
    (hmore : entries <+: more) : HasKey more key := by
  obtain ⟨e, he, hkey⟩ := h
  exact ⟨e, hmore.subset he, hkey⟩

/-- An entry that is added is listed afterwards, or another one of its key. -/
theorem hasKey_pushEntry (entries : List Entry) (entry : Entry) :
    HasKey (pushEntry entries entry) entry.key := by
  by_cases hold : HasKey entries entry.key
  · exact hold.mono (prefix_pushEntry entries entry)
  · refine ⟨entry, mem_pushEntry_iff.2 (Or.inr ⟨rfl, fun d hd hkey => ?_⟩), rfl⟩
    exact hold ⟨d, hd, hkey⟩

theorem pushEntry_of_hasKey {entries : List Entry} {entry : Entry}
    (h : HasKey entries entry.key) : pushEntry entries entry = entries := by
  obtain ⟨e, he, hkey⟩ := h
  have hany : (entries.any fun d => d.key = entry.key) = true :=
    List.any_eq_true.2 ⟨e, he, decide_eq_true hkey⟩
  rw [pushEntry, if_pos hany]

/-- A mode changes only while it is undecided. -/
theorem SelectMode.eq_of_accept {mode mode' : SelectMode} {level : Level}
    (h : mode.accept level = some mode') : mode = .undecided ∨ mode' = mode := by
  cases mode with
  | undecided => exact Or.inl rfl
  | rows => cases level <;> cases h <;> exact Or.inr rfl
  | aggregated g => cases level <;> cases h <;> exact Or.inr rfl

theorem SelectMode.isAggregated_of_accept {mode mode' : SelectMode} {g : Aggregate}
    (h : mode.accept (.aggregated g) = some mode') : mode'.isAggregated = true := by
  cases mode <;> cases h <;> rfl

/-- A mode that is about groups accepts further groups as it is. -/
theorem SelectMode.accept_of_isAggregated {mode : SelectMode} (h : mode.isAggregated = true)
    (g : Aggregate) : mode.accept (.aggregated g) = some mode := by
  cases mode with
  | aggregated a => rfl
  | undecided => cases h
  | rows => cases h

namespace Query

/-! ## Queries only grow -/

/-- Whether a query still has the conditions, the grouping keys, the joined paths and the mode of
another one. -/
structure Keeps (q' q : Query) : Prop where
  context : q'.context = q.context
  mode : q.mode = .undecided ∨ q'.mode = q.mode
  conditions : q.conditions <+: q'.conditions
  groupBy : q.groupBy <+: q'.groupBy
  aliases : q.aliases <+: q'.aliases

namespace Keeps

variable {q q' q'' : Query}

theorem refl (q : Query) : q.Keeps q :=
  ⟨rfl, Or.inr rfl, List.prefix_rfl, List.prefix_rfl, List.prefix_rfl⟩

theorem trans (h' : q''.Keeps q') (h : q'.Keeps q) : q''.Keeps q where
  context := h'.context.trans h.context
  mode := by
    rcases h.mode with hq | hq
    · exact Or.inl hq
    · rw [← hq]
      exact h'.mode
  conditions := h.conditions.trans h'.conditions
  groupBy := h.groupBy.trans h'.groupBy
  aliases := h.aliases.trans h'.aliases

theorem addJoin (q : Query) (path : String) (r : Reference Field) : (q.addJoin path r).Keeps q := by
  rw [addJoin_eq]
  refine ⟨rfl, Or.inr rfl, ?_, List.prefix_rfl, ?_⟩ <;> dsimp only
  · exact prefix_foldl_pushEntry q.conditions (q.joinCondition path r)
  · exact List.prefix_append _ _

theorem joinEach (q : Query) (paths : List String) : (q.joinEach paths).query.Keeps q :=
  joinEach_induction (P := fun q' => q'.Keeps q) (fun q' path r h => (addJoin q' path r).trans h)
    (.refl q) paths

theorem accept {level : Level} {mode : SelectMode} (h : q.mode.accept level = some mode) :
    Keeps { q with mode } q :=
  ⟨rfl, SelectMode.eq_of_accept h, List.prefix_rfl, List.prefix_rfl, List.prefix_rfl⟩

theorem joinFields (h : q'.Keeps q) (n : Node) : (q'.joinFields n).query.Keeps q := by
  rw [Query.joinFields, joinPaths_eq]
  exact (joinEach q' _).trans h

theorem pushCondition (h : q'.Keeps q) (e : Entry) : (q'.pushCondition e).Keeps q :=
  ⟨h.context, h.mode, h.conditions.trans (prefix_pushEntry _ e), h.groupBy, h.aliases⟩

theorem pushGroupKeys (h : q'.Keeps q) (keys : List (Node × Checked)) :
    (q'.pushGroupKeys keys).Keeps q := by
  refine ⟨h.context, h.mode, h.conditions, ?_, h.aliases⟩
  simp only [Query.pushGroupKeys]
  exact h.groupBy.trans (prefix_foldl_pushEntry q'.groupBy _)

theorem pushGroupKey (h : q'.Keeps q) (e : Entry) : (q'.pushGroupKey e).Keeps q :=
  ⟨h.context, h.mode, h.conditions, h.groupBy.trans (prefix_pushEntry _ e), h.aliases⟩

theorem pushSelect (h : q'.Keeps q) (item : SelectItem) : (q'.pushSelect item).Keeps q :=
  ⟨h.context, h.mode, h.conditions, h.groupBy, h.aliases⟩

theorem pushTable (h : q'.Keeps q) (item : TableItem) : (q'.pushTable item).Keeps q :=
  ⟨h.context, h.mode, h.conditions, h.groupBy, h.aliases⟩

theorem pushOrder (h : q'.Keeps q) (item : OrderItem) : (q'.pushOrder item).Keeps q :=
  ⟨h.context, h.mode, h.conditions, h.groupBy, h.aliases⟩

/-- A step takes nothing away, whether it goes through or not. -/
theorem apply (q : Query) (step : Step) : (q.apply step).query.Keeps q := by
  cases step with
  | selectExpr n aliasName =>
    rw [Query.apply]
    rcases q.selectExpr_cases n aliasName with ⟨fault, h⟩ | ⟨c, mode, -, -, hmode, h⟩ <;> rw [h]
    · exact .refl q
    · exact (((accept hmode).joinFields n).pushGroupKeys (n.groupKeys c)).pushSelect _
  | selectSql sql aliasName =>
    rw [Query.apply]
    rcases q.selectSql_cases sql aliasName with ⟨fault, h⟩ | ⟨mode, hmode, h⟩ <;> rw [h]
    · exact .refl q
    · exact (accept hmode).pushSelect _
  | fromSql sql aliasName =>
    rw [Query.apply]
    rcases q.fromSql_cases sql aliasName with ⟨fault, h⟩ | h <;> rw [h]
    · exact .refl q
    · exact (Keeps.refl q).pushTable ⟨sql, aliasName⟩
  | fromPath path => exact joinEach q (Path.prefixes path)
  | whereExpr n =>
    rw [Query.apply]
    rcases q.whereExpr_cases n with ⟨fault, h⟩ | ⟨c, -, -, -, h⟩ <;> rw [h]
    · exact .refl q
    · exact ((Keeps.refl q).joinFields n).pushCondition (.expr n c)
  | whereSql sql => exact (Keeps.refl q).pushCondition (.sql sql)
  | groupByExpr n =>
    rw [Query.apply]
    rcases q.groupByExpr_cases n with ⟨fault, h⟩ | ⟨c, mode, -, -, -, hmode, h⟩ <;> rw [h]
    · exact .refl q
    · exact ((accept hmode).joinFields n).pushGroupKey (.expr n c)
  | groupBySql sql =>
    rw [Query.apply]
    rcases q.groupBySql_cases sql with ⟨fault, h⟩ | ⟨mode, hmode, h⟩ <;> rw [h]
    · exact .refl q
    · exact (accept hmode).pushGroupKey (.sql sql)
  | orderExpr n direction nulls =>
    rw [Query.apply]
    rcases q.orderExpr_cases n direction nulls with ⟨fault, h⟩ | ⟨c, -, -, h⟩ <;> rw [h]
    · exact .refl q
    · exact ((Keeps.refl q).joinFields n).pushOrder _
  | orderSql sql => exact (Keeps.refl q).pushOrder _
  | offset rows => exact ⟨rfl, Or.inr rfl, List.prefix_rfl, List.prefix_rfl, List.prefix_rfl⟩
  | limit rows => exact ⟨rfl, Or.inr rfl, List.prefix_rfl, List.prefix_rfl, List.prefix_rfl⟩

/-- All steps together take nothing away. -/
theorem run (q : Query) (steps : List Step) : (q.run steps).Keeps q := by
  induction steps generalizing q with
  | nil => exact .refl q
  | cons step steps ih => exact (ih (q.apply step).query).trans (apply q step)

end Keeps

end Query

/-- Whether a step is of a kind that adds what it asks for only once. -/
def Step.addsOnce : Step → Bool
  | fromPath _ | whereExpr _ | whereSql _ | groupByExpr _ | groupBySql _ => true
  | _ => false

namespace Query

/-! ## What has been added already -/

/-- Whether all of the given paths have been joined. -/
def HasJoined (q : Query) (paths : List String) : Prop := ∀ path ∈ paths, path ∈ q.aliases.paths

/-- Whether a query has what a step asks for, so that there is nothing left to add. Only steps that
add joins, conditions and grouping keys find out about that. -/
def Has (q : Query) : Step → Prop
  | .fromPath path => q.HasJoined (Path.prefixes path)
  | .whereSql sql => HasKey q.conditions sql
  | .whereExpr n =>
    (∃ c, q.context.checkRows n n.aggregateCondition = .ok c) ∧
      q.HasJoined (n.fieldParents.flatMap Path.prefixes) ∧ HasKey q.conditions n.source
  | .groupBySql sql => q.mode.isAggregated = true ∧ HasKey q.groupBy sql
  | .groupByExpr n =>
    (∃ c, q.context.checkRows n n.aggregateKey = .ok c) ∧ q.mode.isAggregated = true ∧
      q.HasJoined (n.fieldParents.flatMap Path.prefixes) ∧ HasKey q.groupBy n.source
  | _ => False

variable {q q' : Query}

theorem Keeps.hasJoined {paths : List String} (h : q'.Keeps q) (hq : q.HasJoined paths) :
    q'.HasJoined paths :=
  fun path hpath => (h.aliases.map Prod.fst).subset (hq path hpath)

theorem Keeps.isAggregated (h : q'.Keeps q) (hq : q.mode.isAggregated = true) :
    q'.mode.isAggregated = true := by
  rcases h.mode with hmode | hmode
  · rw [hmode] at hq
    cases hq
  · rwa [hmode]

/-- What a step asks for stays in a query. -/
theorem Keeps.has {step : Step} (h : q'.Keeps q) (hq : q.Has step) : q'.Has step := by
  cases step with
  | fromPath path => exact h.hasJoined hq
  | whereSql sql => exact HasKey.mono hq h.conditions
  | whereExpr n =>
    obtain ⟨hcheck, hjoined, hkey⟩ := hq
    refine ⟨?_, h.hasJoined hjoined, hkey.mono h.conditions⟩
    rwa [h.context]
  | groupBySql sql =>
    obtain ⟨hmode, hkey⟩ := hq
    exact ⟨h.isAggregated hmode, hkey.mono h.groupBy⟩
  | groupByExpr n =>
    obtain ⟨hcheck, hmode, hjoined, hkey⟩ := hq
    refine ⟨?_, h.isAggregated hmode, h.hasJoined hjoined, hkey.mono h.groupBy⟩
    rwa [h.context]
  | _ => exact hq

theorem hasJoined_joinFields {n : Node} (h : (q.joinFields n).fault = none) :
    (q.joinFields n).query.HasJoined (n.fieldParents.flatMap Path.prefixes) := by
  rw [joinFields, joinPaths_eq] at h ⊢
  exact mem_paths_joinEach h

/-- Once a step went through, the query has what the step asked for. -/
theorem has_of_apply {step : Step} (honce : step.addsOnce = true)
    (hdone : (q.apply step).fault = none) : (q.apply step).query.Has step := by
  -- checking an expression again gives the same result in the query after the step
  have hcontext : (q.apply step).query.context = q.context := q.apply_context step
  cases step with
  | fromPath path => exact mem_paths_joinEach hdone
  | whereSql sql => exact hasKey_pushEntry q.conditions (.sql sql)
  | whereExpr n =>
    rw [apply] at hdone hcontext ⊢
    rcases q.whereExpr_cases n with ⟨fault, h⟩ | ⟨c, hcheck, hvalid, hlevel, h⟩ <;>
      rw [h] at hdone hcontext ⊢
    · cases hdone
    refine ⟨⟨c, ?_⟩, hasJoined_joinFields (joinFields_fault hcheck hvalid), ?_⟩
    · rw [hcontext]
      exact Context.checkRows_eq_ok_iff.2 ⟨hcheck, hvalid, hlevel⟩
    · exact hasKey_pushEntry _ (.expr n c)
  | groupByExpr n =>
    rw [apply] at hdone hcontext ⊢
    rcases q.groupByExpr_cases n with ⟨fault, h⟩ | ⟨c, mode, hcheck, hvalid, hlevel, hmode, h⟩ <;>
      rw [h] at hdone hcontext ⊢
    · cases hdone
    have hjoined : (joinFields { q with mode } n).fault = none :=
      joinFields_fault (q := { q with mode }) hcheck hvalid
    refine ⟨⟨c, ?_⟩, ?_, hasJoined_joinFields hjoined, hasKey_pushEntry _ (.expr n c)⟩
    · rw [hcontext]
      exact Context.checkRows_eq_ok_iff.2 ⟨hcheck, hvalid, hlevel⟩
    · have hsame : (joinFields { q with mode } n).query.mode = mode :=
        (extendsByJoins_joinFields { q with mode } n).mode
      simp only [Outcome.done, pushGroupKey, hsame]
      exact SelectMode.isAggregated_of_accept hmode
  | groupBySql sql =>
    rw [apply] at hdone ⊢
    rcases q.groupBySql_cases sql with ⟨fault, h⟩ | ⟨mode, hmode, h⟩ <;> rw [h] at hdone ⊢
    · cases hdone
    · exact ⟨SelectMode.isAggregated_of_accept hmode, hasKey_pushEntry q.groupBy (.sql sql)⟩
  | _ => cases honce

/-! ## Doing a step again -/

theorem joinFields_of_hasJoined {n : Node}
    (h : q.HasJoined (n.fieldParents.flatMap Path.prefixes)) : q.joinFields n = .done q := by
  rw [joinFields, joinPaths_eq]
  exact joinEach_of_mem_paths h

theorem pushCondition_of_hasKey {e : Entry} (h : HasKey q.conditions e.key) :
    q.pushCondition e = q := by
  rw [pushCondition, pushEntry_of_hasKey h]

theorem pushGroupKey_of_hasKey {e : Entry} (h : HasKey q.groupBy e.key) :
    q.pushGroupKey e = q := by
  rw [pushGroupKey, pushEntry_of_hasKey h]

/-- A step goes through and changes nothing if the query has what it asks for. -/
theorem apply_of_has {step : Step} (h : q.Has step) : q.apply step = .done q := by
  cases step with
  | fromPath path => exact joinEach_of_mem_paths h
  | whereSql sql =>
    have hkey : HasKey q.conditions (Entry.sql sql).key := h
    rw [apply, pushCondition_of_hasKey hkey]
  | whereExpr n =>
    obtain ⟨⟨c, hcheck⟩, hjoined, hkey⟩ := h
    rw [apply, whereExpr, hcheck, tryWith, joinFields_of_hasJoined hjoined,
      Outcome.andThen_of_fault rfl, Outcome.done, pushCondition_of_hasKey hkey]
    rfl
  | groupByExpr n =>
    obtain ⟨⟨c, hcheck⟩, hmode, hjoined, hkey⟩ := h
    have hextend : q.mode.extend (.aggregated .group) n.source = .ok q.mode :=
      SelectMode.extend_eq_ok_iff.2 (SelectMode.accept_of_isAggregated hmode .group)
    rw [apply, groupByExpr, hcheck, tryWith, hextend, tryWith, joinFields_of_hasJoined hjoined,
      Outcome.andThen_of_fault rfl, Outcome.done, pushGroupKey_of_hasKey hkey]
    rfl
  | groupBySql sql =>
    obtain ⟨hmode, hkey⟩ := h
    have hextend : q.mode.extend (.aggregated .group) sql = .ok q.mode :=
      SelectMode.extend_eq_ok_iff.2 (SelectMode.accept_of_isAggregated hmode .group)
    rw [apply, groupBySql, hextend, tryWith, pushGroupKey_of_hasKey hkey]
  | _ => exact h.elim

/-- A step that joins a path, or that adds a condition or a grouping key, and that went through can
be done again after any further steps, refused ones included: it goes through once more and leaves
the query exactly as it is. -/
theorem repeated_step_unchanged {step : Step} (honce : step.addsOnce = true)
    (hdone : (q.apply step).fault = none) (steps : List Step) :
    let q' := (q.apply step).query.run steps
    q'.apply step = .done q' := by
  intro q'
  have hkeeps : q'.Keeps (q.apply step).query := Keeps.run (q.apply step).query steps
  exact apply_of_has (hkeeps.has (has_of_apply honce hdone))

/-- Grouping by the title of a department twice, with steps in between that go through and steps
that do not. -/
theorem repeated_step_unchanged_title :
    let q : Query := { context := ⟨deptSchema, ⟨.postgres, [], rfl⟩, .inline⟩ }
    let step : Step := .groupByExpr (.ofExpr (.field "dept.title"))
    let steps : List Step :=
      [.fromPath "dept.budget", .selectSql "name" none, .whereSql "dept.title", .groupBySql "name"]
    let q' := (q.apply step).query.run steps
    (q.apply step).fault = none ∧ q'.groupBy.map Entry.key = ["dept.title", "name"] ∧
      q'.apply step = .done q' := by
  intro q step steps q'
  have honce : step.addsOnce = true := rfl
  have hdone : (q.apply step).fault = none := by decide +kernel
  have hkeys : q'.groupBy.map Entry.key = ["dept.title", "name"] := by decide +kernel
  have hagain : q'.apply step = .done q' := repeated_step_unchanged honce hdone steps
  exact ⟨hdone, hkeys, hagain⟩

end Query

end TypedSql
