import TypedSql.Proofs.RefusedSteps

/-!
# Which aliases are taken twice

A joined table gets an alias that counts the tables, so no two joins share one. Steps that name a
table may give it any identifier as alias, and joins do not look at these. The alias of a joined
table is therefore taken twice if and only if some step gives it to a table, before the join or
after it.
-/

namespace TypedSql

namespace Aliases

/-- The aliases that joined tables have been given. -/
def names (aliases : Aliases) : List String := aliases.filterMap Prod.snd

theorem mem_names_iff {aliases : Aliases} {name : String} :
    name ∈ aliases.names ↔ ∃ path, (path, some name) ∈ aliases := by
  simp [names]

theorem names_concat (aliases : Aliases) (path : String) (a : Option String) :
    Aliases.names (aliases ++ [(path, a)]) = aliases.names ++ a.toList := by
  cases a <;> simp [names]

end Aliases

/-- The alias of a joined table may also be given to a table that is named. -/
theorem isPlain_tableAlias (position : Nat) : Identifier.isPlain (tableAlias position) = true := by
  have hchars : (tableAlias position).toList = 't' :: Nat.toDigits 10 position := by
    simp [tableAlias, Nat.toString_eq_repr, Nat.toList_repr]
  have hdigits : ∀ c ∈ Nat.toDigits 10 position, Identifier.isPart c = true := by
    intro c hc
    have hdigit : c.isDigit = true :=
      Nat.isDigit_of_mem_toDigits (by omega) (by omega) hc
    simp [Identifier.isPart, Char.isAlphanum, hdigit]
  simp only [Identifier.isPlain, hchars, Bool.and_eq_true, List.all_eq_true]
  exact ⟨by decide, hdigits⟩

/-! ## Tables that have not been joined -/

/-- The tables that stand at a position whose alias has not been given to a joined table. -/
def namedItems (tables : List TableItem) (names : List String) : List TableItem :=
  (tables.zipIdx.filter fun (_, k) => tableAlias (k + 1) ∉ names).map Prod.fst

theorem mem_namedItems_iff {tables : List TableItem} {names : List String} {item : TableItem} :
    item ∈ namedItems tables names ↔
      ∃ k : Nat, tables[k]? = some item ∧ tableAlias (k + 1) ∉ names := by
  simp [namedItems, List.mem_zipIdx_iff_getElem?]

theorem namedItems_concat (tables : List TableItem) (item : TableItem) (names : List String) :
    namedItems (tables ++ [item]) names =
      namedItems tables names ++
        if tableAlias (tables.length + 1) ∈ names then [] else [item] := by
  rw [namedItems, List.zipIdx_append, List.filter_append, List.map_append, ← namedItems]
  split <;> simp_all

/-- Giving away the next alias does not concern the tables that are there. -/
theorem namedItems_concat_tableAlias (tables : List TableItem) (names : List String) :
    namedItems tables (names ++ [tableAlias (tables.length + 1)]) = namedItems tables names := by
  unfold namedItems
  refine congrArg (List.map Prod.fst) (List.filter_congr ?_)
  rintro ⟨item, k⟩ hk
  obtain ⟨hlt, -⟩ := List.getElem?_eq_some_iff.1 (List.mem_zipIdx_iff_getElem?.1 hk)
  have hne : tableAlias (k + 1) ≠ tableAlias (tables.length + 1) := by
    intro heq
    have hk := tableAlias_injective heq
    omega
  simp [hne]

/-- The table that a step names, provided that its alias is an identifier. -/
def Step.table? : Step → Option TableItem
  | fromSql sql aliasName =>
    (Identifier.checkAlias aliasName).toOption.map fun _ => ⟨sql, aliasName⟩
  | _ => none

theorem Step.table?_eq_some_iff {step : Step} {sql : String} {position : Nat} :
    step.table? = some ⟨sql, some (tableAlias position)⟩ ↔
      step = .fromSql sql (some (tableAlias position)) := by
  cases step with
  | fromSql sql' aliasName =>
    constructor
    · intro h
      obtain ⟨-, -, heq⟩ := Option.map_eq_some_iff.1 h
      cases heq
      rfl
    · rintro ⟨⟩
      simp [table?, Identifier.checkAlias, isPlain_tableAlias, Except.toOption]
  | _ => simp [table?]

namespace Query

/-- Whether the given tables are those of a query that have not been joined, in their order. -/
structure HasNamed (q : Query) (items : List TableItem) : Prop where
  /-- An alias that has been given away is not that of a later position. -/
  position_le : ∀ position, tableAlias position ∈ q.aliases.names → position ≤ q.tables.length
  named : namedItems q.tables q.aliases.names = items

namespace HasNamed

variable {q q' : Query} {items : List TableItem}

theorem empty (context : Context) (mode : SelectMode) (comment : Option String) :
    HasNamed { context, mode, comment } [] :=
  ⟨by simp [Aliases.names], rfl⟩

/-- A change that touches neither tables nor aliases. -/
theorem congr (h : q.HasNamed items) (htables : q'.tables = q.tables)
    (haliases : q'.aliases = q.aliases) : q'.HasNamed items := by
  constructor
  · rw [htables, haliases]
    exact h.position_le
  · rw [htables, haliases]
    exact h.named

theorem next_not_mem (h : q.HasNamed items) :
    tableAlias (q.tables.length + 1) ∉ q.aliases.names := by
  intro hmem
  have hle := h.position_le _ hmem
  omega

theorem pushTable (h : q.HasNamed items) (item : TableItem) :
    (q.pushTable item).HasNamed (items ++ [item]) where
  position_le := by
    intro position hposition
    have hle := h.position_le position hposition
    simp only [Query.pushTable, List.length_append, List.length_singleton]
    omega
  named := by
    have hnamed := namedItems_concat q.tables item q.aliases.names
    rw [if_neg h.next_not_mem, h.named] at hnamed
    exact hnamed

theorem addJoin (h : q.HasNamed items) (path : String) (r : Reference Field) :
    (q.addJoin path r).HasNamed items := by
  rw [addJoin_eq]
  cases r.group.table with
  | none =>
    -- a group without table takes no alias
    constructor
    · simpa [Aliases.names_concat] using h.position_le
    · simpa [Aliases.names_concat] using h.named
  | some table =>
    constructor
    · intro position hposition
      simp only [Option.map_some, Aliases.names_concat, Option.toList_some, List.mem_append,
        List.mem_singleton, List.length_append, List.length_singleton] at hposition ⊢
      rcases hposition with hposition | hposition
      · have hle := h.position_le position hposition
        omega
      · have heq : position = q.tables.length + 1 := tableAlias_injective hposition
        omega
    · have hnext : q.nextAlias = tableAlias (q.tables.length + 1) := rfl
      simp only [Option.map_some, Option.toList_some, Aliases.names_concat]
      rw [namedItems_concat, hnext, if_pos (List.mem_append_right _ List.mem_cons_self),
        List.append_nil, namedItems_concat_tableAlias]
      exact h.named

theorem joinEach (h : q.HasNamed items) (paths : List String) :
    (q.joinEach paths).query.HasNamed items :=
  joinEach_induction (P := fun q => q.HasNamed items) (fun _ path r h => h.addJoin path r) h paths

theorem joinFields (h : q.HasNamed items) (n : Node) : (q.joinFields n).query.HasNamed items := by
  rw [Query.joinFields, joinPaths_eq]
  exact h.joinEach _

theorem fromSql (h : q.HasNamed items) (sql : String) (aliasName : Option String) :
    (q.fromSql sql aliasName).query.HasNamed
      (items ++ (Step.fromSql sql aliasName).table?.toList) := by
  rw [Query.fromSql, Step.table?]
  cases Identifier.checkAlias aliasName with
  | error fault =>
    rw [← List.append_nil items] at h
    exact h
  | ok _ => exact h.pushTable ⟨sql, aliasName⟩

/-- A step adds the table that it names. What it joins is not among the named tables. -/
theorem apply (h : q.HasNamed items) (step : Step) :
    (q.apply step).query.HasNamed (items ++ step.table?.toList) := by
  -- the steps that name no table add nothing
  have hq : q.HasNamed (items ++ []) := by rwa [List.append_nil]
  have hmode : ∀ mode, HasNamed { q with mode } (items ++ []) := fun _ => hq.congr rfl rfl
  cases step with
  | fromSql sql aliasName => exact h.fromSql sql aliasName
  | fromPath path => exact hq.joinEach _
  | selectExpr n aliasName =>
    rw [Query.apply]
    rcases q.selectExpr_cases n aliasName with ⟨fault, heq⟩ | ⟨c, mode, -, -, -, heq⟩ <;> rw [heq]
    · exact hq
    · exact ((hmode mode).joinFields n).congr rfl rfl
  | selectSql sql aliasName =>
    rw [Query.apply]
    rcases q.selectSql_cases sql aliasName with ⟨fault, heq⟩ | ⟨mode, -, heq⟩ <;> rw [heq]
    · exact hq
    · exact (hmode mode).congr rfl rfl
  | whereExpr n =>
    rw [Query.apply]
    rcases q.whereExpr_cases n with ⟨fault, heq⟩ | ⟨c, -, -, -, heq⟩ <;> rw [heq]
    · exact hq
    · exact (hq.joinFields n).congr rfl rfl
  | groupByExpr n =>
    rw [Query.apply]
    rcases q.groupByExpr_cases n with ⟨fault, heq⟩ | ⟨c, mode, -, -, -, -, heq⟩ <;> rw [heq]
    · exact hq
    · exact ((hmode mode).joinFields n).congr rfl rfl
  | groupBySql sql =>
    rw [Query.apply]
    rcases q.groupBySql_cases sql with ⟨fault, heq⟩ | ⟨mode, -, heq⟩ <;> rw [heq]
    · exact hq
    · exact (hmode mode).congr rfl rfl
  | orderExpr n direction nulls =>
    rw [Query.apply]
    rcases q.orderExpr_cases n direction nulls with ⟨fault, heq⟩ | ⟨c, -, -, heq⟩ <;> rw [heq]
    · exact hq
    · exact (hq.joinFields n).congr rfl rfl
  | _ => exact hq.congr rfl rfl

/-- The tables that have not been joined are those that the steps name. -/
theorem run (h : q.HasNamed items) (steps : List Step) :
    (q.run steps).HasNamed (items ++ steps.filterMap Step.table?) := by
  induction steps generalizing q items with
  | nil =>
    rw [List.filterMap_nil, List.append_nil]
    exact h
  | cons step steps ih =>
    have hrest := ih (h.apply step)
    have hitems : items ++ step.table?.toList ++ steps.filterMap Step.table? =
        items ++ (step :: steps).filterMap Step.table? := by
      rw [List.append_assoc, List.filterMap_cons]
      cases step.table? <;> rfl
    rw [hitems] at hrest
    exact hrest

end HasNamed

/-- The table of an alias stands at the position that the alias counts. -/
theorem JoinsFit.exists_position {q : Query} {named : Nat} {path name : String}
    (h : q.JoinsFit named) (hpath : (path, some name) ∈ q.aliases) :
    ∃ k table, name = tableAlias (k + 1) ∧ q.tables[k]? = some ⟨table, some name⟩ := by
  obtain ⟨f, r, -, -, howns⟩ := h.owns path _ hpath
  cases htable : r.group.table with
  | none =>
    rw [htable] at howns
    exact howns.elim
  | some table =>
    rw [htable] at howns
    obtain ⟨k, hname, hk⟩ := howns
    exact ⟨k, table, hname, hk⟩

/-- After any steps on an empty query, whatever its mode, the alias of a joined table counts the
tables up to this one. Another table has the same alias if and only if a step names that table with
this alias, so no two joined tables share an alias. -/
theorem run_alias_taken_iff {context : Context} {mode : SelectMode} {comment : Option String}
    {steps : List Step} {path name : String}
    (h : (run { context, mode, comment } steps).aliases.lookup path = some (some name)) :
    let q := run { context, mode, comment } steps
    ∃ k table, name = tableAlias (k + 1) ∧ q.tables[k]? = some ⟨table, some name⟩ ∧
      ∀ sql, (∃ j, j ≠ k ∧ q.tables[j]? = some ⟨sql, some name⟩) ↔
        .fromSql sql (some name) ∈ steps := by
  intro q
  have hpath : (path, some name) ∈ q.aliases := Aliases.mem_of_lookup h
  have hjoins : q.JoinsFit _ := ((Joined.empty context mode comment).run steps).joins
  have hnamed : namedItems q.tables q.aliases.names = [] ++ steps.filterMap Step.table? :=
    ((HasNamed.empty context mode comment).run steps).named
  obtain ⟨k, table, rfl, hk⟩ := hjoins.exists_position hpath
  refine ⟨k, table, rfl, hk, fun sql => ?_⟩
  have hsteps : ⟨sql, some (tableAlias (k + 1))⟩ ∈ namedItems q.tables q.aliases.names ↔
      .fromSql sql (some (tableAlias (k + 1))) ∈ steps := by
    simp [hnamed, Step.table?_eq_some_iff]
  rw [← hsteps, mem_namedItems_iff]
  constructor
  · rintro ⟨j, hne, hj⟩
    refine ⟨j, hj, fun hmem => hne ?_⟩
    -- the alias of a joined table tells its position
    obtain ⟨path', hpath'⟩ := Aliases.mem_names_iff.1 hmem
    obtain ⟨i, table', hi, htable'⟩ := hjoins.exists_position hpath'
    cases tableAlias_injective hi
    rw [hj] at htable'
    simp only [Option.some.injEq, TableItem.mk.injEq] at htable'
    have hjk := tableAlias_injective htable'.2
    omega
  · rintro ⟨j, hj, hfree⟩
    refine ⟨j, ?_, hj⟩
    rintro rfl
    exact hfree (Aliases.mem_names_iff.2 ⟨path, hpath⟩)

/-- A table that has been given the alias `t2` shares it with the second table, which is joined. -/
theorem run_alias_taken_iff_person :
    let context : Context := ⟨deptSchema, ⟨.postgres, [], rfl⟩, .inline⟩
    let q := run { context } [.fromSql "person" (some "t2"), .fromPath "dept"]
    (∃ (j k : Nat) (table : String), j ≠ k ∧ q.tables[j]? = some ⟨"person", some "t2"⟩ ∧
      q.tables[k]? = some ⟨table, some "t2"⟩) ∧
    q.statement.toOption = some
      ⟨"select\n\t42\nfrom\n\tperson t2,\n\tdept t2\nwhere\n\tdept_id = t2.id\n", []⟩ := by
  intro context q
  have hlookup : q.aliases.lookup "dept" = some (some "t2") := by decide +kernel
  obtain ⟨k, table, -, hk, htaken⟩ := run_alias_taken_iff hlookup
  obtain ⟨j, hne, hj⟩ := (htaken "person").2 List.mem_cons_self
  exact ⟨⟨j, k, table, hne, hj, hk⟩, by decide +kernel⟩

end Query

end TypedSql
