import TypedSql.Proofs.Builtins
import TypedSql.Proofs.Transfer

/-!
# Postgres is a sublanguage of Oracle

A table embeds into another one if every call that it resolves resolves there too, with a result of
the same type. What the rules are need not be the same: adding days to a moment has a rule of its
own in Postgres, while Oracle takes the days for a duration. Expressions that are valid by a table
are then valid by the other one, with the same type and the same level, however they are nested.

Whether two tables embed is decided by pairs of rules. If a call resolves to one rule in the first
table and to another one in the second, then so does the call with the meet of their types, and
there are only finitely many such meets.
-/

namespace TypedSql

/-! ## Tables that embed -/

/-- Whether every call that a table resolves resolves in another one, with a result of the same
type. -/
def RuleTable.Embeds (t u : RuleTable) : Prop :=
  ∀ ⦃operator name types r⦄, t.resolve operator name types = .ok (.rule r) →
    ∃ s, u.resolve operator name types = .ok (.rule s) ∧ s.result = r.result

/-- Whether two overloads from two lists have the same result, wherever they are both chosen: if
they do not, then no operands go with both, or a rule is chosen before one of them. -/
def agree (ts us : List Rule) (r s : Rule) : Bool :=
  r.result = s.result ||
    match meetAll r.types s.types with
    | none => true
    | some meet =>
      ts.any (fun v => v.accepts meet && !widenAll r.types v.types) ||
        us.any (fun v => v.accepts meet && !widenAll s.types v.types)

/-- Whether each rule has an overload in another list that accepts at least the same operands, and
agrees with all its overloads there. -/
def covers (ts us : List Rule) : Bool :=
  ts.all fun r =>
    (overloads us r.key).any (fun s => widenAll r.types s.types) &&
      (overloads us r.key).all (agree (overloads ts r.key) (overloads us r.key) r)

section Covers

variable {t u : RuleTable} {operator : Operator} {name : Option String} {types : List DataType}
  {r s : Rule}

theorem RuleTable.IsNarrowest.any_eq_false {meet : List DataType}
    (hr : t.IsNarrowest operator name types r) (hmeet : Narrower types meet) :
    (overloads t.rules (operator, name)).any
      (fun v => v.accepts meet && !widenAll r.types v.types) = false := by
  -- a rule that accepts wider operands accepts the operands, and the narrowest one is below it
  rw [List.any_eq_false]
  intro v hv
  obtain ⟨hmem, hkey⟩ := mem_overloads.1 hv
  by_cases haccepts : v.accepts meet = true
  · have hwider : Narrower meet v.types := widenAll_iff.1 haccepts
    have hbelow := hr.2 v (RuleTable.mem_accepting.2 ⟨hmem, hkey, hmeet.trans hwider⟩)
    simp [widenAll_iff.2 hbelow]
  · simp [haccepts]

/-- Rules that agree and are both chosen have the same result. -/
theorem result_eq_of_agree (hr : t.IsNarrowest operator name types r)
    (hs : u.IsNarrowest operator name types s)
    (hagree : agree (overloads t.rules (operator, name)) (overloads u.rules (operator, name)) r s
      = true) : s.result = r.result := by
  have hrtypes : Narrower types r.types := (RuleTable.mem_accepting.1 hr.1).2.2
  have hstypes : Narrower types s.types := (RuleTable.mem_accepting.1 hs.1).2.2
  obtain ⟨meet, hmeet, hbelow, -, -⟩ := Narrower.exists_meetAll hrtypes hstypes
  rw [agree, hmeet] at hagree
  simp only [hr.any_eq_false hbelow, hs.any_eq_false hbelow, Bool.or_false,
    decide_eq_true_eq] at hagree
  exact hagree.symm

theorem RuleTable.embeds_of_covers (h : covers t.rules u.rules = true) : t.Embeds u := by
  intro operator name types r hresolve
  have hr := isNarrowest_of_resolve hresolve
  obtain ⟨hmem, hkey, hrtypes⟩ := mem_accepting.1 hr.1
  have hcovers := List.all_eq_true.1 h r hmem
  rw [Bool.and_eq_true, hkey] at hcovers
  obtain ⟨hany, hall⟩ := hcovers
  -- some overload of the other table accepts the operands, so that there is a narrowest one
  obtain ⟨v, hv, hwider⟩ := List.any_eq_true.1 hany
  obtain ⟨hvmem, hvkey⟩ := mem_overloads.1 hv
  have hvtypes : Narrower types v.types := hrtypes.trans (widenAll_iff.1 hwider)
  obtain ⟨s, hs⟩ := exists_isNarrowest ⟨v, mem_accepting.2 ⟨hvmem, hvkey, hvtypes⟩⟩
  obtain ⟨hsmem, hskey, -⟩ := mem_accepting.1 hs.1
  have hagree := List.all_eq_true.1 hall s (mem_overloads.2 ⟨hsmem, hskey⟩)
  exact ⟨s, resolve_of_isNarrowest hs, result_eq_of_agree hr hs hagree⟩

end Covers

/-! ## The tables of both dialects -/

/-- The operators can be looked at one by one. -/
theorem covers_of_operators {ts us : List Rule}
    (h : ∀ op, covers (ofOperator ts op) (ofOperator us op) = true) : covers ts us = true := by
  refine List.all_eq_true.2 fun r hr => ?_
  have hmem : r ∈ ofOperator ts r.operator := List.mem_filter.2 ⟨hr, decide_eq_true rfl⟩
  have hcovers := List.all_eq_true.1 (h r.operator) r hmem
  rwa [overloads_ofOperator, overloads_ofOperator] at hcovers

/-- Templates do not matter for which calls resolve. -/
theorem covers_of_map_bare {ts us : List Rule}
    (h : covers (ts.map Rule.bare) (us.map Rule.bare) = true) : covers ts us = true := by
  have hagree : ∀ {vs ws : List Rule} (r s : Rule),
      agree (vs.map Rule.bare) (ws.map Rule.bare) r.bare s.bare = agree vs ws r s := by
    intro vs ws r s
    simp only [agree, List.any_map]
    rfl
  refine List.all_eq_true.2 fun r hr => ?_
  have hcovers := List.all_eq_true.1 h r.bare (List.mem_map_of_mem hr)
  have hkey : r.bare.key = r.key := rfl
  rw [hkey, overloads_map_bare, overloads_map_bare, List.any_map, List.all_map] at hcovers
  have hall : agree ((overloads ts r.key).map Rule.bare) ((overloads us r.key).map Rule.bare) r.bare
      ∘ Rule.bare = agree (overloads ts r.key) (overloads us r.key) r :=
    funext fun s => hagree r s
  rwa [hall] at hcovers

theorem covers_registrations (op : Operator) :
    covers (ofOperator ((registrations .postgres).map Registration.bare) op)
      (ofOperator ((registrations .oracle).map Registration.bare) op) = true := by
  have hall : operators.all (fun op =>
      covers (ofOperator ((registrations .postgres).map Registration.bare) op)
        (ofOperator ((registrations .oracle).map Registration.bare) op)) = true := by
    decide +kernel
  exact List.all_eq_true.1 hall op (mem_operators op)

/-- What the table of Postgres resolves, that of Oracle does, with the same results. -/
theorem embeds_registry {t u : RuleTable} (ht : registry .postgres = .ok t)
    (hu : registry .oracle = .ok u) : t.Embeds u := by
  refine RuleTable.embeds_of_covers (covers_of_map_bare ?_)
  rw [map_bare_of_registry ht, map_bare_of_registry hu]
  exact covers_of_operators covers_registrations

/-! ## Checking by a table that embeds -/

/-- Whether a valid result is found as well as another one, and says the same of the expression. -/
structure Checked.Matches (c d : Checked) : Prop where
  isValid : d.isValid = true
  dataType : d.dataType? = c.dataType?
  level : d.level = c.level

theorem DataType.isCompatible_eq : DataType.IsCompatible Eq where
  refl _ := rfl
  eq_bool h := h.symm
  exists_widen := by
    rintro a b _ _ t rfl rfl h
    exact ⟨t, h, rfl⟩

theorem RuleTable.Embeds.carries {t u : RuleTable} (h : t.Embeds u) : t.Carries Eq u := by
  intro operator name types types' r htypes hresolve
  rw [List.forall₂_eq_eq_eq] at htypes
  subst htypes
  obtain ⟨s, hs, hresult⟩ := h hresolve
  exact ⟨s, hs, hresult.symm⟩

namespace Context

variable {ctx ctx' : Context}

/-- An expression that is valid by a table is valid by one that it embeds into. -/
theorem exists_check_of_embeds (hschema : ctx'.schema = ctx.schema)
    (hrules : ctx.rules.Embeds ctx'.rules) {n : Node} {c : Checked} (h : ctx.check n = .ok c)
    (hv : c.isValid = true) : ∃ d, ctx'.check n = .ok d ∧ c.Matches d := by
  have hfields : ∀ m ∈ n.preorder, ∀ path f, m.expr = .field path →
      ctx.schema.resolve? path = some f →
      ∃ f', ctx'.schema.resolve? path = some f' ∧ f.dataType = f'.dataType := by
    intro m _ path f _ hf
    exact ⟨f, by rw [hschema, hf], rfl⟩
  obtain ⟨d, hd, hcd⟩ :=
    exists_check_of_carries DataType.isCompatible_eq hrules.carries hfields h hv
  obtain ⟨t, _, ht, hu, rfl⟩ := hcd.dataType
  exact ⟨d, hd, hcd.isValid, hu.trans ht.symm, hcd.level⟩

/-- An expression that is valid in Postgres is valid in Oracle, whatever the schema and however
constants are written, with the same type and about the same. -/
theorem check_oracle_of_postgres {schema : Schema} {mode mode' : LiteralMode} {rules : RuleTable}
    {n : Node} {c : Checked} (hrules : registry .postgres = .ok rules)
    (hcheck : (⟨schema, rules, mode⟩ : Context).check n = .ok c) (hv : c.isValid = true) :
    ∃ rules', registry .oracle = .ok rules' ∧
      ∃ d, (⟨schema, rules', mode'⟩ : Context).check n = .ok d ∧ d.isValid = true ∧
        d.dataType? = c.dataType? ∧ d.level = c.level := by
  obtain ⟨rules', hrules'⟩ := exists_registry .oracle
  have hschema : (⟨schema, rules', mode'⟩ : Context).schema = schema := rfl
  obtain ⟨d, hd, hcd⟩ :=
    exists_check_of_embeds hschema (embeds_registry hrules hrules') hcheck hv
  exact ⟨rules', hrules', d, hd, hcd.isValid, hcd.dataType, hcd.level⟩

open Builtin (a b) in
/-- A moment some days later, for which the tables have different rules. -/
theorem check_oracle_of_postgres_add :
    let schema : Schema := ⟨[⟨"at", .dateTime, none, none⟩, ⟨"days", .dateDelta, none, none⟩]⟩
    let n : Node := .ofExpr (.binary .add (.ofExpr (.field "at")) (.ofExpr (.field "days")))
    ∃ rules rules' c d, registry .postgres = .ok rules ∧ registry .oracle = .ok rules' ∧
      (⟨schema, rules, .inline⟩ : Context).check n = .ok c ∧ c.isValid = true ∧
      (⟨schema, rules', .inline⟩ : Context).check n = .ok d ∧ d.isValid = true ∧
      d.dataType? = some .dateTime ∧ d.level = .row := by
  intro schema n
  obtain ⟨rules, hrules⟩ := exists_registry .postgres
  let ctx : Context := ⟨schema, rules, .inline⟩
  let moment : Checked := ⟨.leaf .dateTime, .row, []⟩
  let days : Checked := ⟨.leaf .dateDelta, .row, []⟩
  let reg : Registration := .binary .add .dateTime .dateTime .dateDelta
    s!"({a} + make_interval(days => cast({b} as integer)))"
  have hreg : reg ∈ registrations .postgres := by decide +kernel
  obtain ⟨r, hrule, hresolve⟩ := exists_resolve_of_mem_registrations hrules hreg
  have hresult : r.bare.result = .dateTime := congrArg Rule.result (Registration.bare_of_toRule hrule)
  have hchildren : List.Forall₂ (fun m d => ctx.check m = .ok d) n.children [moment, days] :=
    .cons rfl (.cons rfl .nil)
  have hjudge : ctx.judge n [moment, days] = .ok ⟨.resolved r, .row, [moment, days]⟩ :=
    judge_of_resolves
      ⟨⟨List.forall_mem_cons.2 ⟨rfl, List.forall_mem_singleton.2 rfl⟩, rfl⟩, hresolve⟩
  have hcheck := check_eq_ok_iff.2 ⟨by simp [n, Node.HasArity, Node.ofExpr], _, hchildren, hjudge⟩
  obtain ⟨rules', hrules', d, hd, hdv, hdtype, hdlevel⟩ :=
    check_oracle_of_postgres hrules hcheck rfl
  exact ⟨rules, rules', _, d, hrules, hrules', hcheck, rfl, hd, hdv,
    hdtype.trans (congrArg some hresult), hdlevel⟩

end Context

end TypedSql
