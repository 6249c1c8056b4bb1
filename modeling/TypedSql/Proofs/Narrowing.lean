import TypedSql.Proofs.Builtins
import TypedSql.Proofs.Findings
import TypedSql.Proofs.Transfer

/-!
# Narrower fields

If the fields of a valid expression get narrower types, then the expression stays valid, its type
gets narrower or stays what it was, and it is about the same. A narrower operand may well select
another overload, whose result is declared on its own. In the tables of both dialects, though, of
two overloads the one with the narrower types never has the wider result.
-/

namespace TypedSql

/-- Whether the second type is narrower than or equal to the first one. -/
def DataType.IsNarrowedTo (t u : DataType) : Prop := u.widensTo t = true

theorem DataType.isCompatible_isNarrowedTo : DataType.IsCompatible IsNarrowedTo where
  refl := widensTo_refl
  eq_bool := eq_bool_of_widensTo
  exists_widen := by
    intro a b a' b' t ha hb h
    rcases widen_cases h with ⟨rfl, rfl⟩ | ⟨rfl, rfl⟩ | ⟨hat, hbt⟩
    · obtain rfl := eq_null_of_widensTo ha
      exact ⟨b', null_widen b', hb⟩
    · obtain rfl := eq_null_of_widensTo hb
      exact ⟨a', widen_null a', ha⟩
    · exact exists_widen_below (widensTo_trans ha hat) (widensTo_trans hb hbt)

/-! ## Tables with narrower results for narrower operands -/

/-- Whether, of any two overloads, the one with the narrower types has the narrower result. -/
def RuleTable.IsMonotone (t : RuleTable) : Prop :=
  ∀ r ∈ t.rules, ∀ s ∈ t.rules, s.key = r.key → Narrower s.types r.types →
    s.result.widensTo r.result = true

/-- Narrower operands are accepted by the rule for the wider ones, so that the rule that they select
is below it. -/
theorem RuleTable.IsMonotone.carries {t : RuleTable} (h : t.IsMonotone) :
    t.Carries DataType.IsNarrowedTo t := by
  intro operator name types types' r htypes hresolve
  have hnarrower : Narrower types' types := htypes.flip
  have hr := isNarrowest_of_resolve hresolve
  obtain ⟨hmem, hkey, hrtypes⟩ := mem_accepting.1 hr.1
  have hr' : r ∈ t.accepting operator name types' :=
    mem_accepting.2 ⟨hmem, hkey, hnarrower.trans hrtypes⟩
  obtain ⟨s, hs⟩ := exists_isNarrowest ⟨r, hr'⟩
  obtain ⟨hsmem, hskey, -⟩ := mem_accepting.1 hs.1
  have hresult : s.result.widensTo r.result = true :=
    h r hmem s hsmem (hskey.trans hkey.symm) (hs.2 r hr')
  exact ⟨s, resolve_of_isNarrowest hs, hresult⟩

/-- Whether no rule has a narrower overload with a result that is not narrower. The names are
compared last, since this takes longest. -/
def hasMonotoneResults (rules : List Rule) : Bool :=
  rules.all fun r => rules.all fun s =>
    s.result.widensTo r.result || !widenAll s.types r.types || s.key ≠ r.key

theorem hasMonotoneResults_registrations (d : Dialect) (op : Operator) :
    hasMonotoneResults (ofOperator ((registrations d).map Registration.bare) op) = true := by
  have hall : operators.all (fun op =>
      hasMonotoneResults (ofOperator ((registrations d).map Registration.bare) op)) = true := by
    cases d <;> decide +kernel
  exact List.all_eq_true.1 hall op (mem_operators op)

/-- The tables of both dialects have narrower results for narrower operands. -/
theorem isMonotone_registry {d : Dialect} {t : RuleTable} (ht : registry d = .ok t) :
    t.IsMonotone := by
  intro r hr s hs hkey htypes
  have hmem : ∀ u ∈ t.rules, u.operator = r.operator →
      u.bare ∈ ofOperator ((registrations d).map Registration.bare) r.operator := by
    intro u hu hoperator
    rw [← map_bare_of_registry ht]
    exact List.mem_filter.2 ⟨List.mem_map_of_mem hu, decide_eq_true hoperator⟩
  have hcheck := List.all_eq_true.1 (hasMonotoneResults_registrations d r.operator) r.bare
    (hmem r hr rfl)
  have hpair := List.all_eq_true.1 hcheck s.bare (hmem s hs (congrArg Prod.fst hkey))
  have hbareKey : s.bare.key = r.bare.key := hkey
  have hwidenAll : widenAll s.bare.types r.bare.types = true := widenAll_iff.2 htypes
  have hresult : s.bare.result.widensTo r.bare.result = true := by
    simpa [hbareKey, hwidenAll] using hpair
  exact hresult

/-! ## Expressions with narrower fields -/

namespace Context

/-- An expression that is valid stays valid if its fields get narrower types. Nothing is wrong
anywhere in it then, it is about the same, and its type is narrower than or equal to what it was. -/
theorem check_of_narrower_fields {d : Dialect} {rules : RuleTable} {schema schema' : Schema}
    {mode mode' : LiteralMode} {n : Node} {c : Checked} (hrules : registry d = .ok rules)
    (hfields : ∀ m ∈ n.preorder, ∀ path, m.expr = .field path →
      ∃ f f', schema.resolve? path = some f ∧ schema'.resolve? path = some f' ∧
        f'.dataType.widensTo f.dataType = true)
    (hcheck : (⟨schema, rules, mode⟩ : Context).check n = .ok c) (hv : c.isValid = true) :
    ∃ c' t t', (⟨schema', rules, mode'⟩ : Context).check n = .ok c' ∧
      (∀ e ∈ c'.preorder, e.isValid = true) ∧ c'.level = c.level ∧
      c.dataType? = some t ∧ c'.dataType? = some t' ∧ t'.widensTo t = true := by
  have hcarried : ∀ m ∈ n.preorder, ∀ path f, m.expr = .field path →
      schema.resolve? path = some f →
      ∃ f', schema'.resolve? path = some f' ∧ f.dataType.IsNarrowedTo f'.dataType := by
    intro m hm path f hexpr hf
    obtain ⟨g, f', hg, hf', htypes⟩ := hfields m hm path hexpr
    cases hf.symm.trans hg
    exact ⟨f', hf', htypes⟩
  have hexists : ∃ c', (⟨schema', rules, mode'⟩ : Context).check n = .ok c' ∧
      c.Follows DataType.IsNarrowedTo c' :=
    exists_check_of_carries DataType.isCompatible_isNarrowedTo
      (isMonotone_registry hrules).carries hcarried hcheck hv
  obtain ⟨c', hc', hfollows⟩ := hexists
  obtain ⟨t, t', ht, ht', htypes⟩ := hfollows.dataType
  refine ⟨c', t, t', hc', ?_, hfollows.level, ht, ht', htypes⟩
  intro e he
  exact isValid_of_mem_preorder hc' hfollows.isValid he

open Builtin (a b) in
/-- The difference of two moments is a duration; if the moments are dates, then another rule is
selected. -/
theorem check_of_narrower_fields_sub :
    let moments : Schema := ⟨[⟨"start", .dateTime, none, none⟩, ⟨"stop", .dateTime, none, none⟩]⟩
    let dates : Schema := ⟨[⟨"start", .date, none, none⟩, ⟨"stop", .date, none, none⟩]⟩
    let n : Node := .ofExpr (.binary .sub (.ofExpr (.field "stop")) (.ofExpr (.field "start")))
    ∃ rules c c' t', registry .oracle = .ok rules ∧
      (⟨moments, rules, .inline⟩ : Context).check n = .ok c ∧ c.isValid = true ∧
      c.dataType? = some .dateTimeDelta ∧
      (⟨dates, rules, .inline⟩ : Context).check n = .ok c' ∧
      (∀ e ∈ c'.preorder, e.isValid = true) ∧ c'.level = .row ∧
      c'.dataType? = some t' ∧ t'.widensTo .dateTimeDelta = true := by
  intro moments dates n
  obtain ⟨rules, hrules⟩ := exists_registry .oracle
  let ctx : Context := ⟨moments, rules, .inline⟩
  let moment : Checked := ⟨.leaf .dateTime, .row, []⟩
  let reg : Registration := .binary .sub .dateTimeDelta .dateTime .dateTime s!"({a} - {b})"
  have hreg : reg ∈ registrations .oracle := by decide +kernel
  obtain ⟨r, hrule, hresolve⟩ := exists_resolve_of_mem_registrations hrules hreg
  have hresult : r.bare.result = .dateTimeDelta :=
    congrArg Rule.result (Registration.bare_of_toRule hrule)
  have hchildren : List.Forall₂ (fun m d => ctx.check m = .ok d) n.children [moment, moment] :=
    .cons rfl (.cons rfl .nil)
  have hjudge : ctx.judge n [moment, moment] = .ok ⟨.resolved r, .row, [moment, moment]⟩ :=
    judge_of_resolves
      ⟨⟨List.forall_mem_cons.2 ⟨rfl, List.forall_mem_singleton.2 rfl⟩, rfl⟩, hresolve⟩
  have hcheck := check_eq_ok_iff.2 ⟨by simp [n, Node.HasArity, Node.ofExpr], _, hchildren, hjudge⟩
  have hfields : ∀ m ∈ n.preorder, ∀ path, m.expr = .field path →
      ∃ f f', moments.resolve? path = some f ∧ dates.resolve? path = some f' ∧
        f'.dataType.widensTo f.dataType = true := by
    have hpreorder : n.preorder =
        [n, .ofExpr (.field "stop"), .ofExpr (.field "start")] := rfl
    rw [hpreorder]
    simp only [List.forall_mem_cons, List.not_mem_nil, false_imp_iff, implies_true, and_true]
    refine ⟨?_, ?_, ?_⟩
    · rintro path ⟨⟩
    · rintro path ⟨⟩
      exact ⟨_, _, rfl, rfl, rfl⟩
    · rintro path ⟨⟩
      exact ⟨_, _, rfl, rfl, rfl⟩
  obtain ⟨c', t, t', hc', hvalid, hlevel, ht, ht', htypes⟩ :=
    check_of_narrower_fields hrules hfields hcheck rfl
  obtain rfl : DataType.dateTimeDelta = t := Option.some.inj ((congrArg some hresult).symm.trans ht)
  exact ⟨rules, _, c', t', hrules, hcheck, rfl, congrArg some hresult, hc', hvalid, hlevel, ht',
    htypes⟩

end Context

end TypedSql
