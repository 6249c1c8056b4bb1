import Mathlib.Data.List.Perm.Basic
import TypedSql.Proofs.Resolution

/-!
# Which tables can be built

Building a table looks at two overloads at a time and asks for a third one at the meet of their
types. This asks for no more than resolution needs: operands whose types are a meet without overload
go with both of the two, and no overload that accepts them is below both. So a table is refused only
if two rules have the same types or some call has no narrowest overload. Both conditions are about
which rules there are, so it does not matter in which order they are registered.
-/

namespace TypedSql

/-! ## Rules that cannot be told apart -/

/-- Whether two rules at different places have the same types. -/
def HasDuplicate (rules : List Rule) : Prop :=
  ∃ (i j : Nat) (r s : Rule), i < j ∧ rules[i]? = some r ∧ rules[j]? = some s ∧
    r.types = s.types

/-- Whether there are operands that some rule accepts, but no rule that accepts them is narrower
than or equal to all others that do. -/
def IsAmbiguous (rules : List Rule) : Prop :=
  ∃ types, (∃ r ∈ rules, r.accepts types = true) ∧
    ¬ ∃ r ∈ rules, r.accepts types = true ∧
      ∀ s ∈ rules, s.accepts types = true → Narrower r.types s.types

/-- Whether overloads can always be told apart. -/
def IsUnambiguous (rules : List Rule) : Prop :=
  ∀ key, ¬ HasDuplicate (overloads rules key) ∧ ¬ IsAmbiguous (overloads rules key)

theorem hasDuplicate_iff {rules : List Rule} :
    HasDuplicate rules ↔ ¬ (rules.map Rule.types).Nodup := by
  rw [List.nodup_iff_getElem?_ne_getElem?]
  push Not
  constructor
  · rintro ⟨i, j, r, s, hij, hi, hj, htypes⟩
    have hlength : j < rules.length := (List.getElem?_eq_some_iff.1 hj).1
    refine ⟨i, j, hij, by simpa using hlength, ?_⟩
    rw [List.getElem?_map, List.getElem?_map, hi, hj, Option.map_some, Option.map_some, htypes]
  · rintro ⟨i, j, hij, hlength, htypes⟩
    rw [List.length_map] at hlength
    have hi := List.getElem?_eq_getElem (Nat.lt_trans hij hlength)
    have hj := List.getElem?_eq_getElem hlength
    rw [List.getElem?_map, List.getElem?_map, hi, hj] at htypes
    exact ⟨i, j, _, _, hij, hi, hj, Option.some.inj htypes⟩

theorem isAmbiguous_congr {rules rules' : List Rule} (h : ∀ r, r ∈ rules ↔ r ∈ rules') :
    IsAmbiguous rules ↔ IsAmbiguous rules' := by
  unfold IsAmbiguous
  simp only [h]

theorem isUnambiguous_of_perm {rules rules' : List Rule} (hperm : rules.Perm rules')
    (h : IsUnambiguous rules) : IsUnambiguous rules' := by
  intro key
  have hoverloads : (overloads rules key).Perm (overloads rules' key) := hperm.filter _
  obtain ⟨hduplicate, hambiguous⟩ := h key
  rw [hasDuplicate_iff, (hoverloads.map Rule.types).nodup_iff, ← hasDuplicate_iff] at hduplicate
  rw [isAmbiguous_congr fun r => hoverloads.mem_iff] at hambiguous
  exact ⟨hduplicate, hambiguous⟩

/-! ## Conflicts -/

/-- Rules that are not ambiguous have one for each meet of the types of two of them. -/
theorem exists_types_eq_meet {rules : List Rule} (h : ¬ IsAmbiguous rules) {r s : Rule}
    (hr : r ∈ rules) (hs : s ∈ rules) {ms : List DataType}
    (hms : meetAll r.types s.types = some ms) : ∃ u ∈ rules, u.types = ms := by
  obtain ⟨hmr, hmst⟩ := Narrower.of_meetAll hms
  by_contra hnone
  refine h ⟨ms, ⟨r, hr, widenAll_iff.2 hmr⟩, ?_⟩
  rintro ⟨u, hu, haccepts, hbelow⟩
  -- it is below both and so below their meet, which it accepts: its types are the meet
  have hur : Narrower u.types r.types := hbelow r hr (widenAll_iff.2 hmr)
  have hus : Narrower u.types s.types := hbelow s hs (widenAll_iff.2 hmst)
  obtain ⟨ms', hms', hums, -, -⟩ := Narrower.exists_meetAll hur hus
  obtain rfl : ms = ms' := Option.some.inj (hms.symm.trans hms')
  exact hnone ⟨u, hu, hums.antisymm (widenAll_iff.1 haccepts)⟩

theorem IsUnambiguous.firstConflict_eq_none {rules : List Rule} (h : IsUnambiguous rules) :
    firstConflict rules rules = none := by
  rw [firstConflict_eq_none_iff, List.pairwise_iff_forall_sublist]
  intro r s hrs hkey
  obtain ⟨hduplicate, hambiguous⟩ := h r.key
  have hgroup : [r, s].Sublist (overloads rules r.key) :=
    pair_sublist_filter hrs (decide_eq_true rfl) (decide_eq_true hkey)
  have hr : r ∈ overloads rules r.key := hgroup.subset List.mem_cons_self
  have hs : s ∈ overloads rules r.key := hgroup.subset (List.mem_cons_of_mem r List.mem_cons_self)
  have htypes : r.types ≠ s.types := by
    rw [hasDuplicate_iff, not_not, List.Nodup, List.pairwise_map] at hduplicate
    exact List.pairwise_iff_forall_sublist.1 hduplicate hgroup
  rw [conflict_eq_none_iff]
  exact ⟨htypes, Or.inr (Or.inr fun ms hms => exists_types_eq_meet hambiguous hr hs hms)⟩

namespace RuleTable

/-- The overloads of a table can be told apart. -/
theorem isUnambiguous (t : RuleTable) : IsUnambiguous t.rules := by
  intro key
  constructor
  · rw [hasDuplicate_iff, not_not]
    exact t.overloads_types_nodup key
  · rintro ⟨types, ⟨r, hr, haccepts⟩, hnone⟩
    have hmem : ∀ s, s ∈ t.accepting key.1 key.2 types ↔
        s ∈ overloads t.rules key ∧ s.accepts types = true := fun s => List.mem_filter
    obtain ⟨u, hu, hbelow⟩ := exists_isNarrowest ⟨r, (hmem r).2 ⟨hr, haccepts⟩⟩
    obtain ⟨huover, huaccepts⟩ := (hmem u).1 hu
    refine hnone ⟨u, huover, huaccepts, ?_⟩
    intro s hs hsaccepts
    exact hbelow s ((hmem s).2 ⟨hs, hsaccepts⟩)

variable {d : Dialect} {registrations registrations' : List Registration}

/-- A table can be built if and only if all templates can be read and the overloads can be told
apart. -/
theorem exists_build_iff :
    (∃ t, build d registrations = .ok t) ↔
      ∃ rules, registrations.mapM Registration.toRule = .ok rules ∧ IsUnambiguous rules := by
  constructor
  · rintro ⟨t, ht⟩
    exact ⟨t.rules, (rules_of_build ht).1, t.isUnambiguous⟩
  · rintro ⟨rules, hrules, h⟩
    exact ⟨_, bind_eq_ok_iff.2 ⟨rules, hrules, ofRules_eq_ok d h.firstConflict_eq_none⟩⟩

/-- If all templates can be read, then building a table fails if and only if, for some operator and
some name, two rules have the same types or there are operands that rules accept without a narrowest
one among these rules. -/
theorem build_eq_error_iff (d : Dialect)
    (hparse : ∀ reg ∈ registrations,
      ∃ template, Template.parse reg.template reg.arity = .ok template) :
    ∃ rules, registrations.mapM Registration.toRule = .ok rules ∧
      ((∃ fault, build d registrations = .error fault) ↔
        ∃ key, HasDuplicate (overloads rules key) ∨ IsAmbiguous (overloads rules key)) := by
  have htoRule : ∀ reg ∈ registrations, ∃ rule, reg.toRule = .ok rule := by
    intro reg hreg
    obtain ⟨template, htemplate⟩ := hparse reg hreg
    exact ⟨_, by rw [Registration.toRule, htemplate]⟩
  obtain ⟨rules, hrules⟩ := exists_mapM_eq_ok htoRule
  refine ⟨rules, hrules, ?_⟩
  have hbuild : (∃ t, build d registrations = .ok t) ↔ IsUnambiguous rules := by
    rw [exists_build_iff]
    simp [hrules]
  rw [exists_error_iff, hbuild, IsUnambiguous]
  push Not
  simp only [or_iff_not_imp_left]

/-- Without the third overload, operands of type `int` have no narrowest overload of `power`. -/
theorem build_eq_error_iff_powers :
    (∀ reg ∈ powers.take 2, ∃ template, Template.parse reg.template reg.arity = .ok template) ∧
      ∃ fault, build .oracle (powers.take 2) = .error fault := by
  have hparse : ∀ reg ∈ powers.take 2,
      ∃ template, Template.parse reg.template reg.arity = .ok template := by
    have hall : (powers.take 2).all
        (fun reg => (Template.parse reg.template reg.arity).isOk) = true := by
      decide +kernel
    intro reg hreg
    have hok := List.all_eq_true.1 hall reg hreg
    cases htemplate : Template.parse reg.template reg.arity with
    | error fault => simp [htemplate, Except.isOk, Except.toBool] at hok
    | ok template => exact ⟨template, rfl⟩
  obtain ⟨rules, hrules, hiff⟩ := build_eq_error_iff .oracle hparse
  refine ⟨hparse, hiff.2 ⟨(.func, some "power"), Or.inr ?_⟩⟩
  have htypes : ((powers.take 2).mapM Registration.toRule).toOption.map
      (fun rules => (overloads rules (.func, some "power")).map Rule.types) =
      some [[.int, .number], [.number, .int]] := by
    decide +kernel
  simp only [hrules, Except.toOption, Option.map_some, Option.some.injEq] at htypes
  have hmem : ∀ types, (∃ r ∈ overloads rules (.func, some "power"), r.types = types) ↔
      types = [.int, .number] ∨ types = [.number, .int] := by
    intro types
    rw [← List.mem_map, htypes]
    simp
  obtain ⟨r, hr, hrtypes⟩ := (hmem [.int, .number]).2 (Or.inl rfl)
  obtain ⟨s, hs, hstypes⟩ := (hmem [.number, .int]).2 (Or.inr rfl)
  have hraccepts : r.accepts [.int, .int] = true := by rw [Rule.accepts, hrtypes]; rfl
  have hsaccepts : s.accepts [.int, .int] = true := by rw [Rule.accepts, hstypes]; rfl
  refine ⟨[.int, .int], ⟨r, hr, hraccepts⟩, ?_⟩
  rintro ⟨u, hu, -, hbelow⟩
  have hur := widenAll_iff.2 (hbelow r hr hraccepts)
  have hus := widenAll_iff.2 (hbelow s hs hsaccepts)
  rw [hrtypes] at hur
  rw [hstypes] at hus
  rcases (hmem u.types).1 ⟨u, hu, rfl⟩ with hutypes | hutypes
  · rw [hutypes] at hus
    cases hus
  · rw [hutypes] at hur
    cases hur

/-! ## The order of registrations -/

theorem exists_build_of_perm (hperm : registrations.Perm registrations')
    (h : ∃ t, build d registrations = .ok t) : ∃ t, build d registrations' = .ok t := by
  obtain ⟨rules, hrules, hunambiguous⟩ := exists_build_iff.1 h
  obtain ⟨rules', hrules', hrulesPerm⟩ :=
    List.perm_comp_forall₂ hperm.symm (mapM_eq_ok_iff.1 hrules)
  exact exists_build_iff.2
    ⟨rules', mapM_eq_ok_iff.2 hrules', isUnambiguous_of_perm hrulesPerm.symm hunambiguous⟩

theorem rules_perm_of_build {t t' : RuleTable} (hperm : registrations.Perm registrations')
    (ht : build d registrations = .ok t) (ht' : build d registrations' = .ok t') :
    t.rules.Perm t'.rules := by
  have hrules := (rules_of_build ht).1
  have hrules' := mapM_eq_ok_iff.1 (rules_of_build ht').1
  obtain ⟨rules, hforall, hrulesPerm⟩ := List.perm_comp_forall₂ hperm hrules'
  rw [← mapM_eq_ok_iff, hrules] at hforall
  cases hforall
  exact hrulesPerm

section Congr

variable {t t' : RuleTable} (h : ∀ r, r ∈ t.rules ↔ r ∈ t'.rules)

include h

/-- What a call resolves to depends on which rules there are only. -/
theorem resolve_congr (operator : Operator) (name : Option String) (types : List DataType) :
    t.resolve operator name types = t'.resolve operator name types := by
  have hmem : ∀ r, r ∈ t.accepting operator name types ↔ r ∈ t'.accepting operator name types := by
    intro r
    rw [mem_accepting, mem_accepting, h]
  by_cases hne : ∃ r, r ∈ t.accepting operator name types
  · obtain ⟨r, hr⟩ := exists_isNarrowest hne
    have hr' : t'.IsNarrowest operator name types r :=
      ⟨(hmem r).1 hr.1, fun s hs => hr.2 s ((hmem s).2 hs)⟩
    rw [resolve_of_isNarrowest hr, resolve_of_isNarrowest hr']
  · have hne' : ¬ ∃ r, r ∈ t'.accepting operator name types := by
      simpa only [hmem] using hne
    rw [resolve_of_accepting_eq_nil hne, resolve_of_accepting_eq_nil hne']
    simp only [h]

theorem truth_congr (type : DataType) : t.truth type = t'.truth type := by
  unfold truth
  rw [resolve_congr h]

end Congr

/-- The order of the registrations does not matter: either no order of them gives a table or all do,
and then all calls resolve alike, with the same templates for truth. -/
theorem build_of_perm (d : Dialect) (hperm : registrations.Perm registrations') :
    ((∃ t, build d registrations = .ok t) ↔ ∃ t', build d registrations' = .ok t') ∧
      ∀ t t', build d registrations = .ok t → build d registrations' = .ok t' →
        (∀ operator name types, ∃ resolution, t.resolve operator name types = .ok resolution ∧
          t'.resolve operator name types = .ok resolution) ∧
        ∀ type, ∃ truth, t.truth type = .ok truth ∧ t'.truth type = .ok truth := by
  refine ⟨⟨exists_build_of_perm hperm, exists_build_of_perm hperm.symm⟩, ?_⟩
  intro t t' ht ht'
  have hmem : ∀ r, r ∈ t.rules ↔ r ∈ t'.rules :=
    fun r => (rules_perm_of_build hperm ht ht').mem_iff
  constructor
  · intro operator name types
    obtain ⟨resolution, hresolve⟩ := t.exists_resolve operator name types
    exact ⟨resolution, hresolve, by rw [← resolve_congr hmem, hresolve]⟩
  · intro type
    obtain ⟨truth, htruth⟩ := t.exists_truth type
    exact ⟨truth, htruth, by rw [← truth_congr hmem, htruth]⟩

/-- The three overloads of `power` give a table in the opposite order too, where the call that all
of them accept resolves to the same one. -/
theorem build_of_perm_powers :
    ∃ t t' r, build .oracle powers = .ok t ∧ build .oracle powers.reverse = .ok t' ∧
      t.resolve .func (some "power") [.bool, .bool] = .ok (.rule r) ∧
      t'.resolve .func (some "power") [.bool, .bool] = .ok (.rule r) := by
  obtain ⟨hiff, hresolve⟩ := build_of_perm .oracle (List.reverse_perm powers).symm
  have hfound : (build .oracle powers).toOption.map (fun t => t.rules.any fun r =>
      r.key = (.func, some "power") && r.accepts [.bool, .bool]) = some true := by
    decide +kernel
  cases ht : build .oracle powers with
  | error fault => simp [ht, Except.toOption] at hfound
  | ok t =>
    obtain ⟨t', ht'⟩ := hiff.1 ⟨t, ht⟩
    obtain ⟨resolution, hleft, hright⟩ :=
      (hresolve t t' ht ht').1 .func (some "power") [.bool, .bool]
    simp only [ht, Except.toOption, Option.map_some, Option.some.injEq, List.any_eq_true,
      Bool.and_eq_true, decide_eq_true_eq] at hfound
    obtain ⟨s, hs, hkey, haccepts⟩ := hfound
    obtain ⟨r, hr⟩ := exists_isNarrowest ⟨s, mem_accepting.2 ⟨hs, hkey, widenAll_iff.1 haccepts⟩⟩
    cases hleft.symm.trans (resolve_of_isNarrowest hr)
    exact ⟨t, t', r, rfl, ht', hleft, hright⟩

end RuleTable

end TypedSql
