import Mathlib.Data.List.Nodup
import Mathlib.Data.List.Pairwise
import TypedSql.Proofs.Sequencing
import TypedSql.Proofs.Widening
import TypedSql.Rule.Table

/-!
# Resolution of calls

A table is built only if no two overloads are in conflict. This is a condition on pairs, but it is
enough for all calls: whatever the types of the operands are, the overloads that accept them are
closed under meets, so there is a narrowest one among them. A call therefore resolves to the one
narrowest overload whenever some overload accepts its operands, and resolving never fails.
-/

namespace TypedSql

/-! ## Tables without conflicts -/

theorem mem_overloads {rules : List Rule} {key : Operator × Option String} {r : Rule} :
    r ∈ overloads rules key ↔ r ∈ rules ∧ r.key = key := by
  simp [overloads]

/-- Two overloads without conflict have different types, and they are comparable or have an
overload for the meet of their types, if there is such a meet. -/
theorem conflict_eq_none_iff {all : List Rule} {r s : Rule} :
    conflict all r s = none ↔
      r.types ≠ s.types ∧
        (Narrower r.types s.types ∨ Narrower s.types r.types ∨
          ∀ ms, meetAll r.types s.types = some ms → ∃ u ∈ all, u.types = ms) := by
  unfold conflict
  by_cases heq : r.types = s.types
  · simp [heq]
  · rw [if_neg heq]
    by_cases hrs : Narrower r.types s.types
    · simp [widenAll_iff.2 hrs, hrs, heq]
    · by_cases hsr : Narrower s.types r.types
      · simp [widenAll_iff.2 hsr, hsr, heq]
      · have hle : ¬ (widenAll r.types s.types || widenAll s.types r.types) = true := by
          rw [Bool.or_eq_true, widenAll_iff, widenAll_iff]
          exact not_or.2 ⟨hrs, hsr⟩
        rw [if_neg hle]
        cases meetAll r.types s.types with
        | none => simp [heq]
        | some ms => simp [hrs, hsr, heq]

/-- Two entries of a list that are kept stay one after the other. -/
theorem pair_sublist_filter {α : Type} {p : α → Bool} {as : List α} {a b : α}
    (h : [a, b].Sublist as) (ha : p a = true) (hb : p b = true) :
    [a, b].Sublist (as.filter p) := by
  have hfilter := h.filter p
  rwa [List.filter_cons_of_pos ha, List.filter_cons_of_pos hb, List.filter_nil] at hfilter

/-- A table is free of conflicts if and only if no rule is in conflict with a later overload. -/
theorem firstConflict_eq_none_iff {rules rest : List Rule} :
    firstConflict rules rest = none ↔
      rest.Pairwise fun r s => s.key = r.key → conflict (overloads rules r.key) r s = none := by
  induction rest with
  | nil => simp [firstConflict]
  | cons r rest ih =>
    rw [firstConflict, Option.or_eq_none_iff, List.findSome?_eq_none_iff, ih, List.pairwise_cons]
    refine and_congr_left fun _ => ⟨fun h s hs hkey => h s (mem_overloads.2 ⟨hs, hkey⟩), ?_⟩
    intro h s hs
    obtain ⟨hs, hkey⟩ := mem_overloads.1 hs
    exact h s hs hkey

namespace RuleTable

/-- The overloads with a given key, each free of conflicts with the later ones. -/
theorem overloads_pairwise (t : RuleTable) (key : Operator × Option String) :
    (overloads t.rules key).Pairwise fun r s => conflict (overloads t.rules key) r s = none := by
  have h := (firstConflict_eq_none_iff.1 t.consistent).filter fun r => r.key = key
  refine h.imp_of_mem fun {r s} hr hs hconf => ?_
  obtain ⟨_, hr⟩ := mem_overloads.1 hr
  obtain ⟨_, hs⟩ := mem_overloads.1 hs
  rw [hr, hs] at hconf
  exact hconf rfl

/-- Overloads with the same key and the same types are the same rule. -/
theorem overloads_types_nodup (t : RuleTable) (key : Operator × Option String) :
    ((overloads t.rules key).map Rule.types).Nodup := by
  rw [List.Nodup, List.pairwise_map]
  exact (t.overloads_pairwise key).imp fun h => (conflict_eq_none_iff.1 h).1

/-- A rule stands only once in a table. -/
theorem count_rules_eq_one (t : RuleTable) {r : Rule} (hr : r ∈ t.rules) : t.rules.count r = 1 := by
  have hnodup : (overloads t.rules r.key).Nodup :=
    List.Nodup.of_map _ (t.overloads_types_nodup r.key)
  have hcount := List.count_eq_one_of_mem hnodup (mem_overloads.2 ⟨hr, rfl⟩)
  rwa [overloads, List.count_filter (by simp)] at hcount

/-- The overloads that accept operands of the given types. -/
def accepting (t : RuleTable) (operator : Operator) (name : Option String)
    (types : List DataType) : List Rule :=
  (overloads t.rules (operator, name)).filter fun r => r.accepts types

variable {t : RuleTable} {operator : Operator} {name : Option String} {types : List DataType}

theorem mem_accepting {r : Rule} :
    r ∈ t.accepting operator name types ↔
      r ∈ t.rules ∧ r.key = (operator, name) ∧ Narrower types r.types := by
  simp only [accepting, List.mem_filter, mem_overloads, Rule.accepts, widenAll_iff, and_assoc]

theorem accepting_types_nodup : ((t.accepting operator name types).map Rule.types).Nodup :=
  (t.overloads_types_nodup (operator, name)).sublist (List.filter_sublist.map Rule.types)

/-- Accepting overloads are told apart by their types. -/
theorem eq_of_types_eq {r s : Rule} (hr : r ∈ t.accepting operator name types)
    (hs : s ∈ t.accepting operator name types) (h : r.types = s.types) : r = s :=
  List.inj_on_of_nodup_map accepting_types_nodup hr hs h

/-- Whether an accepting overload is below two given ones. -/
def HasBelow (t : RuleTable) (operator : Operator) (name : Option String) (types : List DataType)
    (r s : Rule) : Prop :=
  ∃ u ∈ t.accepting operator name types, Narrower u.types r.types ∧ Narrower u.types s.types

instance : Std.Symm (t.HasBelow operator name types) :=
  ⟨fun _ _ ⟨u, hu, hur, hus⟩ => ⟨u, hu, hus, hur⟩⟩

/-- Below any two accepting overloads there is a third one: one of the two, or the overload for the
meet of their types, which accepts the operands too. -/
theorem hasBelow_of_mem {r s : Rule} (hr : r ∈ t.accepting operator name types)
    (hs : s ∈ t.accepting operator name types) : t.HasBelow operator name types r s := by
  -- the relation is symmetric, so it is enough to look at pairs in the order of registration
  have hpair : (t.accepting operator name types).Pairwise (t.HasBelow operator name types) := by
    refine ((t.overloads_pairwise (operator, name)).filter _).imp_of_mem fun {r s} hr hs h => ?_
    obtain ⟨_, hrs | hsr | hmeet⟩ := conflict_eq_none_iff.1 h
    · exact ⟨r, hr, Narrower.refl _, hrs⟩
    · exact ⟨s, hs, hsr, Narrower.refl _⟩
    · obtain ⟨ms, hms, htms, hmr, hmst⟩ :=
        Narrower.exists_meetAll (mem_accepting.1 hr).2.2 (mem_accepting.1 hs).2.2
      obtain ⟨u, hu, rfl⟩ := hmeet ms hms
      obtain ⟨hu, hkey⟩ := mem_overloads.1 hu
      exact ⟨u, mem_accepting.2 ⟨hu, hkey, htms⟩, hmr, hmst⟩
  have hself : ∀ r ∈ t.accepting operator name types, t.HasBelow operator name types r r :=
    fun r hr => ⟨r, hr, Narrower.refl _, Narrower.refl _⟩
  exact hpair.forall_of_forall hself hr hs

/-- Below any accepting overloads, if there are some, there is one that is below all of them. -/
theorem exists_accepting_below_all {rules : List Rule}
    (hne : ∃ r, r ∈ t.accepting operator name types)
    (hrules : ∀ r ∈ rules, r ∈ t.accepting operator name types) :
    ∃ u ∈ t.accepting operator name types, ∀ r ∈ rules, Narrower u.types r.types := by
  induction rules with
  | nil =>
    obtain ⟨r, hr⟩ := hne
    exact ⟨r, hr, by simp⟩
  | cons r rules ih =>
    obtain ⟨u, hu, hbelow⟩ := ih fun s hs => hrules s (List.mem_cons_of_mem r hs)
    obtain ⟨v, hv, hvr, hvu⟩ := hasBelow_of_mem (hrules r List.mem_cons_self) hu
    refine ⟨v, hv, fun s hs => ?_⟩
    rcases List.mem_cons.1 hs with rfl | hs
    · exact hvr
    · exact hvu.trans (hbelow s hs)

/-! ## The narrowest overload -/

/-- Whether a rule is an accepting overload that is narrower than or equal to all of them. -/
def IsNarrowest (t : RuleTable) (operator : Operator) (name : Option String)
    (types : List DataType) (r : Rule) : Prop :=
  r ∈ t.accepting operator name types ∧
    ∀ s ∈ t.accepting operator name types, Narrower r.types s.types

theorem IsNarrowest.unique {r s : Rule} (hr : t.IsNarrowest operator name types r)
    (hs : t.IsNarrowest operator name types s) : r = s :=
  eq_of_types_eq hr.1 hs.1 ((hr.2 s hs.1).antisymm (hs.2 r hr.1))

theorem exists_isNarrowest (hne : ∃ r, r ∈ t.accepting operator name types) :
    ∃ r, t.IsNarrowest operator name types r := by
  obtain ⟨u, hu, hbelow⟩ := exists_accepting_below_all hne fun r hr => hr
  exact ⟨u, hu, hbelow⟩

theorem narrowest?_eq_some_iff {r : Rule} :
    narrowest? (t.accepting operator name types) = some r ↔
      t.IsNarrowest operator name types r := by
  have hsound : ∀ s, narrowest? (t.accepting operator name types) = some s →
      t.IsNarrowest operator name types s := by
    intro s hs
    refine ⟨List.mem_of_find?_eq_some hs, fun u hu => ?_⟩
    have hall := List.find?_some hs
    simp only [List.all_eq_true, widenAll_iff] at hall
    exact hall u hu
  refine ⟨hsound r, fun hr => ?_⟩
  cases hfind : narrowest? (t.accepting operator name types) with
  | some s => rw [(hsound s hfind).unique hr]
  | none =>
    rw [narrowest?, List.find?_eq_none] at hfind
    refine absurd ?_ (hfind r hr.1)
    simp only [List.all_eq_true, widenAll_iff]
    exact hr.2

/-- An overload for exactly the types of the operands is the narrowest one. -/
theorem isNarrowest_of_types_eq {r : Rule} (hr : r ∈ t.rules) (hkey : r.key = (operator, name))
    (htypes : r.types = types) : t.IsNarrowest operator name types r := by
  refine ⟨mem_accepting.2 ⟨hr, hkey, htypes ▸ Narrower.refl _⟩, fun s hs => ?_⟩
  rw [htypes]
  exact (mem_accepting.1 hs).2.2

theorem choose_accepting_of_ne_nil (hne : ∃ r, r ∈ t.accepting operator name types) :
    ∃ r, choose (t.accepting operator name types) = .ok (.rule r) ∧
      t.IsNarrowest operator name types r := by
  obtain ⟨r, hr⟩ := exists_isNarrowest hne
  have hfind := narrowest?_eq_some_iff.2 hr
  refine ⟨r, ?_, hr⟩
  cases hacc : t.accepting operator name types with
  | nil => simp [hacc] at hne
  | cons first rest => simp [choose, ← hacc, hfind]

/-- A call that some overload accepts resolves to the narrowest one. -/
theorem resolve_of_isNarrowest {r : Rule} (hr : t.IsNarrowest operator name types r) :
    t.resolve operator name types = .ok (.rule r) := by
  obtain ⟨hrules, hkey, _⟩ := mem_accepting.1 hr.1
  have hmem := mem_overloads.2 ⟨hrules, hkey⟩
  have hne : (overloads t.rules (operator, name)).isEmpty = false := by
    rw [List.isEmpty_eq_false_iff]
    exact List.ne_nil_of_mem hmem
  simp only [resolve, hne, Bool.false_eq_true, if_false]
  cases hexact : (overloads t.rules (operator, name)).find? fun r => r.types = types with
  | some s =>
    have htypes : s.types = types := by simpa using List.find?_some hexact
    obtain ⟨hs, hkey⟩ := mem_overloads.1 (List.mem_of_find?_eq_some hexact)
    rw [(isNarrowest_of_types_eq hs hkey htypes).unique hr]
  | none =>
    obtain ⟨s, hs, hnarrow⟩ := choose_accepting_of_ne_nil ⟨r, hr.1⟩
    rw [← hnarrow.unique hr]
    exact hs

/-- A call that no overload accepts finds nothing, or not even the name. -/
theorem resolve_of_accepting_eq_nil (h : ¬ ∃ r, r ∈ t.accepting operator name types) :
    t.resolve operator name types =
      .ok (if name.isSome ∧ ∀ r ∈ t.rules, r.key ≠ (operator, name) then .unknownName
        else .noMatch) := by
  have hnil : t.accepting operator name types = [] :=
    List.eq_nil_iff_forall_not_mem.2 fun r hr => h ⟨r, hr⟩
  have hempty : (overloads t.rules (operator, name)).isEmpty = true ↔
      ∀ r ∈ t.rules, r.key ≠ (operator, name) := by
    simp [overloads, List.isEmpty_iff, List.filter_eq_nil_iff]
  by_cases hkey : ∀ r ∈ t.rules, r.key ≠ (operator, name)
  · simp only [resolve, hempty.2 hkey, if_true]
    cases name <;> simp_all
  · have hne : (overloads t.rules (operator, name)).isEmpty = false := by
      rw [← Bool.not_eq_true, hempty]
      exact hkey
    simp only [resolve, hne, Bool.false_eq_true, if_false, hkey, and_false]
    cases hexact : (overloads t.rules (operator, name)).find? fun r => r.types = types with
    | some s =>
      have htypes : s.types = types := by simpa using List.find?_some hexact
      obtain ⟨hs, hskey⟩ := mem_overloads.1 (List.mem_of_find?_eq_some hexact)
      exact absurd ⟨s, (isNarrowest_of_types_eq hs hskey htypes).1⟩ h
    | none =>
      show choose (t.accepting operator name types) = _
      rw [hnil]
      rfl

/-- A rule that a call resolves to is the narrowest overload. -/
theorem isNarrowest_of_resolve {r : Rule} (h : t.resolve operator name types = .ok (.rule r)) :
    t.IsNarrowest operator name types r := by
  by_cases hne : ∃ s, s ∈ t.accepting operator name types
  · obtain ⟨s, hs⟩ := exists_isNarrowest hne
    rw [resolve_of_isNarrowest hs] at h
    cases h
    exact hs
  · rw [resolve_of_accepting_eq_nil hne] at h
    split at h <;> cases h

theorem mem_rules_of_resolve {r : Rule} (h : t.resolve operator name types = .ok (.rule r)) :
    r ∈ t.rules :=
  (mem_accepting.1 (isNarrowest_of_resolve h).1).1

theorem length_types_of_resolve {r : Rule} (h : t.resolve operator name types = .ok (.rule r)) :
    r.types.length = types.length :=
  (mem_accepting.1 (isNarrowest_of_resolve h).1).2.2.length_eq.symm

/-- Every call resolves. -/
theorem exists_resolve (t : RuleTable) (operator : Operator) (name : Option String)
    (types : List DataType) : ∃ resolution, t.resolve operator name types = .ok resolution := by
  by_cases hne : ∃ r, r ∈ t.accepting operator name types
  · obtain ⟨r, hr⟩ := exists_isNarrowest hne
    exact ⟨_, resolve_of_isNarrowest hr⟩
  · exact ⟨_, resolve_of_accepting_eq_nil hne⟩

/-- Whether there is a truth template for a type can be found out. -/
theorem exists_truth (t : RuleTable) (type : DataType) : ∃ truth, t.truth type = .ok truth := by
  unfold truth
  split
  · exact ⟨_, rfl⟩
  · obtain ⟨resolution, hresolve⟩ := t.exists_resolve .func (some "bool") [type]
    rw [hresolve]
    cases resolution with
    | rule r => exact ⟨_, rfl⟩
    | noMatch => exact ⟨_, rfl⟩
    | unknownName => exact ⟨_, rfl⟩

theorem ofRules_eq_ok {rules : List Rule} (d : Dialect) (h : firstConflict rules rules = none) :
    ofRules d rules = .ok ⟨d, rules, h⟩ := by
  unfold ofRules
  split
  · rfl
  · rename_i fault hfault
    rw [h] at hfault
    cases hfault

/-- The rules of a table that was built are those of the registrations, in their order. -/
theorem rules_of_build {d : Dialect} {registrations : List Registration}
    (h : build d registrations = .ok t) :
    registrations.mapM Registration.toRule = .ok t.rules ∧ t.dialect = d := by
  obtain ⟨rules, hrules, h⟩ := bind_eq_ok_iff.1 h
  unfold ofRules at h
  split at h
  · cases h
    exact ⟨hrules, rfl⟩
  · cases h

end RuleTable

/-! ## What a call resolves to -/

/-- Whether a rule has the given operator and the given name and accepts operands of the given
types: as many as it has parameters, each of a type that widens to that of its parameter. -/
def Rule.Admits (r : Rule) (operator : Operator) (name : Option String)
    (types : List DataType) : Prop :=
  r.operator = operator ∧ r.name = name ∧
    List.Forall₂ (fun operand parameter => operand.widensTo parameter = true) types r.types

theorem RuleTable.mem_accepting_iff_admits {t : RuleTable} {operator : Operator}
    {name : Option String} {types : List DataType} {r : Rule} :
    r ∈ t.accepting operator name types ↔ r ∈ t.rules ∧ r.Admits operator name types := by
  rw [mem_accepting, Rule.key, Prod.mk.injEq, and_assoc]
  rfl

/-- In a table that was built every call resolves. It resolves to a rule if and only if some rule
admits it, and then to the one rule among those that is narrower than or equal to all of them. A
name that no rule has is unknown, and in all other cases no rule matches. -/
theorem resolve_eq_narrowest {d : Dialect} {registrations : List Registration} {t : RuleTable}
    (hbuild : RuleTable.build d registrations = .ok t) (operator : Operator) (name : Option String)
    (types : List DataType) :
    registrations.mapM Registration.toRule = .ok t.rules ∧
    ∃ resolution, t.resolve operator name types = .ok resolution ∧
      ((∃ r, resolution = .rule r) ↔ ∃ r ∈ t.rules, r.Admits operator name types) ∧
      (∀ r, resolution = .rule r →
        r ∈ t.rules ∧ r.Admits operator name types ∧ t.rules.count r = 1 ∧
        (∀ s ∈ t.rules, s.Admits operator name types → Narrower r.types s.types) ∧
        (∀ s ∈ t.rules, s.Admits operator name types →
          (∀ u ∈ t.rules, u.Admits operator name types → Narrower s.types u.types) → s = r)) ∧
      (resolution = .unknownName ↔
        name.isSome ∧ ∀ r ∈ t.rules, ¬ (r.operator = operator ∧ r.name = name)) ∧
      (resolution = .noMatch ↔
        (¬ ∃ r ∈ t.rules, r.Admits operator name types) ∧
          ¬ (name.isSome ∧ ∀ r ∈ t.rules, ¬ (r.operator = operator ∧ r.name = name))) := by
  refine ⟨(RuleTable.rules_of_build hbuild).1, ?_⟩
  have hadmits : (∃ r, r ∈ t.accepting operator name types) ↔
      ∃ r ∈ t.rules, r.Admits operator name types :=
    exists_congr fun r => RuleTable.mem_accepting_iff_admits
  have hkeys : (∀ r ∈ t.rules, r.key ≠ (operator, name)) ↔
      ∀ r ∈ t.rules, ¬ (r.operator = operator ∧ r.name = name) := by
    simp [Rule.key, Prod.mk.injEq]
  by_cases hne : ∃ r, r ∈ t.accepting operator name types
  · obtain ⟨r, hr⟩ := RuleTable.exists_isNarrowest hne
    obtain ⟨hmem, hradmits⟩ := RuleTable.mem_accepting_iff_admits.1 hr.1
    -- the narrowest rule has the key, so the name is not unknown
    have hkey : ¬ ∀ r ∈ t.rules, ¬ (r.operator = operator ∧ r.name = name) :=
      fun h => h r hmem ⟨hradmits.1, hradmits.2.1⟩
    refine ⟨.rule r, RuleTable.resolve_of_isNarrowest hr, ?_, ?_, ?_, ?_⟩
    · exact iff_of_true ⟨r, rfl⟩ (hadmits.1 hne)
    · rintro _ ⟨rfl⟩
      refine ⟨hmem, hradmits, t.count_rules_eq_one hmem, fun s hs hsadmits => ?_,
        fun s hs hsadmits hsnarrow => ?_⟩
      · exact hr.2 s (RuleTable.mem_accepting_iff_admits.2 ⟨hs, hsadmits⟩)
      · refine RuleTable.IsNarrowest.unique
          ⟨RuleTable.mem_accepting_iff_admits.2 ⟨hs, hsadmits⟩, fun u hu => ?_⟩ hr
        obtain ⟨hu, huadmits⟩ := RuleTable.mem_accepting_iff_admits.1 hu
        exact hsnarrow u hu huadmits
    · simp only [reduceCtorEq, false_iff]
      exact fun h => hkey h.2
    · simp only [reduceCtorEq, false_iff]
      exact fun h => h.1 (hadmits.1 hne)
  · rw [hadmits] at hne
    refine ⟨_, RuleTable.resolve_of_accepting_eq_nil (hadmits.not.2 hne), ?_⟩
    rw [← hkeys]
    by_cases hunknown : name.isSome ∧ ∀ r ∈ t.rules, r.key ≠ (operator, name)
    · rw [if_pos hunknown]
      simpa [hunknown.1, hne] using hunknown.2
    · rw [if_neg hunknown]
      simp [hunknown, hne]

/-- Three overloads of one function, two of which overlap without being comparable. -/
def powers : List Registration :=
  [.func "power" .number [.int, .number] "power(\x7b1\x7d, \x7b2\x7d)",
   .func "power" .number [.number, .int] "power(\x7b1\x7d, \x7b2\x7d)",
   .func "power" .int [.int, .int] "trunc(power(\x7b1\x7d, \x7b2\x7d))"]

/-- A call that all three overloads accept, though none is for exactly its types, resolves to the
third one. -/
theorem resolve_eq_narrowest_powers :
    ∃ t r, RuleTable.build .oracle powers = .ok t ∧
      t.resolve .func (some "power") [.bool, .bool] = .ok (.rule r) ∧
      r.types = [.int, .int] := by
  have hheads : (RuleTable.build .oracle powers).toOption.map
      (fun t => t.rules.map fun r => (r.operator, r.name, r.types)) =
      some [(.func, some "power", [.int, .number]), (.func, some "power", [.number, .int]),
        (.func, some "power", [.int, .int])] := by
    decide +kernel
  cases ht : RuleTable.build .oracle powers with
  | error fault => simp [ht, Except.toOption] at hheads
  | ok t =>
    obtain ⟨_, resolution, hresolve, hiff, hnarrow, _⟩ :=
      resolve_eq_narrowest ht .func (some "power") [.bool, .bool]
    simp only [ht, Except.toOption, Option.map_some, Option.some.injEq] at hheads
    obtain ⟨u, hu, hhead⟩ : ∃ u ∈ t.rules, (u.operator, u.name, u.types) =
        (Operator.func, some "power", [.int, .int]) := by
      rw [← List.mem_map, hheads]
      simp
    simp only [Prod.mk.injEq] at hhead
    have huadmits : u.Admits .func (some "power") [.bool, .bool] :=
      ⟨hhead.1, hhead.2.1, by rw [hhead.2.2]; exact .cons rfl (.cons rfl .nil)⟩
    obtain ⟨r, rfl⟩ := hiff.2 ⟨u, hu, huadmits⟩
    obtain ⟨hr, _, _, hbelow, _⟩ := hnarrow r rfl
    refine ⟨t, r, rfl, hresolve, ?_⟩
    have hrhead := List.mem_map_of_mem (f := fun r => (r.operator, r.name, r.types)) hr
    have hru := hbelow u hu huadmits
    rw [hheads] at hrhead
    rw [hhead.2.2, ← widenAll_iff] at hru
    -- the two other overloads are not narrower than the third one
    simp only [List.mem_cons, Prod.mk.injEq, List.not_mem_nil, or_false] at hrhead
    rcases hrhead with ⟨_, _, h⟩ | ⟨_, _, h⟩ | ⟨_, _, h⟩
    · rw [h] at hru
      exact absurd hru (by decide)
    · rw [h] at hru
      exact absurd hru (by decide)
    · exact h

end TypedSql
