import TypedSql.Proofs.Enclosure
import TypedSql.Proofs.Resolution
import TypedSql.Rule.Registry

/-!
# The rules of both dialects

All registrations of both dialects have sound and enclosing templates, whose references are in
range, and no two of them are in conflict. So both tables can be built, and every rule of a table
makes primaries from primaries, and enclosed texts from enclosed texts.
-/

namespace TypedSql

open Lexer (isSound isEnclosing)

/-! ## Sound registrations -/

namespace Template

/-- Whether the digits of a reference denote an operand. -/
def isInRange (arity : Nat) (digits : List Char) : Bool :=
  match Text.natOfDigits? digits with
  | none => false
  | some n => n < UInt64.size && n ≠ 0 && n ≤ arity

/-- Whether the text of a template can be read, and makes a primary from primaries and an enclosed
text from enclosed texts. -/
def check (d : Dialect) (arity : Nat) (text : List Char) : Bool :=
  isSound d (layout text) && isEnclosing d true (layout text) &&
    (layout text).all (Sum.elim (fun _ => true) (isInRange arity))

theorem exists_indexOf (text : String) {arity : Nat} {digits : List Char}
    (h : isInRange arity digits = true) : ∃ index, indexOf text arity digits = .ok index := by
  unfold isInRange at h
  unfold indexOf
  cases hn : Text.natOfDigits? digits with
  | none => simp [hn] at h
  | some n =>
    simp only [hn, Bool.and_eq_true, decide_eq_true_eq] at h
    obtain ⟨⟨hsize, hzero⟩, hle⟩ := h
    have hsmall : ¬ UInt64.size ≤ n := by omega
    have hrange : ¬ (n = 0 ∨ arity < n) := by omega
    exact ⟨n - 1, by simp only [if_neg hsmall, if_neg hrange]⟩

theorem exists_gather (text : String) {arity : Nat} {tokens : List Token}
    (h : ∀ digits, .inr digits ∈ tokens.map tokenItem → isInRange arity digits = true) :
    ∃ pieces, gather text arity tokens = .ok pieces := by
  induction tokens with
  | nil => exact ⟨[], rfl⟩
  | cons token tokens ih =>
    obtain ⟨pieces, hpieces⟩ := ih fun digits hdigits => h digits (List.mem_cons_of_mem _ hdigits)
    cases token with
    | char c => exact ⟨consChar c pieces, bind_eq_ok_iff.2 ⟨pieces, hpieces, rfl⟩⟩
    | reference digits =>
      obtain ⟨index, hindex⟩ := exists_indexOf text (h digits List.mem_cons_self)
      refine ⟨.inr index :: pieces, bind_eq_ok_iff.2 ⟨index, hindex, ?_⟩⟩
      exact bind_eq_ok_iff.2 ⟨pieces, hpieces, rfl⟩

end Template

namespace Registration

/-- Whether the template of a registration can be read, and makes a primary from primaries and an
enclosed text from enclosed texts. -/
def IsSound (d : Dialect) (r : Registration) : Prop :=
  Template.check d r.arity r.template.toList = true

theorem IsSound.exists_toRule {d : Dialect} {r : Registration} (h : r.IsSound d) :
    ∃ rule, r.toRule = .ok rule := by
  rw [IsSound, Template.check, Bool.and_eq_true, List.all_eq_true] at h
  have hrange : ∀ digits, .inr digits ∈ (Template.tokensFrom 0 r.template.toList).map
      Template.tokenItem → Template.isInRange r.arity digits = true :=
    fun digits hdigits => h.2 _ hdigits
  obtain ⟨pieces, hpieces⟩ := Template.exists_gather r.template hrange
  have hparse : Template.parse r.template r.arity = .ok ⟨pieces.map Template.pieceOf⟩ :=
    bind_eq_ok_iff.2 ⟨pieces, hpieces, rfl⟩
  exact ⟨_, by rw [toRule, hparse]⟩

/-- The template of a rule has the layout of that of its registration. -/
theorem items_of_toRule {r : Registration} {rule : Rule} (h : r.toRule = .ok rule) :
    ∃ index : List Char → Nat,
      rule.template.items = (Template.layout r.template.toList).map (Sum.map id index) := by
  unfold toRule at h
  split at h
  · rename_i template hparse
    cases h
    exact ⟨_, Template.items_of_parse hparse⟩
  · cases h

/-- A rule of a sound registration makes a primary from primaries. -/
theorem IsSound.isSound_template {d : Dialect} {r : Registration} {rule : Rule} (h : r.IsSound d)
    (hrule : r.toRule = .ok rule) : isSound d rule.template.items = true := by
  rw [IsSound, Template.check, Bool.and_eq_true, Bool.and_eq_true] at h
  obtain ⟨index, hitems⟩ := items_of_toRule hrule
  rw [hitems, Lexer.isSound_map]
  exact h.1.1

/-- A rule of a sound registration makes an enclosed text from enclosed texts. -/
theorem IsSound.isEnclosing_template {d : Dialect} {r : Registration} {rule : Rule}
    (h : r.IsSound d) (hrule : r.toRule = .ok rule) (commas : Bool) :
    isEnclosing d commas rule.template.items = true := by
  rw [IsSound, Template.check, Bool.and_eq_true, Bool.and_eq_true] at h
  obtain ⟨index, hitems⟩ := items_of_toRule hrule
  rw [hitems, Lexer.isEnclosing_map]
  exact Lexer.isEnclosing_of_commas h.1.2

variable (d : Dialect)

theorem isSound_unary (op : UnaryOp) (result operand : DataType) (template : String) :
    (unary op result operand template).IsSound d ↔ Template.check d 1 template.toList = true :=
  Iff.rfl

theorem isSound_binary (op : BinaryOp) (result left right : DataType) (template : String) :
    (binary op result left right template).IsSound d ↔
      Template.check d 2 template.toList = true :=
  Iff.rfl

theorem filterMap_type? (types : List DataType) :
    (types.map Parameter.type).filterMap Parameter.type? = types := by
  induction types with
  | nil => rfl
  | cons t types ih => simp [Parameter.type?, ih]

theorem isSound_func (name : String) (result : DataType) (args : List DataType)
    (template : String) :
    (func name result args template).IsSound d ↔
      Template.check d args.length template.toList = true := by
  have harity : (func name result args template).arity = args.length :=
    congrArg List.length (filterMap_type? args)
  rw [IsSound, harity]
  rfl

theorem isSound_meth (object : DataType) (name : String) (result : DataType)
    (args : List DataType) (template : String) :
    (meth object name result args template).IsSound d ↔
      Template.check d (args.length + 1) template.toList = true := by
  have harity : (meth object name result args template).arity = args.length + 1 :=
    congrArg (fun types => List.length types + 1) (filterMap_type? args)
  rw [IsSound, harity]
  rfl

theorem isSound_attr (object : DataType) (name : String) (result : DataType) (template : String) :
    (attr object name result template).IsSound d ↔ Template.check d 1 template.toList = true :=
  Iff.rfl

theorem isSound_aggregate (g : Aggregate) (result arg : DataType) (template : String) :
    (aggregate g result arg template).IsSound d ↔ Template.check d 1 template.toList = true :=
  Iff.rfl

end Registration

/-! ## The registrations of both dialects -/

namespace Builtin

open Registration (isSound_unary isSound_binary isSound_func isSound_meth isSound_attr
  isSound_aggregate)

theorem toList_a : a.toList = ['\x7b', '1', '\x7d'] := rfl

theorem toList_b : b.toList = ['\x7b', '2', '\x7d'] := rfl

theorem toList_c : c.toList = ['\x7b', '3', '\x7d'] := rfl

theorem toList_packaged (function : String) :
    (packaged function).toList = "vsqlimpl_pkg.".toList ++ function.toList ++ "(".toList ++
      a.toList ++ ", ".toList ++ b.toList ++ ")".toList := by
  unfold packaged
  simp only [String.toList_append]
  rfl

-- In each of the following proofs the simplifier lists the templates, the rewriting spells out
-- their literals, and the rest is left to evaluation.

theorem isSound_operators (d : Dialect) :
    (∀ r ∈ arithmetic, r.IsSound d) ∧
      (∀ r ∈ nullTests d, r.IsSound d) ∧
      (∀ r ∈ comparisons d, r.IsSound d) ∧
      (∀ r ∈ logic d, r.IsSound d) := by
  refine ⟨?_, ?_, ?_, ?_⟩
  · simp only [arithmetic, List.forall_mem_append, List.forall_mem_flatMap, List.forall_mem_cons,
      isSound_unary, isSound_binary, String.toList_append, toString, toList_a, toList_b,
      List.not_mem_nil, false_imp_iff, implies_true, and_true]
    repeat rw [String.toList_ofList]
    cases d <;> decide +kernel
  · simp only [nullTests, List.forall_mem_append, List.forall_mem_flatMap, List.forall_mem_cons,
      isSound_binary, String.toList_append, toString, toList_a, toList_b,
      List.not_mem_nil, false_imp_iff, implies_true, and_true]
    repeat rw [String.toList_ofList]
    refine ⟨?_, fun t _ => ?_⟩ <;> cases d <;> decide +kernel
  · simp only [comparisons, orderings, List.forall_mem_flatMap, List.forall_mem_map,
      List.forall_mem_cons, isSound_binary, String.toList_append, toString, toList_a, toList_b,
      List.not_mem_nil, false_imp_iff, implies_true, and_true]
    repeat rw [String.toList_ofList]
    intro t _
    cases d <;> decide +kernel
  · simp only [logic, List.forall_mem_append, List.forall_mem_flatMap, List.forall_mem_cons,
      isSound_unary, isSound_binary, isSound_func, List.length_cons, List.length_nil,
      String.toList_append, toString, toList_a, toList_b, List.not_mem_nil, false_imp_iff,
      implies_true, and_true]
    refine ⟨?_, fun t _ => ?_⟩
    · repeat rw [String.toList_ofList]
      cases d <;> decide +kernel
    · -- the condition depends on the type and for texts on the dialect too
      cases t <;> cases d <;> simp only [truthy, String.toList_append, toString, toList_a] <;>
        (repeat rw [String.toList_ofList]) <;> decide +kernel

theorem isSound_functions (d : Dialect) :
    (∀ r ∈ conversions, r.IsSound d) ∧
      (∀ r ∈ strings, r.IsSound d) ∧
      (∀ r ∈ aggregates d, r.IsSound d) := by
  refine ⟨?_, ?_, ?_⟩
  · simp only [conversions, List.forall_mem_cons, isSound_func, List.length_cons, List.length_nil,
      String.toList_append, toString, toList_a, List.not_mem_nil, false_imp_iff, implies_true,
      and_true]
    repeat rw [String.toList_ofList]
    cases d <;> decide +kernel
  · simp only [strings, List.forall_mem_append, List.forall_mem_flatMap, List.forall_mem_cons,
      isSound_func, isSound_meth, List.length_cons, List.length_nil, String.toList_append, toString,
      toList_a, toList_b, toList_c, List.not_mem_nil, false_imp_iff, implies_true, and_true]
    repeat rw [String.toList_ofList]
    cases d <;> decide +kernel
  · simp only [aggregates, List.forall_mem_append, List.forall_mem_flatMap, List.forall_mem_map,
      List.forall_mem_cons, isSound_aggregate, String.toList_append, toString, toList_a,
      List.not_mem_nil, false_imp_iff, implies_true, and_true]
    repeat rw [String.toList_ofList]
    refine ⟨⟨⟨?_, fun t _ => ?_⟩, fun t _ => ?_⟩, fun t _ => ?_⟩ <;> cases d <;> decide +kernel

theorem isSound_shared (d : Dialect) : ∀ r ∈ shared d, r.IsSound d := by
  simp only [shared, List.forall_mem_append]
  obtain ⟨harithmetic, hnullTests, hcomparisons, hlogic⟩ := isSound_operators d
  obtain ⟨hconversions, hstrings, haggregates⟩ := isSound_functions d
  exact ⟨⟨⟨⟨⟨⟨harithmetic, hnullTests⟩, hcomparisons⟩, hlogic⟩, hconversions⟩, hstrings⟩,
    haggregates⟩

theorem isSound_oracle : ∀ r ∈ oracle, r.IsSound .oracle := by
  simp only [oracle, orderings, toList_packaged, List.forall_mem_append, List.forall_mem_flatMap,
    List.forall_mem_map, List.forall_mem_cons, isSound_unary, isSound_binary, isSound_func,
    isSound_meth, isSound_attr, List.length_cons, List.length_nil, String.toList_append, toString,
    toList_a, toList_b, toList_c, List.not_mem_nil, false_imp_iff, implies_true, and_true]
  and_intros <;> (repeat rw [String.toList_ofList]) <;> decide +kernel

theorem isSound_postgres : ∀ r ∈ postgres, r.IsSound .postgres := by
  simp only [postgres, orderings, List.forall_mem_append, List.forall_mem_flatMap,
    List.forall_mem_map, List.forall_mem_cons, isSound_binary, isSound_func, isSound_meth,
    isSound_attr, List.length_cons, List.length_nil, String.toList_append, toString, toList_a,
    toList_b, toList_c, List.not_mem_nil, false_imp_iff, implies_true, and_true]
  and_intros <;> (repeat rw [String.toList_ofList]) <;> decide +kernel

end Builtin

theorem isSound_registrations (d : Dialect) : ∀ r ∈ registrations d, r.IsSound d := by
  intro r hr
  cases d with
  | oracle =>
    rcases List.mem_append.1 hr with hr | hr
    · exact Builtin.isSound_shared .oracle r hr
    · exact Builtin.isSound_oracle r hr
  | postgres =>
    rcases List.mem_append.1 hr with hr | hr
    · exact Builtin.isSound_shared .postgres r hr
    · exact Builtin.isSound_postgres r hr

/-! ## Both tables -/

/-- A rule without its template. -/
def Rule.bare (r : Rule) : Rule := { r with template := ⟨[]⟩ }

/-- The rule of a registration without its template. -/
def Registration.bare (r : Registration) : Rule := ⟨r.operator, r.result, r.signature, ⟨[]⟩⟩

theorem overloads_map_bare (rules : List Rule) (key : Operator × Option String) :
    overloads (rules.map Rule.bare) key = (overloads rules key).map Rule.bare := by
  rw [overloads, List.filter_map]
  rfl

/-- Templates do not matter for conflicts. -/
theorem firstConflict_map_bare {rules rest : List Rule} :
    firstConflict (rules.map Rule.bare) (rest.map Rule.bare) = none ↔
      firstConflict rules rest = none := by
  rw [firstConflict_eq_none_iff, firstConflict_eq_none_iff, List.pairwise_map]
  have hconflict : ∀ r s : Rule, conflict (overloads (rules.map Rule.bare) r.bare.key) r.bare s.bare
      = none ↔ conflict (overloads rules r.key) r s = none := by
    intro r s
    rw [conflict_eq_none_iff, conflict_eq_none_iff, overloads_map_bare]
    simp only [List.mem_map, exists_exists_and_eq_and]
    rfl
  simp only [hconflict]
  rfl

/-- The rules with the given operator. -/
def ofOperator (rules : List Rule) (op : Operator) : List Rule :=
  rules.filter fun r => r.operator = op

theorem overloads_ofOperator (rules : List Rule) (r : Rule) :
    overloads (ofOperator rules r.operator) r.key = overloads rules r.key := by
  rw [overloads, ofOperator, List.filter_filter]
  refine List.filter_congr fun s _ => ?_
  by_cases hkey : s.key = r.key
  · have hoperator : s.operator = r.operator := congrArg Prod.fst hkey
    simp [hkey, hoperator]
  · simp [hkey]

/-- Rules with different operators are never in conflict, so the operators can be looked at one by
one. -/
theorem firstConflict_of_operators {rules : List Rule}
    (h : ∀ op, firstConflict (ofOperator rules op) (ofOperator rules op) = none) :
    firstConflict rules rules = none := by
  rw [firstConflict_eq_none_iff, List.pairwise_iff_forall_sublist]
  intro r s hrs hkey
  have hoperator : s.operator = r.operator := congrArg Prod.fst hkey
  have hgroup : [r, s].Sublist (ofOperator rules r.operator) :=
    pair_sublist_filter hrs (decide_eq_true rfl) (decide_eq_true hoperator)
  have hpairs := firstConflict_eq_none_iff.1 (h r.operator)
  rw [← overloads_ofOperator]
  exact List.pairwise_iff_forall_sublist.1 hpairs hgroup hkey

/-- All operators. -/
def operators : List Operator :=
  UnaryOp.all.map .unary ++ BinaryOp.all.map .binary ++ Aggregate.all.map .aggregate ++
    [.func, .meth, .attr, .ifElse]

theorem mem_operators (op : Operator) : op ∈ operators := by
  cases op with
  | unary op => cases op <;> decide
  | binary op => cases op <;> decide
  | aggregate g => cases g <;> decide
  | _ => decide

theorem firstConflict_registrations (d : Dialect) (op : Operator) :
    firstConflict (ofOperator ((registrations d).map Registration.bare) op)
      (ofOperator ((registrations d).map Registration.bare) op) = none := by
  have hall : operators.all (fun op =>
      (firstConflict (ofOperator ((registrations d).map Registration.bare) op)
        (ofOperator ((registrations d).map Registration.bare) op)).isNone) = true := by
    cases d <;> decide +kernel
  exact Option.isNone_iff_eq_none.1 (List.all_eq_true.1 hall op (mem_operators op))

/-- A rule is that of its registration, apart from the template. -/
theorem Registration.bare_of_toRule {r : Registration} {rule : Rule} (h : r.toRule = .ok rule) :
    rule.bare = r.bare := by
  unfold toRule at h
  split at h
  · cases h
    rfl
  · cases h

theorem map_bare_of_mapM_toRule {registrations : List Registration} {rules : List Rule}
    (h : registrations.mapM Registration.toRule = .ok rules) :
    rules.map Rule.bare = registrations.map Registration.bare := by
  rw [mapM_eq_ok_iff] at h
  induction h with
  | nil => rfl
  | cons hrule _ ih => rw [List.map_cons, List.map_cons, Registration.bare_of_toRule hrule, ih]

theorem registry_eq_build (d : Dialect) : registry d = RuleTable.build d (registrations d) := by
  cases d <;> rfl

/-- The table of each dialect can be built. -/
theorem exists_registry (d : Dialect) : ∃ t, registry d = .ok t := by
  obtain ⟨rules, hrules⟩ : ∃ rules, (registrations d).mapM Registration.toRule = .ok rules :=
    exists_mapM_eq_ok fun r hr => (isSound_registrations d r hr).exists_toRule
  have hconflict : firstConflict rules rules = none := by
    rw [← firstConflict_map_bare, map_bare_of_mapM_toRule hrules]
    exact firstConflict_of_operators (firstConflict_registrations d)
  rw [registry_eq_build]
  exact ⟨_, bind_eq_ok_iff.2 ⟨rules, hrules, RuleTable.ofRules_eq_ok d hconflict⟩⟩

section Registry

variable {d : Dialect} {t : RuleTable}

/-- The rules of the table of a dialect are those of its registrations, in their order. -/
theorem rules_of_registry (ht : registry d = .ok t) :
    List.Forall₂ (fun (reg : Registration) rule => reg.toRule = .ok rule) (registrations d)
      t.rules ∧ t.dialect = d := by
  rw [registry_eq_build] at ht
  obtain ⟨hrules, hdialect⟩ := RuleTable.rules_of_build ht
  exact ⟨mapM_eq_ok_iff.1 hrules, hdialect⟩

theorem map_bare_of_registry (ht : registry d = .ok t) :
    t.rules.map Rule.bare = (registrations d).map Registration.bare :=
  map_bare_of_mapM_toRule (mapM_eq_ok_iff.2 (rules_of_registry ht).1)

/-- A call with operands of exactly the types of a registration resolves to its rule. -/
theorem exists_resolve_of_mem_registrations {reg : Registration} (ht : registry d = .ok t)
    (hreg : reg ∈ registrations d) :
    ∃ r, reg.toRule = .ok r ∧
      t.resolve reg.operator reg.bare.key.2 reg.bare.types = .ok (.rule r) := by
  obtain ⟨r, hr, hrule⟩ := exists_of_forall₂_of_mem (rules_of_registry ht).1 hreg
  have hbare : r.bare = reg.bare := Registration.bare_of_toRule hrule
  have hkey : r.bare.key = reg.bare.key := congrArg Rule.key hbare
  have htypes : r.bare.types = reg.bare.types := congrArg Rule.types hbare
  exact ⟨r, hrule,
    RuleTable.resolve_of_isNarrowest (RuleTable.isNarrowest_of_types_eq hr hkey htypes)⟩

/-- Every rule of the table of a dialect makes primaries from primaries. -/
theorem isSound_of_mem_registry {r : Rule} (ht : registry d = .ok t) (hr : r ∈ t.rules) :
    isSound d r.template.items = true := by
  obtain ⟨reg, hreg, hrule⟩ := exists_of_forall₂_of_mem (rules_of_registry ht).1.flip hr
  exact (isSound_registrations d reg hreg).isSound_template hrule

/-- Every rule of the table of a dialect makes enclosed texts from enclosed texts. -/
theorem isEnclosing_of_mem_registry {r : Rule} (ht : registry d = .ok t) (hr : r ∈ t.rules)
    (commas : Bool) : isEnclosing d commas r.template.items = true := by
  obtain ⟨reg, hreg, hrule⟩ := exists_of_forall₂_of_mem (rules_of_registry ht).1.flip hr
  exact (isSound_registrations d reg hreg).isEnclosing_template hrule commas

end Registry

end TypedSql
