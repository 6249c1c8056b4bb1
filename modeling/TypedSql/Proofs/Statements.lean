import TypedSql.Proofs.Binding
import TypedSql.Proofs.Builtins
import TypedSql.Proofs.JoinedTables

/-!
# When a query has a statement

A query stores only what has been checked and joined, and the templates of its rules refer only to
operands that are there. So nothing can go wrong when the statement is generated, except that no
rule says when a value of the type of a condition is true.
-/

namespace TypedSql

/-! ## References in range -/

/-- Whether the templates of all rules refer to operands only. -/
def RuleTable.InRange (t : RuleTable) : Prop := ∀ r ∈ t.rules, r.template.InRange r.types.length

theorem RuleTable.inRange_of_build {d : Dialect} {registrations : List Registration}
    {t : RuleTable} (h : build d registrations = .ok t) : t.InRange := by
  intro r hr
  have hrules := mapM_eq_ok_iff.1 (rules_of_build h).1
  obtain ⟨registration, -, hrule⟩ := exists_of_forall₂_of_mem hrules.flip hr
  unfold Registration.toRule at hrule
  split at hrule
  · rename_i template hparse
    cases hrule
    exact Template.inRange_of_parse hparse
  · cases hrule

theorem inRange_of_registry {d : Dialect} {t : RuleTable} (h : registry d = .ok t) :
    t.InRange := by
  rw [registry_eq_build] at h
  exact RuleTable.inRange_of_build h

/-- A truth template refers to its one operand. -/
theorem RuleTable.InRange.truth {t : RuleTable} (ht : t.InRange) {type : DataType}
    {truth : Template} (h : t.truth type = .ok (some truth)) : truth.InRange 1 := by
  unfold RuleTable.truth at h
  split at h
  · cases h
    intro k hk
    simp only [Template.items, Template.pieceItems, List.flatMap_cons, List.flatMap_nil,
      List.append_nil, List.mem_singleton, Sum.inr.injEq] at hk
    omega
  · split at h
    · rename_i r hresolve
      cases h
      have hlength := length_types_of_resolve hresolve
      have hrange := ht r (mem_rules_of_resolve hresolve)
      rwa [hlength] at hrange
    · cases h
    · cases h

/-- The template of a conditional refers to its three operands. -/
theorem inRange_conditionalTemplate {truth : Template} (h : truth.InRange 1) :
    (conditionalTemplate truth).InRange 3 := by
  intro k hk
  rw [items_conditionalTemplate, Template.items_remap] at hk
  simp only [List.mem_append, List.mem_map, List.mem_cons, reduceCtorEq, and_false, exists_false,
    false_or, or_false, Sum.inr.injEq] at hk
  rcases hk with ⟨item, hitem, hk⟩ | hk | hk
  · cases item with
    | inl c => cases hk
    | inr j =>
      have hj := h j hitem
      obtain rfl : j = 0 := by omega
      cases hk
      decide
  · omega
  · omega

/-- The rule that a layer resolves to refers to the operands of the layer. -/
theorem Context.Resolves.inRange {ctx : Context} {children : List Checked} {r : Rule}
    {level : Level} {e : Expr Unit} (h : ctx.Resolves children r level e)
    (ht : ctx.rules.InRange) : r.template.InRange children.length := by
  have hlength : (Checked.operandTypes children).length ≤ children.length :=
    List.length_filterMap_le _ _
  have hcall : ∀ {operator : Operator} {name : Option String},
      ctx.rules.resolve operator name (Checked.operandTypes children) = .ok (.rule r) →
      r.template.InRange children.length := by
    intro operator name hresolve k hk
    have hk := ht r (RuleTable.mem_rules_of_resolve hresolve) k hk
    rw [RuleTable.length_types_of_resolve hresolve] at hk
    omega
  cases e with
  | const v => cases h
  | field path => cases h
  | ifElse a p b =>
    obtain ⟨-, value, condition, other, result, truth, htypes, htruth, -, rfl⟩ := h
    intro k hk
    have hk := inRange_conditionalTemplate (ht.truth htruth) k hk
    rw [htypes, List.length_cons, List.length_cons, List.length_singleton] at hlength
    omega
  | aggregate g args => exact hcall h.2.2
  | _ => exact hcall h.2

/-! ## Stored expressions have SQL -/

namespace Context

variable {ctx : Context} {aliases : Aliases} {n : Node} {c : Checked}

/-- A field that exists lacks SQL only if the path before its last dot has not been joined. -/
theorem fieldSql_eq_error {path : String} {f : Field} {fault : Fault}
    (hf : ctx.schema.resolve? path = some f) (h : ctx.fieldSql aliases path = .error fault) :
    ∃ parent identifier, Path.splitLast? path = some (parent, identifier) ∧
      parent ∉ aliases.paths ∧ fault = .unjoinedField path := by
  unfold fieldSql emitField at h
  rw [hf] at h
  cases hsplit : Path.splitLast? path with
  | none =>
    rw [hsplit] at h
    cases h
  | some split =>
    obtain ⟨parent, identifier⟩ := split
    cases hlookup : aliases.lookup parent with
    | some a =>
      simp only [hsplit, hlookup] at h
      cases h
    | none =>
      simp only [hsplit, hlookup] at h
      cases h
      refine ⟨parent, identifier, rfl, ?_, rfl⟩
      rw [Aliases.mem_paths_iff, hlookup]
      rintro ⟨a, ha⟩
      cases ha

/-- A valid expression lacks SQL only for one of its dotted fields, whose parent has not been
joined. -/
theorem inlineSql_eq_error {fault : Fault} (hrules : ctx.rules.InRange) (h : ctx.check n = .ok c)
    (hv : c.isValid = true) (hsql : ctx.inlineSql aliases n c = .error fault) :
    ∃ m ∈ n.preorder, ∃ path parent identifier, m.expr = .field path ∧
      Path.splitLast? path = some (parent, identifier) ∧ parent ∉ aliases.paths ∧
      fault = .unjoinedField path := by
  induction n using Node.induction generalizing c with
  | step n ih =>
    rcases judge_of_isValid (judge_of_check h) hv with ⟨v, hn, -⟩ | ⟨path, f, hn, hf, -⟩ |
      ⟨r, level, hc, hresolves⟩
    · rw [ctx.inlineSql_const aliases hn] at hsql
      cases hsql
    · rw [ctx.inlineSql_field aliases hn] at hsql
      obtain ⟨parent, identifier, hunjoined⟩ := fieldSql_eq_error hf hsql
      exact ⟨n, n.mem_preorder_self, path, parent, identifier, hn, hunjoined⟩
    · have hconst : ∀ v, n.expr ≠ .const v := by
        intro v hn
        rw [hn] at hresolves
        cases hresolves
      have hfield : ∀ path, n.expr ≠ .field path := by
        intro path hn
        rw [hn] at hresolves
        cases hresolves
      have hrule : c.rule? = some r := by rw [hc]; rfl
      rw [ctx.inlineSql_of_rule aliases hconst hfield, ruleSql, hrule] at hsql
      obtain ⟨k, hk, hoperand⟩ := Template.fill_eq_error hsql
      -- the rule refers to an operand that is there, so the fault is that of an operand
      have hlt : k < c.children.length := hresolves.inRange hrules k hk
      obtain ⟨m, hm, hcheck⟩ := exists_getElem?_of_forall₂ (check_children h).flip
        (List.getElem?_eq_getElem hlt)
      have hsome : (List.zipWith (ctx.inlineSql aliases) n.children c.children)[k]? =
          some (ctx.inlineSql aliases m c.children[k]) :=
        List.getElem?_zipWith_eq_some.2 ⟨m, _, hm, List.getElem?_eq_getElem hlt, rfl⟩
      rw [hsome] at hoperand
      have herror : ctx.inlineSql aliases m c.children[k] = .error fault := by
        simpa using hoperand
      have hchild : m ∈ n.children := List.mem_of_getElem? hm
      have hvalid := isValid_children h hv _ (List.getElem_mem hlt)
      obtain ⟨leaf, hleaf, hunjoined⟩ := ih m hchild hcheck hvalid herror
      exact ⟨leaf, Node.mem_preorder_iff.2 (Or.inr ⟨m, hchild, hleaf⟩), hunjoined⟩

/-- A valid expression whose fields have been joined has SQL. -/
theorem exists_inlineSql (hrules : ctx.rules.InRange) (h : ctx.check n = .ok c)
    (hv : c.isValid = true) (hjoined : ∀ parent ∈ n.fieldParents, parent ∈ aliases.paths) :
    ∃ sql, ctx.inlineSql aliases n c = .ok sql := by
  cases hsql : ctx.inlineSql aliases n c with
  | ok sql => exact ⟨sql, rfl⟩
  | error fault =>
    obtain ⟨m, hm, path, parent, identifier, hfield, hsplit, hparent, -⟩ :=
      inlineSql_eq_error hrules h hv hsql
    have hmem : parent ∈ n.fieldParents :=
      Node.mem_fieldParents_iff.2 ⟨m, hm, path, identifier, hfield, hsplit⟩
    exact absurd (hjoined parent hmem) hparent

theorem exists_emitValue (hliterals : ctx.literals = .inline) (hv : c.isValid = true)
    (hsql : ∃ sql, ctx.inlineSql aliases n c = .ok sql) :
    ∃ sql, ctx.emitValue aliases n c = Emit.inline (.ok sql) := by
  obtain ⟨sql, hsql⟩ := hsql
  refine ⟨sql, ?_⟩
  rw [emitValue, ensureValid, if_pos hv, hliterals, emit_inline, hsql]
  rfl

theorem exists_emitKey (hv : c.isValid = true)
    (hsql : ∃ sql, ctx.inlineSql aliases n c = .ok sql) :
    ∃ sql, ctx.emitKey aliases n c = Emit.inline (.ok sql) := by
  obtain ⟨sql, hsql⟩ := hsql
  refine ⟨sql, ?_⟩
  rw [emitKey, ensureValid, if_pos hv, emit_inline, hsql]
  rfl

theorem emitCondition_of_truthOf {truth : Template} (hv : c.isValid = true)
    (htruth : ctx.truthOf c = .ok (some truth)) :
    ctx.emitCondition aliases n c = do
      let sql ← truth.expand [ctx.emit aliases n c ctx.literals]
      return sql ++ " = 1" := by
  rw [emitCondition, ensureValid, if_pos hv, htruth]
  rfl

/-- A valid expression with SQL is a condition if there is a template that says when it is true. -/
theorem exists_emitCondition {truth : Template} (hliterals : ctx.literals = .inline)
    (hrules : ctx.rules.InRange) (hv : c.isValid = true)
    (htruth : ctx.truthOf c = .ok (some truth))
    (hsql : ∃ sql, ctx.inlineSql aliases n c = .ok sql) :
    ∃ sql, ctx.emitCondition aliases n c = Emit.inline (.ok sql) := by
  obtain ⟨sql, hsql⟩ := hsql
  obtain ⟨t, ht⟩ := Checked.exists_dataType? hv
  have htype : ctx.rules.truth t = .ok (some truth) := by rwa [truthOf, ht] at htruth
  have hoperand : ∀ k, .inr k ∈ truth.items →
      ∃ text, [ctx.inlineSql aliases n c][k]? = some (.ok text) := by
    intro k hk
    have hk := hrules.truth htype k hk
    obtain rfl : k = 0 := by omega
    exact ⟨sql, congrArg some hsql⟩
  obtain ⟨text, htext⟩ := Template.exists_fill hoperand
  have hexpand := truth.expand_inline [ctx.inlineSql aliases n c]
  rw [List.map_singleton, ← emit_inline, htext] at hexpand
  refine ⟨text ++ " = 1", ?_⟩
  rw [emitCondition_of_truthOf hv htruth, hliterals, hexpand]
  rfl

end Context

/-- Whether an entry is an expression of a type for which no rule says when its values are true. -/
def Entry.LacksTruth (rules : RuleTable) : Entry → Prop
  | expr _ c => ∃ t, c.dataType? = some t ∧ rules.truth t = .ok none
  | sql _ => False

theorem Entry.exists_first_lacksTruth {rules : RuleTable} {entries : List Entry}
    (h : ∃ e ∈ entries, e.LacksTruth rules) :
    ∃ before n c t after, entries = before ++ .expr n c :: after ∧
      (∀ e ∈ before, ¬ e.LacksTruth rules) ∧ c.dataType? = some t ∧
      rules.truth t = .ok none := by
  induction entries with
  | nil => simp at h
  | cons first entries ih =>
    by_cases hfirst : first.LacksTruth rules
    · cases first with
      | sql text => exact hfirst.elim
      | expr n c =>
        obtain ⟨t, ht, htruth⟩ := hfirst
        exact ⟨[], n, c, t, entries, rfl, by simp, ht, htruth⟩
    · have hrest : ∃ e ∈ entries, e.LacksTruth rules := by simpa [hfirst] using h
      obtain ⟨before, n, c, t, after, rfl, hbefore, ht, htruth⟩ := ih hrest
      refine ⟨first :: before, n, c, t, after, rfl, ?_, ht, htruth⟩
      simpa [hfirst] using hbefore

namespace Query

variable {q : Query}

/-- A condition that may be stored has SQL, unless no rule says when it is true. -/
theorem exists_conditionSql (hliterals : q.context.literals = .inline)
    (hrules : q.context.rules.InRange) {e : Entry} (he : e.IsStorable q.context q.aliases)
    (htruth : ¬ e.LacksTruth q.context.rules) : ∃ sql, q.conditionSql e = .ok sql := by
  cases e with
  | sql text => exact ⟨text, rfl⟩
  | expr n c =>
    obtain ⟨⟨hcheck, hv⟩, hjoined⟩ := he
    obtain ⟨t, ht⟩ := Checked.exists_dataType? hv
    obtain ⟨truth, htemplate⟩ := q.context.rules.exists_truth t
    obtain ⟨sql, hsql⟩ := Context.exists_inlineSql hrules hcheck hv hjoined
    cases truth with
    | none => exact absurd ⟨t, ht, htemplate⟩ htruth
    | some truth =>
      have htruthOf : q.context.truthOf c = .ok (some truth) := by
        rw [Context.truthOf, ht]
        exact htemplate
      obtain ⟨text, htext⟩ :=
        Context.exists_emitCondition hliterals hrules hv htruthOf ⟨sql, hsql⟩
      exact ⟨text, by rw [conditionSql, Entry.emitWith, htext, Emit.result_inline]⟩

/-- A condition for which no rule says when it is true is refused. -/
theorem conditionSql_of_lacksTruth {n : Node} {c : Checked} {t : DataType} (hv : c.isValid = true)
    (ht : c.dataType? = some t) (htruth : q.context.rules.truth t = .ok none) :
    q.conditionSql (.expr n c) = .error (.unresolved [Report.ofNode n (n.operandTypes [t])]) := by
  rw [conditionSql, Entry.emitWith, Context.emitCondition, Context.ensureValid, if_pos hv,
    Context.truthOf, ht]
  simp only [htruth]
  rfl

/-- An entry that may be stored is written without fault, if every valid expression with SQL is. -/
theorem exists_emitWith {emit : Node → Checked → Emit String} (hrules : q.context.rules.InRange)
    (hemit : ∀ {n c}, c.isValid = true → (∃ sql, q.context.inlineSql q.aliases n c = .ok sql) →
      ∃ sql, emit n c = Emit.inline (.ok sql))
    {e : Entry} (he : e.IsStorable q.context q.aliases) :
    ∃ sql, e.emitWith emit = Emit.inline (.ok sql) := by
  cases e with
  | sql text => exact ⟨text, rfl⟩
  | expr n c =>
    obtain ⟨⟨hcheck, hv⟩, hjoined⟩ := he
    exact hemit hv (Context.exists_inlineSql hrules hcheck hv hjoined)

section Clauses

variable (hliterals : q.context.literals = .inline) (hrules : q.context.rules.InRange)
  (hentries : ∀ e ∈ q.entries, e.IsStorable q.context q.aliases)

include hliterals hrules hentries

theorem exists_selectLines :
    ∃ items, q.select.mapM (fun item => (q.emitSelect item).result) = .ok items := by
  refine exists_mapM_eq_ok fun item hitem => ?_
  have he := hentries item.entry (mem_entries_iff.2 (Or.inl ⟨item, hitem, rfl⟩))
  obtain ⟨sql, hsql⟩ := exists_emitWith hrules (Context.exists_emitValue hliterals) he
  rw [emitSelect, hsql]
  exact ⟨_, rfl⟩

omit hliterals in
theorem exists_groupByLines :
    ∃ keys, q.groupBy.mapM (fun e => (q.emitGroupBy e).result) = .ok keys := by
  refine exists_mapM_eq_ok fun e he => ?_
  have he := hentries e (mem_entries_iff.2 (Or.inr (Or.inr (Or.inl he))))
  obtain ⟨sql, hsql⟩ := exists_emitWith hrules Context.exists_emitKey he
  rw [emitGroupBy, hsql]
  exact ⟨_, rfl⟩

theorem exists_orderLines :
    ∃ order, q.orderBy.mapM (fun item => (q.emitOrder item).result) = .ok order := by
  refine exists_mapM_eq_ok fun item hitem => ?_
  have he := hentries item.entry (mem_entries_iff.2 (Or.inr (Or.inr (Or.inr ⟨item, hitem, rfl⟩))))
  obtain ⟨sql, hsql⟩ := exists_emitWith hrules (Context.exists_emitValue hliterals) he
  rw [emitOrder, hsql]
  exact ⟨_, rfl⟩

/-- A query has a statement if a rule says for each condition when it is true. -/
theorem exists_statement (htruth : ∀ e ∈ q.conditions, ¬ e.LacksTruth q.context.rules) :
    ∃ f, q.statement = .ok f := by
  obtain ⟨items, hitems⟩ := exists_selectLines hliterals hrules hentries
  obtain ⟨keys, hkeys⟩ := exists_groupByLines hrules hentries
  obtain ⟨order, horder⟩ := exists_orderLines hliterals hrules hentries
  obtain ⟨sqls, hsqls⟩ : ∃ sqls, q.conditions.mapM q.conditionSql = .ok sqls := by
    refine exists_mapM_eq_ok fun e he => ?_
    have hstorable := hentries e (mem_entries_iff.2 (Or.inr (Or.inl he)))
    exact exists_conditionSql hliterals hrules hstorable (htruth e he)
  exact ⟨_, (statement_eq_ok_iff hliterals).2 ⟨items, sqls, keys, order, hitems, hsqls, hkeys,
    horder, rfl⟩⟩

/-- The first condition without such a rule decides why there is no statement. -/
theorem statement_eq_error {before after : List Entry} {n : Node} {c : Checked} {t : DataType}
    (hconditions : q.conditions = before ++ .expr n c :: after)
    (hbefore : ∀ e ∈ before, ¬ e.LacksTruth q.context.rules) (ht : c.dataType? = some t)
    (htruth : q.context.rules.truth t = .ok none) :
    q.statement = .error (.unresolved [Report.ofNode n (n.operandTypes [t])]) := by
  have hstorable : ∀ e ∈ q.conditions, e.IsStorable q.context q.aliases :=
    fun e he => hentries e (mem_entries_iff.2 (Or.inr (Or.inl he)))
  obtain ⟨⟨-, hv⟩, -⟩ := hstorable (.expr n c) (by simp [hconditions])
  obtain ⟨items, hitems⟩ := exists_selectLines hliterals hrules hentries
  have hsqls : q.conditions.mapM q.conditionSql =
      .error (.unresolved [Report.ofNode n (n.operandTypes [t])]) := by
    rw [hconditions]
    refine mapM_eq_error (fun e he => ?_) (conditionSql_of_lacksTruth hv ht htruth)
    have hmem : e ∈ q.conditions := by simp [hconditions, he]
    exact exists_conditionSql hliterals hrules (hstorable e hmem) (hbefore e he)
  rw [statement_eq hliterals, hitems, hsqls]
  rfl

/-- Generating a statement is refused if and only if no rule says when some condition is true. -/
theorem statement_eq_error_iff {fault : Fault} :
    q.statement = .error fault ↔ ∃ before n c t after,
      q.conditions = before ++ .expr n c :: after ∧
      (∀ e ∈ before, ¬ e.LacksTruth q.context.rules) ∧ c.dataType? = some t ∧
      q.context.rules.truth t = .ok none ∧
      fault = .unresolved [Report.ofNode n (n.operandTypes [t])] := by
  constructor
  · intro hfault
    have hlacks : ∃ e ∈ q.conditions, e.LacksTruth q.context.rules := by
      by_contra hall
      have htruth : ∀ e ∈ q.conditions, ¬ e.LacksTruth q.context.rules :=
        fun e he hlacks => hall ⟨e, he, hlacks⟩
      obtain ⟨f, hf⟩ := exists_statement hliterals hrules hentries htruth
      cases hf.symm.trans hfault
    obtain ⟨before, n, c, t, after, hconditions, hbefore, ht, htruth⟩ :=
      Entry.exists_first_lacksTruth hlacks
    have herror := statement_eq_error hliterals hrules hentries hconditions hbefore ht htruth
    exact ⟨before, n, c, t, after, hconditions, hbefore, ht, htruth,
      Except.error.inj (hfault.symm.trans herror)⟩
  · rintro ⟨before, n, c, t, after, hconditions, hbefore, ht, htruth, rfl⟩
    exact statement_eq_error hliterals hrules hentries hconditions hbefore ht htruth

end Clauses

end Query

theorem SameButLiterals.error_iff {d : Dialect} {inline bound : Except Fault Fragment}
    (h : SameButLiterals d inline bound) {fault : Fault} :
    inline = .error fault ↔ bound = .error fault := by
  cases inline with
  | error f =>
    cases bound with
    | error f' =>
      obtain rfl : f = f' := h
      rfl
    | ok f' => exact h.elim
  | ok f =>
    cases bound with
    | error f' => exact h.elim
    | ok f' => simp

/-! ## Which values can be true -/

/-- For every type, Oracle has a rule that says when a value is true. -/
theorem exists_oracle_bool (type : DataType) :
    ∃ reg ∈ registrations .oracle, reg.operator = .func ∧
      reg.signature = [.name "bool", .type type] := by
  have hany : (registrations .oracle).any (fun reg => reg.operator = .func ∧
      reg.signature = [.name "bool", .type type]) = true := by
    cases type <;> decide +kernel
  simpa using hany

theorem oracle_truth {rules : RuleTable} (hrules : registry .oracle = .ok rules)
    (type : DataType) : ∃ truth, rules.truth type = .ok (some truth) := by
  unfold RuleTable.truth
  split
  · exact ⟨_, rfl⟩
  · obtain ⟨reg, hreg, hoperator, hsignature⟩ := exists_oracle_bool type
    obtain ⟨r, -, hresolve⟩ := exists_resolve_of_mem_registrations hrules hreg
    have hname : reg.bare.key.2 = some "bool" := by
      rw [Registration.bare, Rule.key, Rule.name, hsignature]
      rfl
    have htypes : reg.bare.types = [type] := by
      rw [Registration.bare, Rule.types, hsignature]
      rfl
    rw [hoperator, hname, htypes] at hresolve
    rw [hresolve]
    exact ⟨_, rfl⟩

/-- Postgres has no rule that says when a duration of seconds is true. -/
theorem postgres_truth_dateTimeDelta {rules : RuleTable} (hrules : registry .postgres = .ok rules) :
    rules.truth .dateTimeDelta = .ok none := by
  have hall : ((registrations .postgres).map Registration.bare).all (fun r =>
      !(r.key = (.func, some "bool") && r.accepts [.dateTimeDelta])) = true := by
    decide +kernel
  have hnone : ¬ ∃ r, r ∈ rules.accepting .func (some "bool") [.dateTimeDelta] := by
    rintro ⟨r, hr⟩
    obtain ⟨hmem, hkey, htypes⟩ := RuleTable.mem_accepting.1 hr
    rw [← map_bare_of_registry hrules] at hall
    have hbare := List.all_eq_true.1 hall r.bare (List.mem_map_of_mem hmem)
    have hbareKey : r.bare.key = (.func, some "bool") := hkey
    have haccepts : r.bare.accepts [.dateTimeDelta] = true := widenAll_iff.2 htypes
    simp [hbareKey, haccepts] at hbare
  rw [RuleTable.truth, if_neg (by decide), RuleTable.resolve_of_accepting_eq_nil hnone]
  split
  · rename_i heq
    split at heq <;> cases heq
  · rfl
  · rename_i heq
    cases heq

/-! ## Whole runs -/

namespace Query

/-- Whatever way literals are written, a statement is refused only for a condition. -/
theorem statement_run_eq_error_iff {rules : RuleTable} (hrules : rules.InRange) (schema : Schema)
    (literals : LiteralMode) (mode : SelectMode) (comment : Option String) (steps : List Step)
    (fault : Fault) :
    let q := run { context := ⟨schema, rules, literals⟩, mode, comment } steps
    q.statement = .error fault ↔ ∃ before n c t after,
      q.conditions = before ++ .expr n c :: after ∧ (∀ e ∈ before, ¬ e.LacksTruth rules) ∧
      c.dataType? = some t ∧ rules.truth t = .ok none ∧
      fault = .unresolved [Report.ofNode n (n.operandTypes [t])] := by
  intro q
  -- the same query with literals inline has the same parts and is refused for the same reason
  let start : Query := { context := ⟨schema, rules, .inline⟩, mode, comment }
  have hq : q = (start.run steps).withLiterals literals := start.run_withLiterals literals steps
  have hinline : start.run steps = (start.run steps).withLiterals .inline :=
    start.run_withLiterals .inline steps
  have hconditions : q.conditions = (start.run steps).conditions := by rw [hq]; rfl
  have hsame := (start.run steps).statement_sameButLiterals literals
  rw [← hinline, ← hq] at hsame
  have hjoined := (Joined.empty ⟨schema, rules, .inline⟩ mode comment).run steps
  have hcontext : (start.run steps).context = ⟨schema, rules, .inline⟩ := hjoined.context
  have hliterals : (start.run steps).context.literals = .inline := by rw [hcontext]
  have hrange : (start.run steps).context.rules.InRange := by rwa [hcontext]
  have hentries : ∀ e ∈ (start.run steps).entries,
      e.IsStorable (start.run steps).context (start.run steps).aliases := by
    rw [hcontext]
    exact hjoined.entries
  rw [← hsame.error_iff, statement_eq_error_iff hliterals hrange hentries, hconditions, hcontext]

/-- After any steps on an empty query of any mode, with rules that were built from registrations,
generating the statement is refused if and only if no rule says when some condition is true. The
first such condition is then reported, and nothing else ever goes wrong. With the rules of Oracle
there is always a statement. -/
theorem run_statement_eq_error_iff {d : Dialect} {registrations : List Registration}
    {rules : RuleTable} (hbuild : RuleTable.build d registrations = .ok rules) (schema : Schema)
    (literals : LiteralMode) (mode : SelectMode) (comment : Option String) (steps : List Step) :
    let q := run { context := ⟨schema, rules, literals⟩, mode, comment } steps
    ((∃ fault, q.statement = .error fault) ↔ ∃ e ∈ q.conditions, e.LacksTruth rules) ∧
    (∀ fault, q.statement = .error fault ↔ ∃ before n c t after,
      q.conditions = before ++ .expr n c :: after ∧ (∀ e ∈ before, ¬ e.LacksTruth rules) ∧
      c.dataType? = some t ∧ rules.truth t = .ok none ∧
      fault = .unresolved [Report.ofNode n (n.operandTypes [t])]) ∧
    (registry .oracle = .ok rules → ∃ f, q.statement = .ok f) := by
  intro q
  have hrules : rules.InRange := RuleTable.inRange_of_build hbuild
  have hfault := statement_run_eq_error_iff hrules schema literals mode comment steps
  refine ⟨⟨?_, ?_⟩, hfault, fun horacle => ?_⟩
  · rintro ⟨fault, h⟩
    obtain ⟨before, n, c, t, after, hsplit, -, ht, htruth, -⟩ := (hfault fault).1 h
    exact ⟨.expr n c, by simp [q, hsplit], t, ht, htruth⟩
  · intro h
    obtain ⟨before, n, c, t, after, hsplit, hbefore, ht, htruth⟩ :=
      Entry.exists_first_lacksTruth h
    exact ⟨_, (hfault _).2 ⟨before, n, c, t, after, hsplit, hbefore, ht, htruth, rfl⟩⟩
  · cases hstatement : q.statement with
    | ok f => exact ⟨f, rfl⟩
    | error fault =>
      obtain ⟨before, n, c, t, after, -, -, -, hnone, -⟩ := (hfault fault).1 hstatement
      obtain ⟨truth, hsome⟩ := oracle_truth horacle t
      cases hnone.symm.trans hsome

/-- How the field `dept` refers to a table with the duration `span`. -/
def spanReference : Reference Field :=
  ⟨"dept_id = \x7bd\x7d.id", ⟨some "dept", [⟨"span", .dateTimeDelta, none, none⟩]⟩⟩

/-- A schema with the field `dept`. -/
def spanSchema : Schema := ⟨[⟨"dept", .int, none, some spanReference⟩]⟩

/-- The field `dept.span`. -/
def deptSpan : Node := .ofExpr (.field "dept.span")

/-- Whatever the rules, the field `dept.span` is accepted as a condition, and its table is
joined. -/
theorem apply_whereExpr_deptSpan (rules : RuleTable) :
    let q : Query :=
      { context := ⟨spanSchema, rules, .bind⟩, mode := .rows, conditions := [.sql "a > b"] }
    q.apply (.whereExpr deptSpan) = .done { q with
      conditions := [.sql "a > b", .sql "dept_id = t1.id",
        .expr deptSpan ⟨.leaf .dateTimeDelta, .row, []⟩]
      tables := [⟨"dept", some "t1"⟩]
      aliases := [("dept", some "t1")] } := by
  intro q
  have hcheck : q.context.checkRows deptSpan deptSpan.aggregateCondition =
      .ok ⟨.leaf .dateTimeDelta, .row, []⟩ := rfl
  have hlast : q.joinLast "dept" = .done (q.addJoin "dept" spanReference) := rfl
  have hjoin : q.joinFields deptSpan = .done (q.addJoin "dept" spanReference) := by
    have hparents : deptSpan.fieldParents = ["dept"] := rfl
    have hprefixes : ["dept"].flatMap Path.prefixes = ["dept"] := rfl
    rw [joinFields, hparents, joinPaths_eq, hprefixes, joinEach_singleton, hlast]
  have hnext : q.nextAlias = "t1" := by
    have hlength : q.tables.length + 1 = 1 := rfl
    rw [nextAlias, hlength]
    rfl
  have hcondition : q.joinCondition "dept" spanReference = [.sql "dept_id = t1.id"] := by
    have hparent : q.parentAlias "dept" = none := rfl
    have htext : spanReference.condition none "t1" = "dept_id = t1.id" := rfl
    simp only [joinCondition, hnext, hparent, htext]
    rfl
  rw [apply, whereExpr, hcheck, tryWith, hjoin, addJoin_eq, hcondition, hnext]
  rfl

/-- With the rules of Postgres, the statement of a query about rows with the condition `dept.span`
is refused, as a duration of seconds is neither true nor false. -/
theorem run_statement_eq_error_iff_span :
    ∃ rules, registry .postgres = .ok rules ∧
      let q := run { context := ⟨spanSchema, rules, .bind⟩, mode := .rows }
        [.whereSql "a > b", .whereExpr deptSpan]
      q.aliases = [("dept", some "t1")] ∧
        q.statement = .error
          (.unresolved [Report.ofNode deptSpan (deptSpan.operandTypes [.dateTimeDelta])]) := by
  obtain ⟨rules, hrules⟩ := exists_registry .postgres
  have hbuild : RuleTable.build .postgres (registrations .postgres) = .ok rules := hrules
  have hstep := congrArg Outcome.query (apply_whereExpr_deptSpan rules)
  have hconditions : ∀ e ∈ [Entry.sql "a > b", .sql "dept_id = t1.id"], ¬ e.LacksTruth rules := by
    simp [Entry.LacksTruth]
  refine ⟨rules, hrules, congrArg aliases hstep, ?_⟩
  exact ((run_statement_eq_error_iff hbuild spanSchema .bind .rows none _).2.1 _).2
    ⟨[.sql "a > b", .sql "dept_id = t1.id"], deptSpan, ⟨.leaf .dateTimeDelta, .row, []⟩,
      .dateTimeDelta, [], congrArg conditions hstep, hconditions, rfl,
      postgres_truth_dateTimeDelta hrules, rfl⟩

end Query

end TypedSql
