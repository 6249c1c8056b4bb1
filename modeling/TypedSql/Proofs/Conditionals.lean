import TypedSql.Proofs.Statements

/-!
# When a conditional is true

A conditional and a where clause take the same values to be true. The one splices the truth template
of its condition into a template of its own when it is checked, and the other expands the truth
template when its SQL is generated. The SQL of a conditional is nevertheless that of its condition,
its value and its alternative, generated one after the other in this order.
-/

namespace TypedSql

/-! ## Templates with other operands -/

namespace Template

theorem expandPieces_append (t : Template) (operands : List (Emit String))
    (before after : List Piece) :
    t.expandPieces operands (before ++ after) = do
      let first ← t.expandPieces operands before
      let rest ← t.expandPieces operands after
      return first ++ rest := by
  induction before with
  | nil =>
    rw [List.nil_append, expandPieces, pure_bind]
    simp only [String.empty_append, bind_pure]
  | cons piece before ih =>
    rw [List.cons_append, expandPieces, expandPieces, ih]
    simp only [bind_assoc, pure_bind, String.append_assoc]

theorem InRange.lt_of_mem {t : Template} {arity k : Nat} (h : t.InRange arity)
    (hk : .child k ∈ t.pieces) : k < arity :=
  h k (List.mem_flatMap.2 ⟨.child k, hk, List.mem_singleton.2 rfl⟩)

/-- The pieces of a template can be spliced into another template `s`, if their references are sent
to where the operands are found there. -/
theorem expandPieces_remap (s t : Template) (mapping : List Nat)
    (operands others : List (Emit String))
    (h : ∀ k, .child k ∈ t.pieces →
      ∃ e, operands[k]? = some e ∧ others[mapping.getD k k]? = some e) :
    s.expandPieces others (t.remap mapping).pieces = t.expand operands := by
  rw [expand, remap]
  -- `t` stays what it is, because a fault would name it
  generalize t.pieces = pieces at h
  induction pieces with
  | nil => rfl
  | cons piece pieces ih =>
    have htail := ih fun k hk => h k (List.mem_cons_of_mem piece hk)
    rw [List.map_cons, expandPieces, expandPieces, htail]
    cases piece with
    | text text => rfl
    | child k =>
      obtain ⟨e, he, hother⟩ := h k List.mem_cons_self
      simp only [expandPiece, he, hother]

/-- A conditional expands to its condition, its value and its alternative, in this order. -/
theorem expand_conditionalTemplate {truth : Template} (h : truth.InRange 1)
    (value condition other : Emit String) :
    (conditionalTemplate truth).expand [value, condition, other] = do
      let c ← truth.expand [condition]
      let a ← value
      let b ← other
      return "(case when " ++ (c ++ " = 1") ++ " then " ++ a ++ " else " ++ b ++ " end)" := by
  have hremap := (conditionalTemplate truth).expandPieces_remap truth [1] [condition]
    [value, condition, other] fun k hk => by
      obtain rfl : k = 0 := by have := h.lt_of_mem hk; omega
      exact ⟨condition, rfl, rfl⟩
  have hpieces : (conditionalTemplate truth).pieces = [.text "(case when "] ++
      (truth.remap [1]).pieces ++
      [.text " = 1 then ", .child 0, .text " else ", .child 2, .text " end)"] := rfl
  rw [expand, hpieces, expandPieces_append, expandPieces_append, hremap]
  simp [expandPieces, expandPiece, String.append_assoc]

end Template

/-! ## The SQL of a conditional -/

namespace Context

variable {ctx : Context} {n a p b : Node} {c ca cp cb : Checked}

/-- What checking finds out about a conditional that is valid. -/
theorem check_conditional (hn : n.expr = .ifElse a p b) (h : ctx.check n = .ok c)
    (hv : c.isValid = true) :
    ∃ ca cp cb truth, c.children = [ca, cp, cb] ∧
      (ctx.check a = .ok ca ∧ ctx.check p = .ok cp ∧ ctx.check b = .ok cb) ∧
      (ca.isValid = true ∧ cp.isValid = true ∧ cb.isValid = true) ∧
      ctx.truthOf cp = .ok (some truth) ∧
      ∃ r, c.rule? = some r ∧ r.template = conditionalTemplate truth := by
  have hvalid := isValid_children h hv
  have hchildren := check_children h
  rw [Node.children, hn] at hchildren
  rcases judge_of_isValid (judge_of_check h) hv with ⟨v, hv, -⟩ | ⟨path, f, hf, -, -⟩ |
    ⟨r, level, hc, hresolves⟩
  · cases hn.symm.trans hv
  · cases hn.symm.trans hf
  rw [hn] at hresolves
  obtain ⟨-, value, condition, other, result, truth, htypes, htruth, -, rfl⟩ := hresolves
  have hrule : c.rule? = some (conditionalRule result (Checked.operandTypes c.children) truth) := by
    rw [hc]
    rfl
  -- as many results as operands, and one type for each
  generalize c.children = children at hvalid hchildren htypes hrule
  cases hchildren with | cons ha hrest
  cases hrest with | cons hp hrest
  cases hrest with | cons hb hrest
  cases hrest
  rename_i ca cp cb
  simp only [List.mem_cons, List.not_mem_nil, or_false, forall_eq_or_imp, forall_eq] at hvalid
  refine ⟨ca, cp, cb, truth, rfl, ⟨ha, hp, hb⟩, hvalid, ?_, _, hrule, rfl⟩
  obtain ⟨ta, hta⟩ := Checked.exists_dataType? hvalid.1
  obtain ⟨tp, htp⟩ := Checked.exists_dataType? hvalid.2.1
  obtain ⟨tb, htb⟩ := Checked.exists_dataType? hvalid.2.2
  simp only [Checked.operandTypes, List.filterMap_cons, hta, htp, htb, List.filterMap_nil,
    List.cons.injEq] at htypes
  obtain ⟨-, rfl, -⟩ := htypes
  rw [truthOf, htp]
  exact htruth

variable {aliases : Aliases}

theorem emitValue_of_isValid (hv : c.isValid = true) :
    ctx.emitValue aliases n c = ctx.emit aliases n c ctx.literals := by
  rw [emitValue, ensureValid, if_pos hv, pure_bind]

/-- A conditional is written as its condition, its value and its alternative, in this order. -/
theorem emitValue_conditional {truth : Template} (hrules : ctx.rules.InRange)
    (hn : n.expr = .ifElse a p b) (hchildren : c.children = [ca, cp, cb]) (hv : c.isValid = true)
    (hvalid : ca.isValid = true ∧ cp.isValid = true ∧ cb.isValid = true)
    (htruth : ctx.truthOf cp = .ok (some truth))
    (hrule : ∃ r, c.rule? = some r ∧ r.template = conditionalTemplate truth) :
    ctx.emitValue aliases n c = do
      let condition ← ctx.emitCondition aliases p cp
      let value ← ctx.emitValue aliases a ca
      let other ← ctx.emitValue aliases b cb
      return "(case when " ++ condition ++ " then " ++ value ++ " else " ++ other ++ " end)" := by
  obtain ⟨r, hr, htemplate⟩ := hrule
  have hrange : truth.InRange 1 := by
    obtain ⟨t, ht⟩ := Checked.exists_dataType? hvalid.2.1
    rw [truthOf, ht] at htruth
    exact hrules.truth htruth
  have hemit : ctx.emit aliases n c ctx.literals =
      (conditionalTemplate truth).expand [ctx.emit aliases a ca ctx.literals,
        ctx.emit aliases p cp ctx.literals, ctx.emit aliases b cb ctx.literals] := by
    rw [ctx.emit_of_rule aliases (by simp [hn]) (by simp [hn]), emitRule, hr, hchildren,
      Node.children, hn, ← htemplate]
    rfl
  rw [emitValue_of_isValid hv, emitValue_of_isValid hvalid.1, emitValue_of_isValid hvalid.2.2,
    emitCondition_of_truthOf hvalid.2.1 htruth, hemit, Template.expand_conditionalTemplate hrange]
  simp only [bind_assoc, pure_bind]

/-- A valid expression is a condition wherever its fields have been joined, if there is a template
that says when it is true. -/
theorem exists_run_emitCondition {truth : Template} (hrules : ctx.rules.InRange)
    (hcheck : ctx.check n = .ok c) (hv : c.isValid = true)
    (htruth : ctx.truthOf c = .ok (some truth))
    (hjoined : ∀ parent ∈ n.fieldParents, parent ∈ aliases.paths) (params : List Param) :
    ∃ sql new, (ctx.emitCondition aliases n c).run params = .ok (sql, params ++ new) := by
  obtain ⟨sql, hsql⟩ : ∃ sql,
      (ctx.withLiterals .inline).emitCondition aliases n c = Emit.inline (.ok sql) :=
    exists_emitCondition rfl hrules hv htruth (exists_inlineSql hrules hcheck hv hjoined)
  rcases ctx.binds_emitCondition aliases n c ctx.literals params.length params rfl with
    ⟨fault, hfail, -⟩ | ⟨plain, bound, new, -, hrun, -⟩
  · -- with literals inline, the condition is written
    cases congrFun (hsql.symm.trans hfail) []
  · exact ⟨bound, new, hrun⟩

/-- With rules that were built from registrations, the SQL of a valid conditional is that of its
condition, as a where clause has it, then that of its value and that of its alternative, generated
one after the other with the same parameters bound. The conditional fails if and only if one of the
three fails, and then for the same reason as the first of them. There is always a template that says
when its condition is true, so that the condition can be written wherever its fields have been
joined. -/
theorem conditional_runs_condition {d : Dialect} {registrations : List Registration}
    {rules : RuleTable} (hbuild : RuleTable.build d registrations = .ok rules) (schema : Schema)
    (literals : LiteralMode) (aliases : Aliases) {n a p b : Node} {c : Checked}
    (hn : n.expr = .ifElse a p b) (hcheck : Context.check ⟨schema, rules, literals⟩ n = .ok c)
    (hv : c.isValid = true) :
    let ctx : Context := ⟨schema, rules, literals⟩
    ∃ ca cp cb truth, c.children = [ca, cp, cb] ∧
      (ctx.check a = .ok ca ∧ ctx.check p = .ok cp ∧ ctx.check b = .ok cb) ∧
      (ctx.emitValue aliases n c = do
        let condition ← ctx.emitCondition aliases p cp
        let value ← ctx.emitValue aliases a ca
        let other ← ctx.emitValue aliases b cb
        return "(case when " ++ condition ++ " then " ++ value ++ " else " ++ other ++ " end)") ∧
      (∀ params fault, (ctx.emitValue aliases n c).run params = .error fault ↔
        (ctx.emitCondition aliases p cp).run params = .error fault ∨
        ∃ condition bound, (ctx.emitCondition aliases p cp).run params = .ok (condition, bound) ∧
          ((ctx.emitValue aliases a ca).run bound = .error fault ∨
          ∃ value bound', (ctx.emitValue aliases a ca).run bound = .ok (value, bound') ∧
            (ctx.emitValue aliases b cb).run bound' = .error fault)) ∧
      ctx.truthOf cp = .ok (some truth) ∧
      ((∀ parent ∈ p.fieldParents, parent ∈ aliases.paths) → ∀ params, ∃ sql new,
        (ctx.emitCondition aliases p cp).run params = .ok (sql, params ++ new)) := by
  intro ctx
  have hrules : rules.InRange := RuleTable.inRange_of_build hbuild
  obtain ⟨ca, cp, cb, truth, hchildren, hchecks, hvalid, htruth, hrule⟩ :=
    check_conditional hn hcheck hv
  have hemit : ctx.emitValue aliases n c = _ :=
    emitValue_conditional hrules hn hchildren hv hvalid htruth hrule
  refine ⟨ca, cp, cb, truth, hchildren, hchecks, hemit, fun params fault => ?_, htruth, ?_⟩
  · simp only [hemit, Emit.run_bind_eq_error_iff, Emit.run_pure_ne_error, and_false, exists_false,
      or_false]
  · exact fun hjoined params =>
      exists_run_emitCondition hrules hchecks.2.1 hvalid.2.1 htruth hjoined params

/-- The expression `'red' if 'blue' else 'green'`. -/
def redIfBlue : Node :=
  .ofExpr (.ifElse (.ofExpr (.const (.str "red"))) (.ofExpr (.const (.str "blue")))
    (.ofExpr (.const (.str "green"))))

/-- The table of one rule, whose template refers to its operand twice. -/
def sameTable : RuleTable :=
  let template : Template := ⟨[.text "same(", .child 0, .text ", ", .child 0, .text ")"]⟩
  ⟨.oracle, [⟨.func, .bool, [.name "bool", .type .str], template⟩], rfl⟩

/-- A truth template that refers to its operand twice binds it twice, in the condition and in the
conditional alike. -/
theorem conditional_runs_condition_redIfBlue :
    let ctx : Context := ⟨⟨[]⟩, sameTable, .bind⟩
    RuleTable.build .oracle [.func "bool" .bool [.str] "same(\x7b1\x7d, \x7b1\x7d)"] =
        .ok sameTable ∧
      ∃ c cp, ctx.check redIfBlue = .ok c ∧ c.isValid = true ∧
        (ctx.emitCondition [] (.ofExpr (.const (.str "blue"))) cp).run [.str "black"] =
          .ok ("same(:2, :3) = 1", [.str "black", .str "blue", .str "blue"]) ∧
        (ctx.emitValue [] redIfBlue c).run [.str "black"] =
          .ok ("(case when same(:2, :3) = 1 then :4 else :5 end)",
            [.str "black", .str "blue", .str "blue", .str "red", .str "green"]) := by
  intro ctx
  have hbuild : RuleTable.build .oracle
      [.func "bool" .bool [.str] "same(\x7b1\x7d, \x7b1\x7d)"] = .ok sameTable := rfl
  obtain ⟨c, hcheck, hv⟩ : ∃ c, ctx.check redIfBlue = .ok c ∧ c.isValid = true := ⟨_, rfl, rfl⟩
  obtain ⟨ca, cp, cb, truth, -, ⟨ha, hp, hb⟩, hemit, -⟩ :=
    conditional_runs_condition hbuild ⟨[]⟩ .bind [] rfl hcheck hv
  cases ha
  cases hp
  cases hb
  have hcondition : (ctx.emitCondition [] (.ofExpr (.const (.str "blue")))
      ⟨.leaf .str, .constant, []⟩).run [.str "black"] =
        .ok ("same(:2, :3) = 1", [.str "black", .str "blue", .str "blue"]) := rfl
  refine ⟨hbuild, c, _, hcheck, hv, hcondition, ?_⟩
  rw [hemit]
  rfl

end Context

end TypedSql
