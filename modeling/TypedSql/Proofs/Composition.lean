import TypedSql.Proofs.Refusal
import TypedSql.Proofs.Statements

/-!
# What an expression compiles to

An expression by itself has no joined tables, so that a dotted field of it cannot be written. But
for that, every valid expression compiles: its rules refer only to operands that are there, and its
fields exist. With literals inline, the SQL of a node is put together from the pieces of its rule
and from what its operands compile to by themselves.
-/

namespace TypedSql

/-- Whether a path with a dot is the path of a field of an expression. -/
def Node.HasDottedField (n : Node) (path : String) : Prop :=
  '.' ∈ path.toList ∧ ∃ m ∈ n.preorder, m.expr = .field path

/-- The text of a template consists of the texts of its pieces. -/
theorem Template.exists_texts_of_fill {t : Template}
    {operands : List (Except TypedSql.Fault String)} {sql : String}
    (h : t.fill operands = .ok sql) :
    ∃ texts, List.Forall₂ (fun piece text => t.fillPiece operands piece = .ok text) t.pieces texts ∧
      sql = String.join texts := by
  unfold fill at h
  generalize t.pieces = pieces at h ⊢
  induction pieces generalizing sql with
  | nil =>
    cases h
    exact ⟨[], .nil, rfl⟩
  | cons piece pieces ih =>
    obtain ⟨first, hfirst, h⟩ := bind_eq_ok_iff.1 h
    obtain ⟨rest, hrest, h⟩ := bind_eq_ok_iff.1 h
    cases h
    obtain ⟨texts, htexts, rfl⟩ := ih hrest
    exact ⟨first :: texts, .cons hfirst htexts, String.join_cons.symm⟩

namespace Context

variable {ctx : Context} {n : Node} {c : Checked} {fault : Fault}

/-! ## When an expression does not compile -/

/-- A valid expression lacks SQL only for one of its dotted fields, as nothing has been joined. -/
theorem hasDottedField_of_inlineSql (hrules : ctx.rules.InRange) (hcheck : ctx.check n = .ok c)
    (hv : c.isValid = true) (h : ctx.inlineSql [] n c = .error fault) :
    ∃ path, n.HasDottedField path ∧ fault = .unjoinedField path := by
  obtain ⟨m, hm, path, parent, identifier, hfield, hsplit, -, hfault⟩ :=
    inlineSql_eq_error hrules hcheck hv h
  have hdot : '.' ∈ path.toList := by simp [Path.toList_of_splitLast?_eq_some hsplit]
  exact ⟨path, ⟨hdot, m, hm, hfield⟩, hfault⟩

theorem malformed_of_check_eq_error (h : ctx.check n = .error fault) :
    ∃ g count source, fault = .malformedAggregate g count source := by
  rw [← error?_eq_some_iff, error?_check] at h
  obtain ⟨m, -, hm⟩ := List.exists_of_findSome?_eq_some h
  obtain ⟨g, args, -, -, rfl⟩ := Node.fault?_eq_some_iff.1 hm
  exact ⟨g, args.length, m.source, rfl⟩

theorem compile_of_check (hcheck : ctx.check n = .ok c) : ctx.compile n = ctx.generate n c := by
  rw [compile, hcheck]
  rfl

/-- An expression that cannot be checked or is not valid does not compile. A valid one fails to
compile only for one of its dotted fields. -/
theorem compile_eq_error (hrules : ctx.rules.InRange) (h : ctx.compile n = .error fault) :
    (ctx.check n = .error fault ∧ ∃ g count source, fault = .malformedAggregate g count source) ∨
      (∃ c, ctx.check n = .ok c ∧ c.isValid = false ∧ fault = .unresolved (n.report c)) ∨
      ∃ path, n.HasDottedField path ∧ fault = .unjoinedField path := by
  -- with literals inline the same goes wrong
  have hplain : (ctx.withLiterals .inline).compile n = .error fault :=
    (ctx.compile_sameButLiterals n ctx.literals).error_iff.2 h
  cases hcheck : ctx.check n with
  | error fault' =>
    rw [compile, hcheck] at h
    cases h
    exact Or.inl ⟨rfl, malformed_of_check_eq_error hcheck⟩
  | ok c =>
    have hsame : (ctx.withLiterals .inline).check n = .ok c := hcheck
    rw [compile_of_check hsame, generate_eq rfl] at hplain
    cases hv : c.isValid with
    | false =>
      rw [hv, if_neg Bool.false_ne_true] at hplain
      exact Or.inr (Or.inl ⟨c, rfl, hv, (Except.error.inj hplain).symm⟩)
    | true =>
      rw [hv, if_pos rfl] at hplain
      cases hsql : (ctx.withLiterals .inline).inlineSql [] n c with
      | ok sql =>
        rw [hsql] at hplain
        cases hplain
      | error fault' =>
        rw [hsql] at hplain
        cases hplain
        exact Or.inr (Or.inr (hasDottedField_of_inlineSql hrules hsame hv hsql))

theorem compile_of_isValid_eq_false (hcheck : ctx.check n = .ok c) (hv : c.isValid = false) :
    ctx.compile n = .error (.unresolved (n.report c)) := by
  rw [compile_of_check hcheck, generate, emitValue, ensureValid, hv]
  rfl

/-! ## What the pieces of a rule stand for -/

/-- Whether a text is what a piece of the rule of a node stands for: itself, or what an operand of
the node compiles to by itself. -/
def PieceSql (ctx : Context) (n : Node) : Piece → String → Prop
  | .text text, sql => sql = text
  | .child index, sql => ∃ m, n.children[index]? = some m ∧ ctx.compile m = .ok ⟨sql, []⟩

theorem pieceSql_of_fillPiece {t : Template} {piece : Piece} {sql : String}
    (hinline : ctx.literals = .inline) (hcheck : ctx.check n = .ok c) (hv : c.isValid = true)
    (h : t.fillPiece (List.zipWith (ctx.inlineSql []) n.children c.children) piece = .ok sql) :
    ctx.PieceSql n piece sql := by
  cases piece with
  | text text => exact (Except.ok.inj h).symm
  | child k =>
    rw [Template.fillPiece] at h
    cases hoperand : (List.zipWith (ctx.inlineSql []) n.children c.children)[k]? with
    | none =>
      rw [hoperand] at h
      cases h
    | some operand =>
      rw [hoperand, Option.getD_some] at h
      obtain ⟨m, d, hm, hd, hsql⟩ := List.getElem?_zipWith_eq_some.1 hoperand
      obtain ⟨d', hd', hcheckm⟩ := exists_getElem?_of_forall₂ (check_children hcheck) hm
      obtain rfl : d = d' := Option.some.inj (hd.symm.trans hd')
      have hvalid : d.isValid = true := isValid_children hcheck hv d (List.mem_of_getElem? hd)
      exact ⟨m, hm, (compile_eq_ok_iff hinline).2 ⟨d, hcheckm, hvalid, hsql.trans h, rfl⟩⟩

/-- The SQL of a valid node is that of the pieces of its rule, one after the other. -/
theorem exists_texts_of_inlineSql {sql : String} (hinline : ctx.literals = .inline)
    (hn : n.IsComposite) (hcheck : ctx.check n = .ok c) (hv : c.isValid = true)
    (hsql : ctx.inlineSql [] n c = .ok sql) :
    ∃ r texts, c.rule? = some r ∧ List.Forall₂ (ctx.PieceSql n) r.template.pieces texts ∧
      sql = String.join texts := by
  rw [ctx.inlineSql_of_rule [] hn.1 hn.2, ruleSql] at hsql
  cases hr : c.rule? with
  | none =>
    rw [hr] at hsql
    cases hsql
  | some r =>
    rw [hr] at hsql
    obtain ⟨texts, htexts, hjoin⟩ := Template.exists_texts_of_fill hsql
    refine ⟨r, texts, rfl, htexts.imp fun piece text hpiece => ?_, hjoin⟩
    exact pieceSql_of_fillPiece hinline hcheck hv hpiece

/-- Below a valid expression without dotted fields everything compiles, and each node to what its
rule and its operands give. -/
theorem exists_compile_of_mem_preorder {m : Node} (hrules : ctx.rules.InRange)
    (hinline : ctx.literals = .inline) (hcheck : ctx.check n = .ok c) (hv : c.isValid = true)
    (hdotted : ∀ path, ¬ n.HasDottedField path) (hm : m ∈ n.preorder) :
    ∃ d sql, ctx.check m = .ok d ∧ ctx.compile m = .ok ⟨sql, []⟩ ∧
      (m.IsComposite → ∃ r texts, d.rule? = some r ∧
        List.Forall₂ (ctx.PieceSql m) r.template.pieces texts ∧ sql = String.join texts) := by
  obtain ⟨d, hd, hdv⟩ := exists_check_of_mem_preorder hcheck hv hm
  cases hsql : ctx.inlineSql [] m d with
  | error fault =>
    obtain ⟨path, ⟨hdot, leaf, hleaf, hfield⟩, -⟩ := hasDottedField_of_inlineSql hrules hd hdv hsql
    exact absurd ⟨hdot, leaf, Node.mem_preorder_trans hm hleaf, hfield⟩ (hdotted path)
  | ok sql =>
    refine ⟨d, sql, hd, (compile_eq_ok_iff hinline).2 ⟨d, hd, hdv, hsql, rfl⟩, fun hcomposite => ?_⟩
    exact exists_texts_of_inlineSql hinline hcomposite hd hdv hsql

/-- With rules that were built from registrations, an expression fails to compile only if an
aggregate function has the wrong number of arguments, if something is wrong with it, or for one of
its dotted fields. It is reported as unresolved if and only if something is wrong with it. A valid
expression without dotted fields compiles and, with literals inline, so does each of its nodes,
without binding anything, to the pieces of its rule with what its operands compile to in their
places. -/
theorem compile_composes {d : Dialect} {registrations : List Registration} {rules : RuleTable}
    (hbuild : RuleTable.build d registrations = .ok rules) (schema : Schema)
    (literals : LiteralMode) (n : Node) :
    let ctx : Context := ⟨schema, rules, literals⟩
    (∀ fault, ctx.compile n = .error fault →
      (ctx.check n = .error fault ∧
        ∃ g count source, fault = .malformedAggregate g count source) ∨
      (∃ c, ctx.check n = .ok c ∧ c.isValid = false ∧ fault = .unresolved (n.report c)) ∨
      ∃ path, n.HasDottedField path ∧ fault = .unjoinedField path) ∧
    ((∃ reports, ctx.compile n = .error (.unresolved reports)) ↔
      ∃ c, ctx.check n = .ok c ∧ c.isValid = false) ∧
    ∀ c, ctx.check n = .ok c → c.isValid = true → (∀ path, ¬ n.HasDottedField path) →
      (∃ f, ctx.compile n = .ok f) ∧
      (literals = .inline → ∀ m ∈ n.preorder, ∃ e sql, ctx.check m = .ok e ∧
        ctx.compile m = .ok ⟨sql, []⟩ ∧
        (m.IsComposite → ∃ r texts, e.rule? = some r ∧
          List.Forall₂ (ctx.PieceSql m) r.template.pieces texts ∧ sql = String.join texts)) := by
  intro ctx
  have hrules : rules.InRange := RuleTable.inRange_of_build hbuild
  have hfault := fun fault (h : ctx.compile n = .error fault) => compile_eq_error hrules h
  refine ⟨hfault, ⟨?_, ?_⟩, fun c hcheck hv hdotted => ⟨?_, ?_⟩⟩
  · rintro ⟨reports, hcompile⟩
    rcases hfault _ hcompile with ⟨-, g, count, source, heq⟩ | ⟨c, hcheck, hv, -⟩ | ⟨path, -, heq⟩
    · cases heq
    · exact ⟨c, hcheck, hv⟩
    · cases heq
  · rintro ⟨c, hcheck, hv⟩
    exact ⟨n.report c, compile_of_isValid_eq_false hcheck hv⟩
  · cases hcompile : ctx.compile n with
    | ok f => exact ⟨f, rfl⟩
    | error fault =>
      rcases hfault fault hcompile with ⟨hfails, -⟩ | ⟨c', hc', hinvalid, -⟩ | ⟨path, hpath, -⟩
      · cases hcheck.symm.trans hfails
      · cases hcheck.symm.trans hc'
        cases hv.symm.trans hinvalid
      · exact absurd hpath (hdotted path)
  · rintro rfl m hm
    exact exists_compile_of_mem_preorder hrules rfl hcheck hv hdotted hm

/-- A schema with one field. -/
def ageSchema : Schema := ⟨[⟨"age", .int, none, none⟩]⟩

/-- The table of one rule, that of a sum. -/
def sumTable : RuleTable :=
  let template : Template := ⟨[.text "(", .child 0, .text " + ", .child 1, .text ")"]⟩
  ⟨.oracle, [⟨.binary .add, .int, [.type .int, .type .int], template⟩], rfl⟩

/-- The expression `age + 1 if True else 0`. -/
def ageNextYear : Node :=
  let sum := .ofExpr (.binary .add (.ofExpr (.field "age")) (.ofExpr (.const (.int 1))))
  .ofExpr (.ifElse sum (.ofExpr (.const (.bool true))) (.ofExpr (.const (.int 0))))

/-- A conditional is written by the rule that is made up for it, and the sum in it by that of the
table. -/
theorem compile_composes_ageNextYear :
    let ctx : Context := ⟨ageSchema, sumTable, .inline⟩
    let sql := "(case when 1 = 1 then (\"age\" + 1) else 0 end)"
    let pieces := (conditionalTemplate ⟨[.child 0]⟩).pieces
    RuleTable.build .oracle [.binary .add .int .int .int "(\x7b1\x7d + \x7b2\x7d)"] =
        .ok sumTable ∧
      ctx.compile ageNextYear = .ok ⟨sql, []⟩ ∧
      ∃ texts, sql = String.join texts ∧
        List.Forall₂ (ctx.PieceSql ageNextYear) pieces texts := by
  intro ctx sql pieces
  have hbuild : RuleTable.build .oracle [.binary .add .int .int .int "(\x7b1\x7d + \x7b2\x7d)"] =
      .ok sumTable := rfl
  have hcompile : ctx.compile ageNextYear = .ok ⟨sql, []⟩ := rfl
  have hdotted : ∀ path, ¬ ageNextYear.HasDottedField path := by
    rintro path ⟨hdot, m, hm, hfield⟩
    simp only [ageNextYear, Node.ofExpr, Node.preorder_eq, Node.children, Expr.children,
      List.map_cons, List.map_nil, List.flatten_cons, List.flatten_nil, List.append_nil,
      List.mem_cons, List.mem_append, List.not_mem_nil, or_false] at hm
    rcases hm with rfl | (rfl | rfl | rfl) | rfl | rfl
    all_goals cases hfield
    exact absurd hdot (by decide)
  obtain ⟨-, hnodes⟩ :=
    (compile_composes hbuild ageSchema .inline ageNextYear).2.2 _ rfl rfl hdotted
  obtain ⟨e, sql', hcheck, hsql, hcomposite⟩ := hnodes rfl _ ageNextYear.mem_preorder_self
  have hifElse : ageNextYear.IsComposite := by simp [Node.IsComposite, ageNextYear, Node.ofExpr]
  obtain ⟨r, texts, hr, htexts, hjoin⟩ := hcomposite hifElse
  cases hcheck
  cases hr
  cases hsql
  exact ⟨hbuild, hcompile, texts, hjoin, htexts⟩

end Context

end TypedSql
