import TypedSql.Proofs.Composition
import TypedSql.Proofs.Conditionals
import TypedSql.Proofs.Outline
import TypedSql.Proofs.Reports

/-!
# Expressions that differ in their origins

An expression may carry the text it was written as, at each of its nodes. Such a text is quoted in
diagnostics and in faults, and decides about nothing: two expressions that differ in their origins
only are judged alike at every node, and either both have the same SQL with the same values bound,
or both are refused for the same reason.
-/

namespace TypedSql

/-! ## Expressions without origins -/

theorem Expr.map_congr {α β : Type} {f g : α → β} {e : Expr α} (h : ∀ a ∈ e.children, f a = g a) :
    e.map f = e.map g := by
  cases e <;> simp_all [map, children]

namespace Node

/-- An expression without origins. -/
def bare : Node → Node := fold fun _ layer => ofExpr layer

theorem bare_eq (n : Node) : n.bare = ofExpr (n.expr.map bare) := by
  rw [bare, fold_eq]

/-- Expressions that differ in their origins only have the same topmost layer, and their operands
differ in their origins only. -/
theorem bare_cases {n m : Node} (h : n.bare = m.bare) :
    n.expr.head = m.expr.head ∧
      List.Forall₂ (fun a b => a.bare = b.bare) n.children m.children := by
  rw [bare_eq, bare_eq] at h
  exact Expr.cases_of_map_eq (congrArg expr h)

theorem outline_bare (n : Node) : n.bare.outline = n.outline := by
  induction n using Node.induction with
  | step n ih =>
    have hlayer : (n.expr.map bare).map outline = n.expr.map outline := by
      rw [Expr.map_map]
      exact Expr.map_congr ih
    have hexpr : n.bare.expr = n.expr.map bare := congrArg expr n.bare_eq
    rw [outline_eq, outline_eq n, hexpr, hlayer]

end Node

/-! ## Results that differ in texts -/

namespace Checked

/-- Whether the topmost nodes of two results have the same type, the same rule and the same level,
and the same kind of thing is wrong with them. -/
structure AlikeAtRoot (c d : Checked) : Prop where
  dataType? : c.dataType? = d.dataType?
  rule? : c.rule? = d.rule?
  level : c.level = d.level
  kind? : c.diagnostic?.map Diagnostic.kind = d.diagnostic?.map Diagnostic.kind

/-- Whether two results are of the same shape and alike at every node. -/
inductive Alike : Checked → Checked → Prop
  | intro {c d : Checked} (root : c.AlikeAtRoot d)
    (operands : List.Forall₂ Alike c.children d.children) : Alike c d

variable {c d : Checked} {children children' : List Checked}

theorem Alike.root (h : c.Alike d) : c.AlikeAtRoot d := by
  cases h with
  | intro root operands => exact root

theorem Alike.operands (h : c.Alike d) : List.Forall₂ Alike c.children d.children := by
  cases h with
  | intro root operands => exact operands

theorem alike_failed {e e' : Diagnostic} (level : Level) (hkind : e.kind = e'.kind)
    (h : List.Forall₂ Alike children children') :
    Alike ⟨.failed e, level, children⟩ ⟨.failed e', level, children'⟩ :=
  .intro ⟨rfl, rfl, rfl, congrArg some hkind⟩ h

theorem alike_resolved (r : Rule) (level : Level) (h : List.Forall₂ Alike children children') :
    Alike ⟨.resolved r, level, children⟩ ⟨.resolved r, level, children'⟩ :=
  .intro ⟨rfl, rfl, rfl, rfl⟩ h

theorem alike_leaf (type : DataType) (level : Level) :
    Alike ⟨.leaf type, level, []⟩ ⟨.leaf type, level, []⟩ :=
  .intro ⟨rfl, rfl, rfl, rfl⟩ .nil

theorem Alike.isValid_eq (h : c.Alike d) : c.isValid = d.isValid := by
  have hkind := congrArg Option.isNone h.root.kind?
  rwa [Option.isNone_map, Option.isNone_map] at hkind

/-- What is the same for any two results that are alike is the same for lists of them. -/
theorem map_eq_of_alike {α : Type} {f : Checked → α} (hf : ∀ c d, Alike c d → f c = f d)
    (h : List.Forall₂ Alike children children') : children.map f = children'.map f := by
  rw [← List.forall₂_eq_eq_eq, List.forall₂_map_left_iff, List.forall₂_map_right_iff]
  exact h.imp hf

theorem any_eq_of_alike {p : Checked → Bool} (hp : ∀ c d, Alike c d → p c = p d)
    (h : List.Forall₂ Alike children children') : children.any p = children'.any p := by
  have hany := congrArg (List.any · id) (map_eq_of_alike hp h)
  simpa only [List.any_map, Function.id_comp] using hany

theorem any_invalid_eq_of_alike (h : List.Forall₂ Alike children children') :
    (children.any fun c => !c.isValid) = children'.any fun c => !c.isValid :=
  any_eq_of_alike (fun _ _ h => congrArg (!·) h.isValid_eq) h

theorem operandTypes_eq_of_alike (h : List.Forall₂ Alike children children') :
    operandTypes children = operandTypes children' := by
  have htypes : children.map dataType? = children'.map dataType? :=
    map_eq_of_alike (fun _ _ h => h.root.dataType?) h
  have hknown := congrArg (List.filterMap id) htypes
  rw [List.filterMap_map, List.filterMap_map] at hknown
  exact hknown

/-- Whether something is a root cause depends on its kind only. -/
theorem AlikeAtRoot.own?_eq (h : c.AlikeAtRoot d) :
    c.own?.map Diagnostic.kind = d.own?.map Diagnostic.kind := by
  have hroot := congrArg (Option.filter fun kind => kind ≠ .operandErrors) h.kind?
  rw [Option.filter_map, Option.filter_map] at hroot
  exact hroot

end Checked

/-- Whether two faults are about calls of the same aggregate function with as many arguments. -/
def Fault.SameCall (fault fault' : Fault) : Prop :=
  ∃ g count source source', fault = .malformedAggregate g count source ∧
    fault' = .malformedAggregate g count source'

/-- Whether two faults are the same, or about calls of the same aggregate function with as many
arguments, or both made of reports of the same kinds in the same order. -/
inductive Fault.Alike : Fault → Fault → Prop
  | refl (fault : Fault) : Alike fault fault
  | malformedAggregate (g : Aggregate) (count : Nat) (source source' : String) :
    Alike (.malformedAggregate g count source) (.malformedAggregate g count source')
  | unresolved {reports reports' : List Report}
    (h : reports.map (·.diagnostic.kind) = reports'.map (·.diagnostic.kind)) :
    Alike (.unresolved reports) (.unresolved reports')

/-! ## Checking -/

open Checked (Alike)

section Judging

variable {n m : Node} {children children' : List Checked} {R : Fault → Fault → Prop}

/-- Operands that are alike are in order for both of two nodes, with the same level, or the same
kind of thing is wrong with them. -/
theorem operandLevel_of_alike (n m : Node) (h : List.Forall₂ Alike children children') :
    (∃ level, operandLevel n children = (level, none) ∧
        operandLevel m children' = (level, none)) ∨
      ∃ level e e', operandLevel n children = (level, some e) ∧
        operandLevel m children' = (level, some e') ∧ e.kind = e'.kind := by
  have hlevels : children.map (·.level) = children'.map (·.level) :=
    Checked.map_eq_of_alike (fun _ _ h => h.root.level) h
  simp only [operandLevel, hlevels, Checked.any_invalid_eq_of_alike h]
  split
  · exact Or.inr ⟨_, _, _, rfl, rfl, rfl⟩
  · split
    · exact Or.inr ⟨_, _, _, rfl, rfl, rfl⟩
    · exact Or.inl ⟨_, rfl, rfl⟩

namespace Context

variable (ctx : Context)

theorem resolveCall_of_alike (n m : Node) (operator : Operator) (name : Option String)
    (level : Level) (h : List.Forall₂ Alike children children') :
    Corresponds R Alike (ctx.resolveCall n operator name level children)
      (ctx.resolveCall m operator name level children') := by
  obtain ⟨resolution, hresolve⟩ :=
    ctx.rules.exists_resolve operator name (Checked.operandTypes children')
  simp only [resolveCall, Checked.operandTypes_eq_of_alike h, hresolve]
  cases resolution with
  | rule r => exact .ok (Checked.alike_resolved r level h)
  | noMatch => exact .ok (Checked.alike_failed level rfl h)
  | unknownName => exact .ok (Checked.alike_failed level rfl h)

theorem checkCall_of_alike (n m : Node) (operator : Operator) (name : Option String)
    (h : List.Forall₂ Alike children children') :
    Corresponds R Alike (ctx.checkCall n operator name children)
      (ctx.checkCall m operator name children') := by
  rcases operandLevel_of_alike n m h with ⟨level, hn, hm⟩ | ⟨level, e, e', hn, hm, hkind⟩
  · simp only [checkCall, hn, hm]
    exact ctx.resolveCall_of_alike n m operator name level h
  · simp only [checkCall, hn, hm]
    exact .ok (Checked.alike_failed level hkind h)

theorem checkConditional_of_alike (n m : Node) (h : List.Forall₂ Alike children children') :
    Corresponds R Alike (ctx.checkConditional n children) (ctx.checkConditional m children') := by
  rcases operandLevel_of_alike n m h with ⟨level, hn, hm⟩ | ⟨level, e, e', hn, hm, hkind⟩
  · simp only [checkConditional, hn, hm, resolveConditional, Checked.operandTypes_eq_of_alike h]
    split
    · rename_i value condition other _
      obtain ⟨truth, htruth⟩ := ctx.rules.exists_truth condition
      simp only [htruth]
      split
      · exact .ok (Checked.alike_resolved _ level h)
      · exact .ok (Checked.alike_failed level rfl h)
    · exact .ok (Checked.alike_failed level rfl h)
  · simp only [checkConditional, hn, hm]
    exact .ok (Checked.alike_failed level hkind h)

theorem checkAggregate_of_alike (n m : Node) (g : Aggregate)
    (h : List.Forall₂ Alike children children') :
    Corresponds R Alike (ctx.checkAggregate n g children) (ctx.checkAggregate m g children') := by
  have hnested : (children.any fun c => c.level.isAggregated) =
      children'.any fun c => c.level.isAggregated :=
    Checked.any_eq_of_alike (fun _ _ h => congrArg Level.isAggregated h.root.level) h
  simp only [checkAggregate, Checked.any_invalid_eq_of_alike h, hnested]
  split
  · exact .ok (Checked.alike_failed (.aggregated g) rfl h)
  · split
    · exact .ok (Checked.alike_failed (.aggregated g) rfl h)
    · exact ctx.resolveCall_of_alike n m (.aggregate g) none (.aggregated g) h

/-- Nodes with the same topmost layer are judged alike by operands that are alike. -/
theorem judge_of_alike (hhead : n.expr.head = m.expr.head)
    (h : List.Forall₂ Alike children children') :
    Corresponds R Alike (ctx.judge n children) (ctx.judge m children') := by
  rw [judge, judge, hhead]
  cases m.expr.head with
  | const v => exact .ok (Checked.alike_leaf v.dataType .constant)
  | field path =>
    simp only [checkField]
    cases ctx.schema.resolve? path with
    | some f => exact .ok (Checked.alike_leaf f.dataType .row)
    | none => exact .ok (Checked.alike_failed .row rfl .nil)
  | ifElse a p b => exact ctx.checkConditional_of_alike n m h
  | aggregate g args => exact ctx.checkAggregate_of_alike n m g h
  | _ => exact ctx.checkCall_of_alike n m _ _ h

/-- Expressions that differ in their origins only are refused for the same call, or have results
that are alike. -/
theorem check_corresponds (hbare : n.bare = m.bare) :
    Corresponds Fault.SameCall Alike (ctx.check n) (ctx.check m) := by
  induction n using Node.induction generalizing m with
  | step n ih =>
    obtain ⟨hhead, hchildren⟩ := Node.bare_cases hbare
    by_cases harity : n.HasArity
    · rw [check_of_hasArity harity, check_of_hasArity (hasArity_of_head_eq hhead harity)]
      have hoperands := forall₂_imp_of_mem hchildren fun a ha b _ hab => ih a ha hab
      exact (Corresponds.mapM hoperands).bind fun _ _ h => ctx.judge_of_alike hhead h
    · unfold Node.HasArity at harity
      push Not at harity
      obtain ⟨g, args, hn, hlength⟩ := harity
      obtain ⟨args', hm, hlength'⟩ := Node.exists_aggregate_of_head_eq hhead.symm hn
      rw [check_of_length_ne hn hlength, check_of_length_ne hm (hlength' ▸ hlength), hlength']
      exact .error ⟨g, args.length, n.source, m.source, rfl, rfl⟩

end Context

end Judging

/-! ## Generating SQL -/

theorem Expr.operandMode_head {α : Type} (mode : LiteralMode) (e : Expr α) :
    e.head.operandMode mode = e.operandMode mode := by
  cases e with
  | aggregate g args => cases g <;> rfl
  | _ => rfl

namespace Context

variable {ctx : Context} {n m : Node} {c d : Checked}

/-- Only diagnostics quote an origin, so that a valid result is the same for both expressions. -/
theorem check_of_bare_eq (hbare : n.bare = m.bare) (h : ctx.check n = .ok c)
    (hv : c.isValid = true) : ctx.check m = .ok c := by
  have houtline : n.outline = m.outline := by rw [← n.outline_bare, hbare, m.outline_bare]
  exact check_of_outline_eq houtline h hv

/-- A valid node other than a constant or a field has a rule, and it is generated by its template
without a look at its origin. -/
theorem emit_of_bare_eq (aliases : Aliases) (hbare : n.bare = m.bare) (h : ctx.check n = .ok c)
    (hv : c.isValid = true) (mode : LiteralMode) :
    ctx.emit aliases n c mode = ctx.emit aliases m c mode := by
  induction n using Node.induction generalizing m c mode with
  | step n ih =>
    obtain ⟨hhead, hchildren⟩ := Node.bare_cases hbare
    rcases judge_of_isValid (judge_of_check h) hv with ⟨v, hn, -⟩ | ⟨path, f, hn, -⟩ |
      ⟨r, level, hresolved, hresolves⟩
    · have hm : m.expr = .const v := by
        rw [hn] at hhead
        exact Expr.map_eq_const_iff.1 hhead.symm
      rw [emit, Node.fold_eq, Node.fold_eq, hn, hm]
      rfl
    · have hm : m.expr = .field path := by
        rw [hn] at hhead
        exact Expr.map_eq_field_iff.1 hhead.symm
      rw [emit, Node.fold_eq, Node.fold_eq, hn, hm]
      rfl
    · have hconst : ∀ {k : Node}, k.expr.head = n.expr.head → ∀ v, k.expr ≠ .const v := by
        intro k hk v hkv
        rw [← hk, hkv] at hresolves
        exact hresolves
      have hfield : ∀ {k : Node}, k.expr.head = n.expr.head → ∀ path, k.expr ≠ .field path := by
        intro k hk path hkv
        rw [← hk, hkv] at hresolves
        exact hresolves
      have hoperands : ∀ mode,
          List.zipWith (fun a b => ctx.emit aliases a b mode) n.children c.children =
            List.zipWith (fun a b => ctx.emit aliases a b mode) m.children c.children := by
        intro mode
        have hresults : List.Forall₂ Eq c.children c.children := List.forall₂_refl c.children
        refine zipWith_eq_of_forall₂ (check_children h) hchildren hresults ?_
        rintro a ha b hb hab a' b' haa rfl
        exact ih a ha haa hab (isValid_children h hv b hb) mode
      have hmode : n.expr.operandMode mode = m.expr.operandMode mode := by
        rw [← n.expr.operandMode_head, hhead, m.expr.operandMode_head]
      have hrule : c.rule? = some r := by rw [hresolved]; rfl
      rw [ctx.emit_of_rule aliases (hconst rfl) (hfield rfl),
        ctx.emit_of_rule aliases (hconst hhead.symm) (hfield hhead.symm), hmode, hoperands,
        emitRule, emitRule, hrule]

theorem inlineSql_of_bare_eq (aliases : Aliases) (hbare : n.bare = m.bare)
    (h : ctx.check n = .ok c) (hv : c.isValid = true) :
    ctx.inlineSql aliases n c = ctx.inlineSql aliases m c := by
  rw [inlineSql, inlineSql, emit_of_bare_eq aliases hbare h hv]

/-- Results that are alike have the same kinds of root causes, in the same order. -/
theorem kinds_report_of_alike (hbare : n.bare = m.bare) (h : ctx.check n = .ok c)
    (halike : c.Alike d) :
    (n.report c).map (·.diagnostic.kind) = (m.report d).map (·.diagnostic.kind) := by
  induction n using Node.induction generalizing m c d with
  | step n ih =>
    have hkind := halike.root.kind?
    cases hc : c.diagnostic? with
    | none =>
      have hd : d.diagnostic? = none := by simpa [hc] using hkind.symm
      rw [Node.report_of_diagnostic?_eq_none hc, Node.report_of_diagnostic?_eq_none hd]
    | some e =>
      obtain ⟨e', hd, -⟩ : ∃ e', d.diagnostic? = some e' ∧ e'.kind = e.kind := by
        simpa [hc] using hkind.symm
      have hkinds : ∀ (k : Node) (own? : Option Diagnostic),
          (own?.map (Report.ofNode k)).toList.map (·.diagnostic.kind) =
            (own?.map Diagnostic.kind).toList := by
        intro k own?
        cases own? <;> rfl
      have hoperands : List.zipWith (fun a b => (a.report b).map (·.diagnostic.kind)) n.children
            c.children =
          List.zipWith (fun a b => (a.report b).map (·.diagnostic.kind)) m.children d.children := by
        refine zipWith_eq_of_forall₂ (check_children h) (Node.bare_cases hbare).2
          halike.operands ?_
        intro a ha b _ hab a' b' haa hbb
        exact ih a ha haa hab hbb
      rw [Node.report_of_diagnostic? hc, Node.report_of_diagnostic? hd, List.map_append,
        List.map_append, hkinds, hkinds, halike.root.own?_eq, List.map_flatten, List.map_flatten,
        List.map_zipWith, List.map_zipWith, hoperands]

/-- Expressions that differ in their origins only have the same SQL and bind the same values, or
are refused for the same reason. -/
theorem compile_corresponds (hbare : n.bare = m.bare) :
    Corresponds Fault.Alike Eq (ctx.compile n) (ctx.compile m) := by
  have hcheck := ctx.check_corresponds hbare
  generalize hn : ctx.check n = x at hcheck
  generalize hm : ctx.check m = y at hcheck
  cases hcheck with
  | error hcall =>
    obtain ⟨g, count, source, source', rfl, rfl⟩ := hcall
    rw [compile, compile, hn, hm]
    exact .error (.malformedAggregate g count source source')
  | @ok c d halike =>
    cases hv : c.isValid with
    | false =>
      have hv' : d.isValid = false := by rw [← halike.isValid_eq, hv]
      rw [compile_of_isValid_eq_false hn hv, compile_of_isValid_eq_false hm hv']
      exact .error (.unresolved (kinds_report_of_alike hbare hn halike))
    | true =>
      obtain rfl : c = d := Except.ok.inj ((check_of_bare_eq hbare hn hv).symm.trans hm)
      have hsame : ctx.compile n = ctx.compile m := by
        rw [compile_of_check hn, compile_of_check hm, generate, generate, emitValue_of_isValid hv,
          emitValue_of_isValid hv, emit_of_bare_eq [] hbare hn hv]
      rw [hsame]
      exact .refl .refl (fun _ => rfl) _

/-- What an expression was written as decides about nothing. Two expressions that are the same
without their origins are refused for calls of the same aggregate function with as many arguments,
or their results are alike at every node. They compile to the same SQL with the same values bound,
or fail with faults that differ at most in what they quote. -/
theorem compile_ignores_origins (ctx : Context) {n m : Node} (h : n.bare = m.bare) :
    Corresponds Fault.SameCall Checked.Alike (ctx.check n) (ctx.check m) ∧
      Corresponds Fault.Alike Eq (ctx.compile n) (ctx.compile m) :=
  ⟨ctx.check_corresponds h, compile_corresponds h⟩

/-- A conditional with origins of its own and of its value, neither of which is its canonical text,
is checked and compiled like the one without origins. -/
theorem compile_ignores_origins_conditional :
    let ctx : Context := ⟨⟨[]⟩, ⟨.postgres, [], rfl⟩, .bind⟩
    let condition := Node.ofExpr (.const (.bool true))
    let other := Node.ofExpr (.const (.str "no"))
    let plain := Node.ofExpr (.ifElse (.ofExpr (.const (.str "yes"))) condition other)
    let operand := (Node.ofExpr (.const (.str "yes"))).withOrigin ⟨"1; --", none⟩
    let written := (Node.ofExpr (.ifElse operand condition other)).withOrigin
      ⟨"1 = 1 ? 'yes' : 'no'", some ⟨7, 27⟩⟩
    (plain.bare = written.bare ∧ plain.source ≠ written.source) ∧
      Corresponds Fault.SameCall Checked.Alike (ctx.check plain) (ctx.check written) ∧
      Corresponds Fault.Alike Eq (ctx.compile plain) (ctx.compile written) :=
  ⟨⟨rfl, by decide⟩, compile_ignores_origins _ rfl⟩

end Context

end TypedSql
