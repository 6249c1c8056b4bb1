import Mathlib.Data.List.Induction
import TypedSql.Checked.Check
import TypedSql.Proofs.Resolution

/-!
# What checking finds out

Checking judges a node by the results for its operands. A node that nothing is wrong with has only
operands that nothing is wrong with, and so on down to the leaves: every field of a valid expression
exists, and an expression whose level is not aggregated contains no aggregate function at all.
-/

namespace TypedSql

/-! ## The nodes of an expression -/

/-- A layer without its operands. -/
def Expr.head {α : Type} (e : Expr α) : Expr Unit := e.map fun _ => ()

namespace Node

/-- A node before all the nodes below it, from left to right. -/
def preorderStep (n : Node) (layer : Expr (List Node)) : List Node := n :: layer.children.flatten

/-- The nodes of an expression, each before its operands. -/
def preorder : Node → List Node := fold preorderStep

theorem preorder_eq (n : Node) : n.preorder = n :: (n.children.map preorder).flatten := by
  rw [preorder, fold_eq, ← preorder, preorderStep, Expr.children_map, children]

theorem mem_preorder_iff {n m : Node} :
    m ∈ n.preorder ↔ m = n ∨ ∃ child ∈ n.children, m ∈ child.preorder := by
  rw [preorder_eq]
  simp

/-- The first result along an expression is that of the node, or else that of an operand. -/
theorem findSome?_preorder {α : Type} (f : Node → Option α) (n : Node) :
    n.preorder.findSome? f = (f n).or (n.children.findSome? fun m => m.preorder.findSome? f) := by
  have hflatten : ∀ ns : List Node, (ns.map preorder).flatten.findSome? f =
      ns.findSome? fun m => m.preorder.findSome? f := by
    intro ns
    induction ns with
    | nil => rfl
    | cons m ns ih =>
      rw [List.map_cons, List.flatten_cons, List.findSome?_append, ih, List.findSome?_cons]
      cases m.preorder.findSome? f <;> rfl
  rw [preorder_eq, List.findSome?_cons, hflatten]
  cases f n <;> rfl

theorem mem_preorder_self (n : Node) : n ∈ n.preorder := mem_preorder_iff.2 (Or.inl rfl)

theorem mem_preorder_trans {n m k : Node} (hm : m ∈ n.preorder) (hk : k ∈ m.preorder) :
    k ∈ n.preorder := by
  induction n using Node.induction with
  | step n ih =>
    rcases mem_preorder_iff.1 hm with rfl | ⟨child, hchild, hm⟩
    · exact hk
    · exact mem_preorder_iff.2 (Or.inr ⟨child, hchild, ih child hchild hm⟩)

/-- Whether a node is a call of an aggregate function. -/
def IsAggregate (n : Node) : Prop := ∃ g args, n.expr = .aggregate g args

theorem isAggregate_of_head_eq {n : Node} {g : Aggregate} {args : List Unit}
    (h : n.expr.head = .aggregate g args) : n.IsAggregate := by
  obtain ⟨e, origin⟩ := n
  cases e with
  | aggregate g args => exact ⟨g, args, rfl⟩
  | _ => cases h

/-- Whether a node that calls an aggregate function gives it as many arguments as it takes. -/
def HasArity (n : Node) : Prop := ∀ g args, n.expr = .aggregate g args → args.length = g.arity

end Node

/-! ## Judging a node by its operands -/

namespace Checked

theorem exists_dataType? {c : Checked} (hv : c.isValid = true) : ∃ t, c.dataType? = some t := by
  obtain ⟨verdict, level, children⟩ := c
  cases verdict with
  | leaf t => exact ⟨t, rfl⟩
  | resolved r => exact ⟨r.result, rfl⟩
  | failed d => cases hv

theorem length_operandTypes {children : List Checked} (h : ∀ d ∈ children, d.isValid = true) :
    (operandTypes children).length = children.length := by
  induction children with
  | nil => rfl
  | cons d children ih =>
    obtain ⟨t, ht⟩ := exists_dataType? (h d List.mem_cons_self)
    have hrest := ih fun e he => h e (List.mem_cons_of_mem d he)
    rw [operandTypes, List.filterMap_cons_some ht, List.length_cons, List.length_cons]
    exact congrArg (· + 1) hrest

end Checked

/-- Whether nothing is wrong with any operand and their levels combine to the given one. -/
def Checked.Combine (children : List Checked) (level : Level) : Prop :=
  (∀ d ∈ children, d.isValid = true) ∧ Level.combineAll (children.map (·.level)) = some level

/-- Whether a rule is the one for conditionals with operands of the given types. -/
def RuleTable.IsConditional (t : RuleTable) (types : List DataType) (r : Rule) : Prop :=
  ∃ value condition other result truth, types = [value, condition, other] ∧
    t.truth condition = .ok (some truth) ∧ value.widen other = some result ∧
    r = conditionalRule result types truth

namespace Context

/-- The result for a node whose operands have the given results. -/
def judge (ctx : Context) (n : Node) (children : List Checked) : Except Fault Checked :=
  match n.expr.head with
  | .const v => .ok ⟨.leaf v.dataType, .constant, []⟩
  | .field path => .ok (ctx.checkField n path)
  | .unary op _ => ctx.checkCall n (.unary op) none children
  | .binary op _ _ => ctx.checkCall n (.binary op) none children
  | .ifElse _ _ _ => ctx.checkConditional n children
  | .func name _ => ctx.checkCall n .func (some name) children
  | .meth _ name _ => ctx.checkCall n .meth (some name) children
  | .attr _ name => ctx.checkCall n .attr (some name) children
  | .aggregate g _ => ctx.checkAggregate n g children

/-- Whether operands with the given results are in order for a layer, so that it resolves to a rule
and is about what the given level says. -/
def Resolves (ctx : Context) (children : List Checked) (r : Rule) (level : Level) :
    Expr Unit → Prop
  | .const _ => False
  | .field _ => False
  | .unary op _ => Checked.Combine children level ∧
    ctx.rules.resolve (.unary op) none (Checked.operandTypes children) = .ok (.rule r)
  | .binary op _ _ => Checked.Combine children level ∧
    ctx.rules.resolve (.binary op) none (Checked.operandTypes children) = .ok (.rule r)
  | .ifElse _ _ _ => Checked.Combine children level ∧
    ctx.rules.IsConditional (Checked.operandTypes children) r
  | .func name _ => Checked.Combine children level ∧
    ctx.rules.resolve .func (some name) (Checked.operandTypes children) = .ok (.rule r)
  | .meth _ name _ => Checked.Combine children level ∧
    ctx.rules.resolve .meth (some name) (Checked.operandTypes children) = .ok (.rule r)
  | .attr _ name => Checked.Combine children level ∧
    ctx.rules.resolve .attr (some name) (Checked.operandTypes children) = .ok (.rule r)
  | .aggregate g _ => level = .aggregated g ∧
    (∀ d ∈ children, d.isValid = true ∧ d.level.isAggregated = false) ∧
    ctx.rules.resolve (.aggregate g) none (Checked.operandTypes children) = .ok (.rule r)

variable {ctx : Context} {n : Node} {c : Checked} {children : List Checked} {r : Rule}
  {level : Level}

/-- A well-formed expression is checked operand by operand and then judged by the results. -/
theorem check_of_hasArity (h : n.HasArity) :
    ctx.check n = n.children.mapM ctx.check >>= fun children => ctx.judge n children := by
  rw [check, Node.fold_eq, ← check]
  obtain ⟨e, origin⟩ := n
  cases e with
  | aggregate g args =>
    have harity : args.length = g.arity := h g args rfl
    simp [checkStep, Expr.map, Node.children, Expr.children, harity, judge, Expr.head]
  | _ => simp [checkStep, Expr.map, Node.children, Expr.children, judge, Expr.head]

/-- An aggregate function with the wrong number of arguments is refused before its arguments are
looked at. -/
theorem check_of_length_ne {g : Aggregate} {args : List Node} (hn : n.expr = .aggregate g args)
    (h : args.length ≠ g.arity) :
    ctx.check n = .error (.malformedAggregate g args.length n.source) := by
  rw [check, Node.fold_eq, hn]
  simp [checkStep, Expr.map, h]

/-- An expression can be checked if and only if it is well formed, its operands can be checked and
it can be judged by the results for them. -/
theorem check_eq_ok_iff :
    ctx.check n = .ok c ↔
      n.HasArity ∧ ∃ children, List.Forall₂ (fun m d => ctx.check m = .ok d) n.children children ∧
        ctx.judge n children = .ok c := by
  by_cases harity : n.HasArity
  · rw [check_of_hasArity harity, bind_eq_ok_iff]
    simp only [mapM_eq_ok_iff, harity, true_and]
  · have hrefused : ∃ fault, ctx.check n = .error fault := by
      unfold Node.HasArity at harity
      push Not at harity
      obtain ⟨g, args, hn, hlength⟩ := harity
      exact ⟨_, check_of_length_ne hn hlength⟩
    obtain ⟨fault, hfault⟩ := hrefused
    simp [hfault, harity]

theorem operandLevel_eq_none_iff :
    operandLevel n children = (level, none) ↔ Checked.Combine children level := by
  unfold operandLevel Checked.Combine
  by_cases hvalid : ∀ d ∈ children, d.isValid = true
  · have hany : (children.any fun d => !d.isValid) = false := by simpa using hvalid
    cases hlevel : Level.combineAll (children.map (·.level)) with
    | none => simp [hany, hlevel]
    | some l => simpa [hany, hlevel] using fun _ => hvalid
  · have hany : (children.any fun d => !d.isValid) = true := by simpa using hvalid
    simp [hany, hvalid]

section Calls

variable {operator : Operator} {name : Option String}

theorem resolveCall_cases (h : ctx.resolveCall n operator name level children = .ok c) :
    (∃ diagnostic, c = ⟨.failed diagnostic, level, children⟩) ∨
      ∃ r, c = ⟨.resolved r, level, children⟩ ∧
        ctx.rules.resolve operator name (Checked.operandTypes children) = .ok (.rule r) := by
  simp only [resolveCall] at h
  split at h
  · cases h
  · rename_i r hr
    cases h
    exact Or.inr ⟨r, rfl, hr⟩
  · cases h
    exact Or.inl ⟨_, rfl⟩
  · cases h
    exact Or.inl ⟨_, rfl⟩

theorem checkCall_cases (h : ctx.checkCall n operator name children = .ok c) :
    (∃ diagnostic level, c = ⟨.failed diagnostic, level, children⟩) ∨
      ∃ r level, c = ⟨.resolved r, level, children⟩ ∧ Checked.Combine children level ∧
        ctx.rules.resolve operator name (Checked.operandTypes children) = .ok (.rule r) := by
  unfold checkCall at h
  split at h
  · cases h
    exact Or.inl ⟨_, _, rfl⟩
  · rename_i level hlevel
    rcases resolveCall_cases h with ⟨diagnostic, hc⟩ | ⟨r, hc, hr⟩
    · exact Or.inl ⟨diagnostic, level, hc⟩
    · exact Or.inr ⟨r, level, hc, operandLevel_eq_none_iff.1 hlevel, hr⟩

theorem checkCall_of_resolve (n : Node) (hcombine : Checked.Combine children level)
    (hr : ctx.rules.resolve operator name (Checked.operandTypes children) = .ok (.rule r)) :
    ctx.checkCall n operator name children = .ok ⟨.resolved r, level, children⟩ := by
  simp only [checkCall, operandLevel_eq_none_iff.2 hcombine, resolveCall, hr]

theorem checkConditional_cases (h : ctx.checkConditional n children = .ok c) :
    (∃ diagnostic level, c = ⟨.failed diagnostic, level, children⟩) ∨
      ∃ r level, c = ⟨.resolved r, level, children⟩ ∧ Checked.Combine children level ∧
        ctx.rules.IsConditional (Checked.operandTypes children) r := by
  unfold checkConditional at h
  split at h
  · cases h
    exact Or.inl ⟨_, _, rfl⟩
  · rename_i level hlevel
    simp only [resolveConditional] at h
    split at h
    · rename_i value condition other htypes
      split at h
      · cases h
      · rename_i htruth
        split at h
        · rename_i result truth hwiden
          cases h
          refine Or.inr ⟨_, level, rfl, operandLevel_eq_none_iff.1 hlevel, ?_⟩
          exact ⟨value, condition, other, result, truth, htypes, htruth, hwiden, rfl⟩
        · cases h
          exact Or.inl ⟨_, _, rfl⟩
    · cases h
      exact Or.inl ⟨_, _, rfl⟩

theorem checkConditional_of_isConditional (n : Node) (hcombine : Checked.Combine children level)
    (hr : ctx.rules.IsConditional (Checked.operandTypes children) r) :
    ctx.checkConditional n children = .ok ⟨.resolved r, level, children⟩ := by
  obtain ⟨value, condition, other, result, truth, htypes, htruth, hwiden, rfl⟩ := hr
  simp only [checkConditional, operandLevel_eq_none_iff.2 hcombine, resolveConditional, htypes,
    htruth, hwiden]

theorem checkAggregate_cases {g : Aggregate} (h : ctx.checkAggregate n g children = .ok c) :
    (∃ diagnostic level, c = ⟨.failed diagnostic, level, children⟩) ∨
      ∃ r, c = ⟨.resolved r, .aggregated g, children⟩ ∧
        (∀ d ∈ children, d.isValid = true ∧ d.level.isAggregated = false) ∧
        ctx.rules.resolve (.aggregate g) none (Checked.operandTypes children) = .ok (.rule r) := by
  unfold checkAggregate at h
  split at h
  · cases h
    exact Or.inl ⟨_, _, rfl⟩
  · rename_i hvalid
    split at h
    · cases h
      exact Or.inl ⟨_, _, rfl⟩
    · rename_i hnested
      rcases resolveCall_cases h with ⟨diagnostic, hc⟩ | ⟨r, hc, hr⟩
      · exact Or.inl ⟨diagnostic, _, hc⟩
      · have hvalid : ∀ d ∈ children, d.isValid = true := by simpa using hvalid
        have hnested : ∀ d ∈ children, d.level.isAggregated = false := by simpa using hnested
        exact Or.inr ⟨r, hc, fun d hd => ⟨hvalid d hd, hnested d hd⟩, hr⟩

theorem checkAggregate_of_resolve (n : Node) {g : Aggregate}
    (hoperands : ∀ d ∈ children, d.isValid = true ∧ d.level.isAggregated = false)
    (hr : ctx.rules.resolve (.aggregate g) none (Checked.operandTypes children) = .ok (.rule r)) :
    ctx.checkAggregate n g children = .ok ⟨.resolved r, .aggregated g, children⟩ := by
  have hvalid : ¬ (children.any fun d => !d.isValid) = true := by
    simpa using fun d hd => (hoperands d hd).1
  have hnested : ¬ (children.any fun d => d.level.isAggregated) = true := by
    simpa using fun d hd => (hoperands d hd).2
  simp only [checkAggregate, if_neg hvalid, if_neg hnested, resolveCall, hr]

end Calls

/-- All that judging a node can find: the type of a constant, what is known of a field, that
something is wrong, or that the node resolves to a rule. -/
theorem judge_cases (h : ctx.judge n children = .ok c) :
    (∃ v, n.expr = .const v ∧ c = ⟨.leaf v.dataType, .constant, []⟩) ∨
    (∃ path, n.expr = .field path ∧ c = ctx.checkField n path) ∨
    (∃ diagnostic level, c = ⟨.failed diagnostic, level, children⟩) ∨
    ∃ r level, c = ⟨.resolved r, level, children⟩ ∧ ctx.Resolves children r level n.expr.head := by
  obtain ⟨e, origin⟩ := n
  cases e with
  | const v => exact Or.inl ⟨v, rfl, (Except.ok.inj h).symm⟩
  | field path => exact Or.inr (Or.inl ⟨path, rfl, (Except.ok.inj h).symm⟩)
  | ifElse a p b => exact Or.inr (Or.inr (checkConditional_cases h))
  | aggregate g args =>
    rcases checkAggregate_cases h with hfailed | ⟨r, hc, hr⟩
    · exact Or.inr (Or.inr (Or.inl hfailed))
    · exact Or.inr (Or.inr (Or.inr ⟨r, _, hc, rfl, hr⟩))
  | _ => exact Or.inr (Or.inr (checkCall_cases h))

theorem judge_of_resolves (h : ctx.Resolves children r level n.expr.head) :
    ctx.judge n children = .ok ⟨.resolved r, level, children⟩ := by
  unfold judge
  cases hn : n.expr.head with
  | const v => simp [hn, Resolves] at h
  | field path => simp [hn, Resolves] at h
  | ifElse a p b =>
    rw [hn] at h
    exact checkConditional_of_isConditional n h.1 h.2
  | aggregate g args =>
    rw [hn] at h
    obtain ⟨rfl, hoperands, hr⟩ := h
    exact checkAggregate_of_resolve n hoperands hr
  | _ =>
    rw [hn] at h
    exact checkCall_of_resolve n h.1 h.2

theorem checkField_of_isValid {path : String} (hv : (ctx.checkField n path).isValid = true) :
    ∃ f, ctx.schema.resolve? path = some f ∧
      ctx.checkField n path = ⟨.leaf f.dataType, .row, []⟩ := by
  unfold checkField at hv ⊢
  split at hv
  · rename_i f hf
    exact ⟨f, hf, rfl⟩
  · cases hv

/-- What is known of a node that nothing is wrong with. -/
theorem judge_of_isValid (h : ctx.judge n children = .ok c) (hv : c.isValid = true) :
    (∃ v, n.expr = .const v ∧ c = ⟨.leaf v.dataType, .constant, []⟩) ∨
    (∃ path f, n.expr = .field path ∧ ctx.schema.resolve? path = some f ∧
      c = ⟨.leaf f.dataType, .row, []⟩) ∨
    ∃ r level, c = ⟨.resolved r, level, children⟩ ∧ ctx.Resolves children r level n.expr.head := by
  rcases judge_cases h with hconst | ⟨path, hn, rfl⟩ | ⟨diagnostic, level, rfl⟩ | hresolved
  · exact Or.inl hconst
  · obtain ⟨f, hf, hc⟩ := checkField_of_isValid hv
    exact Or.inr (Or.inl ⟨path, f, hn, hf, hc⟩)
  · cases hv
  · exact Or.inr (Or.inr hresolved)

/-! ## Layers that resolve -/

/-- Nothing is wrong with the operands of a layer that resolves. -/
theorem Resolves.isValid_children {e : Expr Unit} (h : ctx.Resolves children r level e) :
    ∀ d ∈ children, d.isValid = true := by
  cases e with
  | const v => cases h
  | field path => cases h
  | aggregate g args => exact fun d hd => (h.2.1 d hd).1
  | _ => exact h.1.1

/-- The levels of the operands of a layer other than an aggregate function combine. -/
theorem Resolves.combine {e : Expr Unit} (h : ctx.Resolves children r level e)
    (he : ∀ g args, e ≠ .aggregate g args) : Checked.Combine children level := by
  cases e with
  | const v => cases h
  | field path => cases h
  | aggregate g args => exact absurd rfl (he g args)
  | _ => exact h.1

/-- A layer resolves to a rule of the table, unless it is a conditional. -/
theorem Resolves.mem_rules {e : Expr Unit} (h : ctx.Resolves children r level e) :
    r ∈ ctx.rules.rules ∨ ctx.rules.IsConditional (Checked.operandTypes children) r := by
  cases e with
  | const v => cases h
  | field path => cases h
  | ifElse a p b => exact Or.inr h.2
  | aggregate g args => exact Or.inl (RuleTable.mem_rules_of_resolve h.2.2)
  | _ => exact Or.inl (RuleTable.mem_rules_of_resolve h.2)

/-! ## The operands of a checked expression -/

/-- Judging an expression keeps the results for its operands. -/
theorem judge_children
    (hchildren : List.Forall₂ (fun m d => ctx.check m = .ok d) n.children children)
    (h : ctx.judge n children = .ok c) : c.children = children := by
  rcases judge_cases h with ⟨v, hn, rfl⟩ | ⟨path, hn, rfl⟩ | ⟨diagnostic, level, rfl⟩ |
    ⟨r, level, rfl, -⟩
  · rw [Node.children, hn] at hchildren
    cases hchildren
    rfl
  · rw [Node.children, hn] at hchildren
    cases hchildren
    unfold checkField
    split <;> rfl
  · rfl
  · rfl

/-- The results for the operands of an expression are those of checking the operands alone. -/
theorem check_children (h : ctx.check n = .ok c) :
    List.Forall₂ (fun m d => ctx.check m = .ok d) n.children c.children := by
  obtain ⟨-, children, hchildren, hjudge⟩ := check_eq_ok_iff.1 h
  rwa [judge_children hchildren hjudge]

/-- An expression is judged by the results for its operands. -/
theorem judge_of_check (h : ctx.check n = .ok c) : ctx.judge n c.children = .ok c := by
  obtain ⟨-, children, hchildren, hjudge⟩ := check_eq_ok_iff.1 h
  rwa [judge_children hchildren hjudge]

/-- The operands of a valid expression are valid. -/
theorem isValid_children (h : ctx.check n = .ok c) (hv : c.isValid = true) :
    ∀ d ∈ c.children, d.isValid = true := by
  rcases judge_of_isValid (judge_of_check h) hv with ⟨v, -, rfl⟩ | ⟨path, f, -, -, rfl⟩ |
    ⟨r, level, -, hresolves⟩
  · simp
  · simp
  · exact hresolves.isValid_children

/-- The arguments of a valid aggregate function are not about groups of rows. -/
theorem level_children_of_aggregate {g : Aggregate} {args : List Node} (h : ctx.check n = .ok c)
    (hv : c.isValid = true) (hn : n.expr = .aggregate g args) :
    ∀ d ∈ c.children, d.level.isAggregated = false := by
  rcases judge_of_isValid (judge_of_check h) hv with ⟨v, hv, -⟩ | ⟨path, f, hf, -, -⟩ |
    ⟨r, level, -, hresolves⟩
  · simp [hn] at hv
  · simp [hn] at hf
  · rw [hn] at hresolves
    exact fun d hd => (hresolves.2.1 d hd).2

/-- All nodes of a valid expression are valid. -/
theorem exists_check_of_mem_preorder {m : Node} (h : ctx.check n = .ok c) (hv : c.isValid = true)
    (hm : m ∈ n.preorder) : ∃ d, ctx.check m = .ok d ∧ d.isValid = true := by
  induction n using Node.induction generalizing c with
  | step n ih =>
    rcases Node.mem_preorder_iff.1 hm with rfl | ⟨child, hchild, hm⟩
    · exact ⟨c, h, hv⟩
    · obtain ⟨d, hd, hcheck⟩ := exists_of_forall₂_of_mem (check_children h) hchild
      exact ih child hchild hcheck (isValid_children h hv d hd) hm

/-- Every field of a valid expression exists. -/
theorem resolve?_of_mem_preorder {m : Node} {path : String} (h : ctx.check n = .ok c)
    (hv : c.isValid = true) (hm : m ∈ n.preorder) (hfield : m.expr = .field path) :
    ∃ f, ctx.schema.resolve? path = some f := by
  obtain ⟨d, hd, hdv⟩ := exists_check_of_mem_preorder h hv hm
  rcases judge_of_isValid (judge_of_check hd) hdv with ⟨v, hv, -⟩ | ⟨path', f, hf, hresolve, -⟩ |
    ⟨r, level, -, hresolves⟩
  · simp [hfield] at hv
  · cases hfield.symm.trans hf
    exact ⟨f, hresolve⟩
  · rw [hfield] at hresolves
    cases hresolves

end Context

/-! ## Levels -/

namespace Level

/-- Levels that combine to one that is not aggregated are not aggregated themselves. -/
theorem combine_isAggregated_eq_false {a b l : Level} (h : a.combine b = some l)
    (hl : l.isAggregated = false) : a.isAggregated = false ∧ b.isAggregated = false := by
  cases a <;> cases b <;> cases h <;> simp_all [isAggregated]

theorem combineAll_append_singleton (levels : List Level) (b : Level) :
    combineAll (levels ++ [b]) = (combineAll levels).bind (·.combine b) := by
  rw [combineAll, List.foldl_append]
  rfl

theorem combineAll_isAggregated_eq_false {levels : List Level} {l : Level}
    (h : combineAll levels = some l) (hl : l.isAggregated = false) :
    ∀ a ∈ levels, a.isAggregated = false := by
  -- the induction is on the levels from the last one on, which is combined with all before it
  induction levels using List.reverseRecOn generalizing l with
  | nil => simp
  | append_singleton levels b ih =>
    rw [combineAll_append_singleton] at h
    obtain ⟨a, ha, hab⟩ := Option.bind_eq_some_iff.1 h
    obtain ⟨hal, hbl⟩ := combine_isAggregated_eq_false hab hl
    intro x hx
    rcases List.mem_append.1 hx with hx | hx
    · exact ih ha hal x hx
    · rw [List.mem_singleton.1 hx]
      exact hbl

end Level

/-- A valid expression that is not about groups of rows contains no aggregate function. -/
theorem Context.not_isAggregate_of_mem_preorder {ctx : Context} {n m : Node} {c : Checked}
    (h : ctx.check n = .ok c) (hv : c.isValid = true) (hlevel : c.level.isAggregated = false)
    (hm : m ∈ n.preorder) : ¬ m.IsAggregate := by
  induction n using Node.induction generalizing c with
  | step n ih =>
    have hlevels : ¬ n.IsAggregate ∧ ∀ d ∈ c.children, d.level.isAggregated = false := by
      rcases judge_of_isValid (judge_of_check h) hv with ⟨v, hn, rfl⟩ | ⟨path, f, hn, -, rfl⟩ |
        ⟨r, level, hc, hresolves⟩
      · exact ⟨by simp [Node.IsAggregate, hn], by simp⟩
      · exact ⟨by simp [Node.IsAggregate, hn], by simp⟩
      · have hlevel : level.isAggregated = false := by
          rw [hc] at hlevel
          exact hlevel
        have hn : ¬ n.IsAggregate := by
          rintro ⟨g, args, hn⟩
          rw [hn] at hresolves
          rw [hresolves.1] at hlevel
          cases hlevel
        have hcombine := hresolves.combine fun g args he => hn (Node.isAggregate_of_head_eq he)
        refine ⟨hn, fun d hd => ?_⟩
        exact Level.combineAll_isAggregated_eq_false hcombine.2 hlevel _ (List.mem_map_of_mem hd)
    rcases Node.mem_preorder_iff.1 hm with rfl | ⟨child, hchild, hm⟩
    · exact hlevels.1
    · obtain ⟨d, hd, hcheck⟩ := exists_of_forall₂_of_mem (check_children h) hchild
      exact ih child hchild hcheck (isValid_children h hv d hd) (hlevels.2 d hd) hm

end TypedSql
