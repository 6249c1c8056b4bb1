import TypedSql.Proofs.Findings

/-!
# What checking refuses

Every call resolves, so judging a node by the results for its operands never fails. The only thing
that checking refuses is an aggregate function with the wrong number of arguments. A node is looked
at before its operands, and these from left to right until one of them is refused; what an
expression is refused for is therefore its first aggregate function of this kind.
-/

namespace TypedSql

namespace Node

/-- Whether a node calls an aggregate function with a number of arguments other than one. -/
def IsMalformed (n : Node) : Prop := ∃ g args, n.expr = .aggregate g args ∧ args.length ≠ 1

/-- What a node is refused for, whatever its operands are. -/
def fault? (n : Node) : Option Fault :=
  match n.expr with
  | .aggregate g args =>
    if args.length = g.arity then none else some (.malformedAggregate g args.length n.source)
  | _ => none

theorem fault?_eq_some_iff {n : Node} {fault : Fault} :
    n.fault? = some fault ↔
      ∃ g args, n.expr = .aggregate g args ∧ args.length ≠ g.arity ∧
        fault = .malformedAggregate g args.length n.source := by
  unfold fault?
  split
  · rename_i g args hn
    by_cases harity : args.length = g.arity
    · simp [hn, harity]
    · simp [hn, harity, eq_comm]
  · rename_i hn
    simp only [reduceCtorEq, false_iff]
    rintro ⟨g, args, hexpr, -⟩
    exact hn g args hexpr

theorem fault?_eq_none_iff {n : Node} : n.fault? = none ↔ ¬ n.IsMalformed := by
  rw [Option.eq_none_iff_forall_ne_some]
  constructor
  · rintro h ⟨g, args, hn, hlength⟩
    exact h _ (fault?_eq_some_iff.2 ⟨g, args, hn, hlength, rfl⟩)
  · intro h fault hfault
    obtain ⟨g, args, hn, hlength, -⟩ := fault?_eq_some_iff.1 hfault
    exact h ⟨g, args, hn, hlength⟩

end Node

namespace Context

variable {ctx : Context} {n : Node}

/-! ## Nothing else is refused -/

theorem exists_resolveCall (ctx : Context) (n : Node) (operator : Operator) (name : Option String)
    (level : Level) (children : List Checked) :
    ∃ c, ctx.resolveCall n operator name level children = .ok c := by
  obtain ⟨resolution, hresolve⟩ :=
    ctx.rules.exists_resolve operator name (Checked.operandTypes children)
  simp only [resolveCall, hresolve]
  cases resolution with
  | rule r => exact ⟨_, rfl⟩
  | noMatch => exact ⟨_, rfl⟩
  | unknownName => exact ⟨_, rfl⟩

theorem exists_checkCall (ctx : Context) (n : Node) (operator : Operator) (name : Option String)
    (children : List Checked) : ∃ c, ctx.checkCall n operator name children = .ok c := by
  unfold checkCall
  split
  · exact ⟨_, rfl⟩
  · exact ctx.exists_resolveCall n operator name _ children

theorem exists_checkAggregate (ctx : Context) (n : Node) (g : Aggregate) (children : List Checked) :
    ∃ c, ctx.checkAggregate n g children = .ok c := by
  unfold checkAggregate
  split
  · exact ⟨_, rfl⟩
  · split
    · exact ⟨_, rfl⟩
    · exact ctx.exists_resolveCall n (.aggregate g) none _ children

theorem exists_checkConditional (ctx : Context) (n : Node) (children : List Checked) :
    ∃ c, ctx.checkConditional n children = .ok c := by
  unfold checkConditional
  split
  · exact ⟨_, rfl⟩
  · simp only [resolveConditional]
    split
    · rename_i value condition other _
      obtain ⟨truth, htruth⟩ := ctx.rules.exists_truth condition
      simp only [htruth]
      split
      · exact ⟨_, rfl⟩
      · exact ⟨_, rfl⟩
    · exact ⟨_, rfl⟩

theorem exists_judge (ctx : Context) (n : Node) (children : List Checked) :
    ∃ c, ctx.judge n children = .ok c := by
  unfold judge
  cases n.expr.head with
  | const v => exact ⟨_, rfl⟩
  | field path => exact ⟨_, rfl⟩
  | ifElse a p b => exact ctx.exists_checkConditional n children
  | aggregate g args => exact ctx.exists_checkAggregate n g children
  | _ => exact ctx.exists_checkCall n _ _ children

/-! ## The first malformed node -/

/-- A node is refused for itself, or else for the first operand that is refused. -/
theorem error?_check_eq (ctx : Context) (n : Node) :
    error? (ctx.check n) = n.fault?.or (n.children.findSome? fun m => error? (ctx.check m)) := by
  cases hfault : n.fault? with
  | some fault =>
    obtain ⟨g, args, hn, hlength, rfl⟩ := Node.fault?_eq_some_iff.1 hfault
    rw [check_of_length_ne hn hlength]
    rfl
  | none =>
    have harity : n.HasArity := by
      intro g args hn
      by_contra hlength
      exact Node.fault?_eq_none_iff.1 hfault ⟨g, args, hn, hlength⟩
    rw [check_of_hasArity harity, error?_bind (ctx.exists_judge n), error?_mapM]
    rfl

theorem error?_check (ctx : Context) (n : Node) :
    error? (ctx.check n) = n.preorder.findSome? Node.fault? := by
  induction n using Node.induction with
  | step n ih =>
    rw [error?_check_eq, Node.findSome?_preorder, findSome?_congr ih]

/-- Checking fails if and only if there is an aggregate function with a number of arguments other
than one. Then the fault names the first such function, the number of its arguments and its source.
If there is none, then checking gives a result, in which exactly one finding is right for each
node. -/
theorem check_fails_iff_malformed (ctx : Context) (n : Node) :
    ((∃ fault, ctx.check n = .error fault) ↔ ∃ m ∈ n.preorder, m.IsMalformed) ∧
      (∀ fault, ctx.check n = .error fault →
        ∃ before m after g args, n.preorder = before ++ m :: after ∧
          (∀ k ∈ before, ¬ k.IsMalformed) ∧ m.expr = .aggregate g args ∧ args.length ≠ 1 ∧
          fault = .malformedAggregate g args.length m.source) ∧
      ((∀ m ∈ n.preorder, ¬ m.IsMalformed) →
        ∃ c, ctx.check n = .ok c ∧
          n.Everywhere (fun m d => ∃! finding, ctx.Finds m d finding) c) := by
  have hok : (∃ c, ctx.check n = .ok c) ↔ ∀ m ∈ n.preorder, ¬ m.IsMalformed := by
    rw [← error?_eq_none_iff, error?_check, List.findSome?_eq_none_iff]
    simp only [Node.fault?_eq_none_iff]
  refine ⟨?_, ?_, ?_⟩
  · rw [exists_error_iff, hok]
    push Not
    rfl
  · intro fault hfault
    rw [← error?_eq_some_iff, error?_check, List.findSome?_eq_some_iff] at hfault
    obtain ⟨before, m, after, hpreorder, hm, hbefore⟩ := hfault
    obtain ⟨g, args, hn, hlength, rfl⟩ := Node.fault?_eq_some_iff.1 hm
    refine ⟨before, m, after, g, args, hpreorder, ?_, hn, hlength, rfl⟩
    intro k hk
    exact Node.fault?_eq_none_iff.1 (hbefore k hk)
  · intro hnone
    obtain ⟨c, hc⟩ := hok.2 hnone
    exact ⟨c, hc, everywhere_of_check (fun m d hd => existsUnique_finds hd) hc⟩

end Context

end TypedSql
