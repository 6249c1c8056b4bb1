import TypedSql.Proofs.Checking

/-!
# What is found at each node

Checking gives a result to every node of an expression, and that result is the one that checking the
node by itself would give. What is found at a node is settled by the first of these questions that
applies: is it a constant or a field, are all operands valid, do their levels go together, is the
name known, and is there a rule for the types of the operands.
-/

namespace TypedSql

/-- What checking can find at a node. -/
inductive Finding where
  /-- A constant or a field of the schema. -/
  | leaf
  /-- There is a rule for the operands. -/
  | resolved
  | wrong (kind : DiagnosticKind)
  deriving DecidableEq

/-- What a verdict says that was found. -/
def Verdict.finding : Verdict → Finding
  | leaf _ => .leaf
  | resolved _ => .resolved
  | failed d => .wrong d.kind

/-! ## What may be found -/

/-- The operator and the name under which a layer has rules. Constants and fields need no rule, and
the rule of a conditional is made up for it. -/
def Expr.key? {α : Type} : Expr α → Option (Operator × Option String)
  | const _ | field _ | ifElse _ _ _ => none
  | unary op _ => some (.unary op, none)
  | binary op _ _ => some (.binary op, none)
  | func name _ => some (.func, some name)
  | meth _ name _ => some (.meth, some name)
  | attr _ name => some (.attr, some name)
  | aggregate g _ => some (.aggregate g, none)

namespace Node

/-- Whether a node is neither a constant nor a field. -/
def IsComposite (n : Node) : Prop := (∀ v, n.expr ≠ .const v) ∧ ∀ path, n.expr ≠ .field path

/-- Whether an aggregate function has an argument that is about groups of rows itself. -/
def Nests (n : Node) (children : List Checked) : Prop :=
  n.IsAggregate ∧ ∃ d ∈ children, d.level.isAggregated = true

/-- Whether the levels of the operands of anything but an aggregate function do not combine. -/
def Mixes (n : Node) (children : List Checked) : Prop :=
  ¬ n.IsAggregate ∧ Level.combineAll (children.map (·.level)) = none

/-- Whether nothing is wrong with the operands of a node, neither by themselves nor together, so
that only a rule is needed. -/
structure InOrder (n : Node) (children : List Checked) : Prop where
  composite : n.IsComposite
  valid : ∀ d ∈ children, d.isValid = true
  not_nests : ¬ n.Nests children
  not_mixes : ¬ n.Mixes children

end Node

namespace Context

/-- Whether a node calls something by a name that no rule has. -/
def LacksName (ctx : Context) (n : Node) : Prop :=
  ∃ operator name, n.expr.key? = some (operator, some name) ∧
    ∀ r ∈ ctx.rules.rules, r.key ≠ (operator, some name)

/-- Whether there is no rule for operands of the given types: no rule of the table admits them or,
for a conditional, its branches have no common type or its condition is of a type without truth. -/
def LacksRule (ctx : Context) (n : Node) (types : List DataType) : Prop :=
  match n.expr.key? with
  | some (operator, name) => ∀ r ∈ ctx.rules.rules, ¬ r.Admits operator name types
  | none => ∃ value condition other, types = [value, condition, other] ∧
      (value.widen other = none ∨ ctx.rules.truth condition = .ok none)

/-- Whether a rule is the one for operands of the given types: the narrowest rule of the table that
admits them or, for a conditional, the one that is made up from the truth of its condition. -/
def HasRule (ctx : Context) (n : Node) (types : List DataType) (r : Rule) : Prop :=
  match n.expr.key? with
  | some (operator, name) => ctx.rules.IsNarrowest operator name types r
  | none => ctx.rules.IsConditional types r

/-- Whether a finding is right for a node with the given result. -/
def Finds (ctx : Context) (n : Node) (c : Checked) : Finding → Prop
  | .leaf =>
    (∃ v, n.expr = .const v ∧ c.verdict = .leaf v.dataType) ∨
      ∃ path f, n.expr = .field path ∧ ctx.schema.resolve? path = some f ∧
        c.verdict = .leaf f.dataType
  | .wrong .unknownField =>
    ∃ path, n.expr = .field path ∧ ctx.schema.resolve? path = none ∧
      c.verdict = .failed (n.unknownField path)
  | .wrong .operandErrors =>
    n.IsComposite ∧ (∃ d ∈ c.children, d.isValid = false) ∧ c.verdict = .failed n.operandErrors
  | .wrong .nestedAggregate =>
    (∀ d ∈ c.children, d.isValid = true) ∧ n.Nests c.children ∧
      c.verdict = .failed n.nestedAggregate
  | .wrong .mixedLevels =>
    n.IsComposite ∧ (∀ d ∈ c.children, d.isValid = true) ∧ n.Mixes c.children ∧
      c.verdict = .failed n.mixedLevels
  | .wrong .unknownName =>
    n.InOrder c.children ∧ ctx.LacksName n ∧ c.verdict = .failed n.unknownName
  | .wrong .operandTypes =>
    n.InOrder c.children ∧ ¬ ctx.LacksName n ∧
      ctx.LacksRule n (Checked.operandTypes c.children) ∧
      c.verdict = .failed (n.operandTypes (Checked.operandTypes c.children))
  | .wrong .aggregateCondition => False
  | .resolved =>
    n.InOrder c.children ∧ ∃ r, ctx.HasRule n (Checked.operandTypes c.children) r ∧
      r.accepts (Checked.operandTypes c.children) = true ∧ c.verdict = .resolved r

variable {ctx : Context} {n : Node} {c : Checked} {children : List Checked}

/-- A finding can be read off the verdict, so no two findings are right for one result. -/
theorem Finds.eq_finding {finding : Finding} (h : ctx.Finds n c finding) :
    finding = c.verdict.finding := by
  cases finding with
  | leaf =>
    rcases h with ⟨v, -, hc⟩ | ⟨path, f, -, -, hc⟩
    · rw [hc]; rfl
    · rw [hc]; rfl
  | resolved =>
    obtain ⟨-, r, -, -, hc⟩ := h
    rw [hc]; rfl
  | wrong kind =>
    cases kind with
    | unknownField =>
      obtain ⟨path, -, -, hc⟩ := h
      rw [hc]; rfl
    | operandErrors =>
      obtain ⟨-, -, hc⟩ := h
      rw [hc]; rfl
    | nestedAggregate =>
      obtain ⟨-, -, hc⟩ := h
      rw [hc]; rfl
    | mixedLevels =>
      obtain ⟨-, -, -, hc⟩ := h
      rw [hc]; rfl
    | unknownName =>
      obtain ⟨-, -, hc⟩ := h
      rw [hc]; rfl
    | operandTypes =>
      obtain ⟨-, -, -, hc⟩ := h
      rw [hc]; rfl
    | aggregateCondition => exact h.elim

/-! ## What is found -/

/-- What is wrong with the operands of a node other than an aggregate function settles what is found
at the node. -/
theorem operandLevel_finds (ctx : Context) (children : List Checked) (hcomposite : n.IsComposite)
    (haggregate : ¬ n.IsAggregate) :
    (∃ level d, operandLevel n children = (level, some d) ∧
      ∃ finding, ctx.Finds n ⟨.failed d, level, children⟩ finding) ∨
    ∃ level, operandLevel n children = (level, none) ∧ n.InOrder children := by
  unfold operandLevel
  by_cases hvalid : ∀ d ∈ children, d.isValid = true
  · have hany : ¬ (children.any fun d => !d.isValid) = true := by simpa using hvalid
    simp only [if_neg hany]
    cases hlevel : Level.combineAll (children.map (·.level)) with
    | none =>
      exact Or.inl ⟨_, _, rfl, .wrong .mixedLevels, hcomposite, hvalid, ⟨haggregate, hlevel⟩, rfl⟩
    | some level =>
      have hnests : ¬ n.Nests children := fun hnests => haggregate hnests.1
      have hmixes : ¬ n.Mixes children := by
        rintro ⟨-, hnone⟩
        rw [hlevel] at hnone
        cases hnone
      exact Or.inr ⟨_, rfl, hcomposite, hvalid, hnests, hmixes⟩
  · have hinvalid : ∃ d ∈ children, d.isValid = false := by simpa using hvalid
    have hany : (children.any fun d => !d.isValid) = true := by simpa using hinvalid
    simp only [if_pos hany]
    exact Or.inl ⟨_, _, rfl, .wrong .operandErrors, hcomposite, hinvalid, rfl⟩

section Rules

variable {operator : Operator} {name : Option String} {level : Level}

/-- A node whose operands are in order is settled by the rules of the table. -/
theorem resolveCall_finds (hkey : n.expr.key? = some (operator, name))
    (horder : n.InOrder children)
    (h : ctx.resolveCall n operator name level children = .ok c) :
    ∃ finding, ctx.Finds n c finding := by
  set types := Checked.operandTypes children with htypes
  by_cases hrule : ∃ r, r ∈ ctx.rules.accepting operator name types
  · obtain ⟨r, hr⟩ := RuleTable.exists_isNarrowest hrule
    have hresolve := RuleTable.resolve_of_isNarrowest hr
    simp only [resolveCall, ← htypes, hresolve] at h
    cases h
    have haccepts : r.accepts types = true := widenAll_iff.2 (RuleTable.mem_accepting.1 hr.1).2.2
    refine ⟨.resolved, horder, r, ?_, haccepts, rfl⟩
    rw [HasRule, hkey]
    exact hr
  · have hresolve := RuleTable.resolve_of_accepting_eq_nil hrule
    have hlacks : ctx.LacksRule n types := by
      rw [LacksRule, hkey]
      intro r hr hadmits
      exact hrule ⟨r, RuleTable.mem_accepting_iff_admits.2 ⟨hr, hadmits⟩⟩
    have hname : ctx.LacksName n ↔
        name.isSome ∧ ∀ r ∈ ctx.rules.rules, r.key ≠ (operator, name) := by
      unfold LacksName
      rw [hkey]
      cases name with
      | none => simp
      | some name => simp
    by_cases hunknown : name.isSome ∧ ∀ r ∈ ctx.rules.rules, r.key ≠ (operator, name)
    · simp only [resolveCall, ← htypes, hresolve, if_pos hunknown] at h
      cases h
      exact ⟨.wrong .unknownName, horder, hname.2 hunknown, rfl⟩
    · simp only [resolveCall, ← htypes, hresolve, if_neg hunknown] at h
      cases h
      exact ⟨.wrong .operandTypes, horder, hname.not.2 hunknown, hlacks, rfl⟩

theorem checkCall_finds (hcomposite : n.IsComposite) (haggregate : ¬ n.IsAggregate)
    (hkey : n.expr.key? = some (operator, name))
    (h : ctx.checkCall n operator name children = .ok c) : ∃ finding, ctx.Finds n c finding := by
  rcases operandLevel_finds ctx children hcomposite haggregate with
    ⟨level, d, hlevel, hfinds⟩ | ⟨level, hlevel, horder⟩
  · simp only [checkCall, hlevel] at h
    cases h
    exact hfinds
  · simp only [checkCall, hlevel] at h
    exact resolveCall_finds hkey horder h

/-- The rule of a conditional accepts the types that it was made up for. -/
theorem accepts_of_isConditional {types : List DataType} {r : Rule}
    (h : ctx.rules.IsConditional types r) : r.accepts types = true := by
  obtain ⟨value, condition, other, result, truth, rfl, -, -, rfl⟩ := h
  exact widenAll_iff.2 (Narrower.refl [value, condition, other])

theorem resolveConditional_finds (hkey : n.expr.key? = none) (hlength : children.length = 3)
    (horder : n.InOrder children) (h : ctx.resolveConditional n level children = .ok c) :
    ∃ finding, ctx.Finds n c finding := by
  have hname : ¬ ctx.LacksName n := by
    rintro ⟨operator, name, hsome, -⟩
    rw [hkey] at hsome
    cases hsome
  have hthree : (Checked.operandTypes children).length = 3 := by
    rw [Checked.length_operandTypes horder.valid, hlength]
  obtain ⟨value, condition, other, htypes⟩ := List.length_eq_three.1 hthree
  obtain ⟨truth, htruth⟩ := ctx.rules.exists_truth condition
  simp only [resolveConditional, htypes, htruth] at h
  by_cases hrule : ∃ result template, value.widen other = some result ∧ truth = some template
  · obtain ⟨result, template, hwiden, rfl⟩ := hrule
    simp only [hwiden] at h
    cases h
    have hconditional : ctx.rules.IsConditional (Checked.operandTypes children)
        (conditionalRule result [value, condition, other] template) := by
      rw [htypes]
      exact ⟨value, condition, other, result, template, rfl, htruth, hwiden, rfl⟩
    refine ⟨.resolved, horder, _, ?_, accepts_of_isConditional hconditional, rfl⟩
    rw [HasRule, hkey]
    exact hconditional
  · have hlacks : value.widen other = none ∨ ctx.rules.truth condition = .ok none := by
      cases hwiden : value.widen other with
      | none => exact Or.inl rfl
      | some result =>
        cases truth with
        | none => exact Or.inr htruth
        | some template => exact absurd ⟨result, template, hwiden, rfl⟩ hrule
    have hc : c = ⟨.failed (n.operandTypes [value, condition, other]), level, children⟩ := by
      split at h
      · rename_i result template hwiden
        exact absurd ⟨result, template, hwiden, rfl⟩ hrule
      · exact (Except.ok.inj h).symm
    refine ⟨.wrong .operandTypes, ?_⟩
    rw [hc]
    refine ⟨horder, hname, ?_, by rw [htypes]⟩
    rw [LacksRule, hkey]
    exact ⟨value, condition, other, htypes, hlacks⟩

theorem checkConditional_finds (hcomposite : n.IsComposite) (haggregate : ¬ n.IsAggregate)
    (hkey : n.expr.key? = none) (hlength : children.length = 3)
    (h : ctx.checkConditional n children = .ok c) : ∃ finding, ctx.Finds n c finding := by
  rcases operandLevel_finds ctx children hcomposite haggregate with
    ⟨level, d, hlevel, hfinds⟩ | ⟨level, hlevel, horder⟩
  · simp only [checkConditional, hlevel] at h
    cases h
    exact hfinds
  · simp only [checkConditional, hlevel] at h
    exact resolveConditional_finds hkey hlength horder h

theorem checkAggregate_finds {g : Aggregate} {args : List Node} (hn : n.expr = .aggregate g args)
    (h : ctx.checkAggregate n g children = .ok c) : ∃ finding, ctx.Finds n c finding := by
  have haggregate : n.IsAggregate := ⟨g, args, hn⟩
  have hcomposite : n.IsComposite := by simp [Node.IsComposite, hn]
  have hkey : n.expr.key? = some (.aggregate g, none) := by rw [hn]; rfl
  unfold checkAggregate at h
  split at h
  · rename_i hany
    cases h
    have hinvalid : ∃ d ∈ children, d.isValid = false := by simpa using hany
    exact ⟨.wrong .operandErrors, hcomposite, hinvalid, rfl⟩
  · rename_i hany
    have hvalid : ∀ d ∈ children, d.isValid = true := by simpa using hany
    split at h
    · rename_i hnested
      cases h
      have hnested : ∃ d ∈ children, d.level.isAggregated = true := by simpa using hnested
      exact ⟨.wrong .nestedAggregate, hvalid, ⟨haggregate, hnested⟩, rfl⟩
    · rename_i hnested
      have hnests : ¬ n.Nests children := by
        rintro ⟨-, hnests⟩
        exact hnested (by simpa using hnests)
      have hmixes : ¬ n.Mixes children := fun hmixes => hmixes.1 haggregate
      exact resolveCall_finds hkey ⟨hcomposite, hvalid, hnests, hmixes⟩ h

end Rules

theorem checkField_finds {path : String} (hn : n.expr = .field path) :
    ∃ finding, ctx.Finds n (ctx.checkField n path) finding := by
  unfold checkField
  split
  · rename_i f hf
    exact ⟨.leaf, Or.inr ⟨path, f, hn, hf, rfl⟩⟩
  · rename_i hf
    exact ⟨.wrong .unknownField, path, hn, hf, rfl⟩

/-- Something is found at every node, whatever its operands are like. -/
theorem judge_finds (hlength : children.length = n.children.length)
    (h : ctx.judge n children = .ok c) : ∃ finding, ctx.Finds n c finding := by
  obtain ⟨e, origin⟩ := n
  cases e with
  | const v =>
    cases h
    exact ⟨.leaf, Or.inl ⟨v, rfl, rfl⟩⟩
  | field path =>
    cases h
    exact checkField_finds rfl
  | ifElse a p b =>
    exact checkConditional_finds (by simp [Node.IsComposite]) (by simp [Node.IsAggregate]) rfl
      hlength h
  | aggregate g args => exact checkAggregate_finds rfl h
  | _ => exact checkCall_finds (by simp [Node.IsComposite]) (by simp [Node.IsAggregate]) rfl h

/-- One thing is found at a checked node. -/
theorem existsUnique_finds (h : ctx.check n = .ok c) : ∃! finding, ctx.Finds n c finding := by
  have hlength : c.children.length = n.children.length := (check_children h).length_eq.symm
  obtain ⟨finding, hfinds⟩ := judge_finds hlength (judge_of_check h)
  refine ⟨finding, hfinds, ?_⟩
  intro other hother
  rw [hother.eq_finding, hfinds.eq_finding]

end Context

/-! ## The whole tree -/

/-- Whether a checked tree has the shape of an expression, and a property holds of every node and
the result at its place. -/
inductive Node.Everywhere (P : Node → Checked → Prop) : Node → Checked → Prop
  | node {n : Node} {c : Checked} :
    P n c → List.Forall₂ (Node.Everywhere P) n.children c.children → Node.Everywhere P n c

theorem Checked.mem_preorder_iff {c d : Checked} :
    d ∈ c.preorder ↔ d = c ∨ ∃ child ∈ c.children, d ∈ child.preorder := by
  have hlist : ∀ cs : List Checked, d ∈ preorderList cs ↔ ∃ child ∈ cs, d ∈ child.preorder := by
    intro cs
    induction cs with
    | nil => simp [preorderList]
    | cons child cs ih => simp [preorderList, ih]
  obtain ⟨verdict, level, children⟩ := c
  rw [preorder, List.mem_cons, hlist]

namespace Context

variable {ctx : Context} {n : Node} {c d : Checked}

/-- A property of every node that can be checked holds everywhere. -/
theorem everywhere_of_check {P : Node → Checked → Prop}
    (hP : ∀ m d, ctx.check m = .ok d → P m d) (h : ctx.check n = .ok c) : n.Everywhere P c := by
  induction n using Node.induction generalizing c with
  | step n ih =>
    refine .node (hP n c h) (forall₂_imp_of_mem (check_children h) ?_)
    intro m hm d _ hcheck
    exact ih m hm hcheck

theorem isValid_of_mem_preorder (h : ctx.check n = .ok c) (hv : c.isValid = true)
    (hd : d ∈ c.preorder) : d.isValid = true := by
  induction n using Node.induction generalizing c with
  | step n ih =>
    rcases Checked.mem_preorder_iff.1 hd with rfl | ⟨child, hchild, hd⟩
    · exact hv
    · obtain ⟨m, hm, hcheck⟩ := exists_of_forall₂_of_mem (check_children h).flip hchild
      exact ih m hm hcheck (isValid_children h hv child hchild) hd

theorem exists_check_of_mem_checked (h : ctx.check n = .ok c) (hd : d ∈ c.preorder) :
    ∃ m, ctx.check m = .ok d := by
  induction n using Node.induction generalizing c with
  | step n ih =>
    rcases Checked.mem_preorder_iff.1 hd with rfl | ⟨child, hchild, hd⟩
    · exact ⟨n, h⟩
    · obtain ⟨m, hm, hcheck⟩ := exists_of_forall₂_of_mem (check_children h).flip hchild
      exact ih m hm hcheck hd

/-- The result of checking an expression has the shape of the expression. At the place of each node
stands what checking that node by itself gives, and exactly one finding is right there. A node has
no type if and only if something is wrong with it, and below a valid node everything is valid. -/
theorem check_finds_one (h : ctx.check n = .ok c) :
    n.Everywhere (fun m d => ctx.check m = .ok d ∧ ∃! finding, ctx.Finds m d finding) c ∧
      ∀ d ∈ c.preorder,
        (d.dataType? = none ↔ ∃ diagnostic, d.diagnostic? = some diagnostic) ∧
        (d.isValid = true → ∀ e ∈ d.preorder, e.isValid = true) := by
  refine ⟨everywhere_of_check (fun m d hm => ⟨hm, existsUnique_finds hm⟩) h, ?_⟩
  intro d hd
  constructor
  · obtain ⟨verdict, level, children⟩ := d
    cases verdict <;> simp [Checked.dataType?, Checked.diagnostic?, Verdict.dataType?,
      Verdict.diagnostic?]
  · intro hv e he
    obtain ⟨m, hm⟩ := exists_check_of_mem_checked h hd
    exact isValid_of_mem_preorder hm hv he

/-- In `lower(x) + y` neither the function nor the second field is known, and the first field alone
is valid. -/
theorem check_finds_one_unknown :
    let ctx : Context := ⟨⟨[⟨"x", .int, none, none⟩]⟩, ⟨.oracle, [], rfl⟩, .inline⟩
    let x : Node := .ofExpr (.field "x")
    let y : Node := .ofExpr (.field "y")
    let call : Node := .ofExpr (.func "lower" [x])
    let sum : Node := .ofExpr (.binary .add call y)
    ∃ c, ctx.check sum = .ok c ∧
      c.preorder.map (fun d => d.verdict.finding) =
        [.wrong .operandErrors, .wrong .unknownName, .leaf, .wrong .unknownField] ∧
      sum.Everywhere (fun m d => ctx.check m = .ok d ∧ ∃! finding, ctx.Finds m d finding) c :=
  ⟨_, rfl, rfl, (check_finds_one rfl).1⟩

end Context

end TypedSql
