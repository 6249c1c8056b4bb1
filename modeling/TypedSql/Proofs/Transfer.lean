import TypedSql.Proofs.Checking

/-!
# Checking in another context

An expression that is valid in one context is valid in another one if the types of its fields there
are related to those here, and if related operands make calls resolve to related results. This holds
of any relation between types that constants, truth values and common types respect. Both the table
and the schema may change; the level of an expression never does.
-/

namespace TypedSql

variable {R : DataType → DataType → Prop}

/-- Whether a relation between types fits with what checking does without the rules of a table. -/
structure DataType.IsCompatible (R : DataType → DataType → Prop) : Prop where
  refl (t : DataType) : R t t
  /-- Only truth values are their own truth. -/
  eq_bool {t : DataType} (h : R .bool t) : t = .bool
  /-- The branches of a conditional keep a common type. -/
  exists_widen {a b a' b' t : DataType} (ha : R a a') (hb : R b b') (h : a.widen b = some t) :
    ∃ t', a'.widen b' = some t' ∧ R t t'

/-- Whether every call that a table resolves resolves in another one for related operands, with a
related result. -/
def RuleTable.Carries (R : DataType → DataType → Prop) (t u : RuleTable) : Prop :=
  ∀ ⦃operator name types types' r⦄, List.Forall₂ R types types' →
    t.resolve operator name types = .ok (.rule r) →
    ∃ s, u.resolve operator name types' = .ok (.rule s) ∧ R r.result s.result

/-- Whether a result is valid, of a type that is related to that of another result, and about the
same. -/
structure Checked.Follows (R : DataType → DataType → Prop) (c d : Checked) : Prop where
  isValid : d.isValid = true
  dataType : ∃ t u, c.dataType? = some t ∧ d.dataType? = some u ∧ R t u
  level : d.level = c.level

/-! ## Operands -/

namespace Checked

variable {children children' : List Checked} {level : Level}

theorem operandTypes_of_follows (h : List.Forall₂ (Follows R) children children') :
    List.Forall₂ R (operandTypes children) (operandTypes children') := by
  induction h with
  | nil => exact .nil
  | cons hcd _ ih =>
    obtain ⟨t, u, ht, hu, htu⟩ := hcd.dataType
    unfold operandTypes at ih ⊢
    rw [List.filterMap_cons_some ht, List.filterMap_cons_some hu]
    exact .cons htu ih

theorem levels_of_follows (h : List.Forall₂ (Follows R) children children') :
    children'.map (·.level) = children.map (·.level) := by
  induction h with
  | nil => rfl
  | cons hcd _ ih => rw [List.map_cons, List.map_cons, hcd.level, ih]

theorem Combine.of_follows (hcombine : Combine children level)
    (h : List.Forall₂ (Follows R) children children') : Combine children' level := by
  refine ⟨?_, by rw [levels_of_follows h, hcombine.2]⟩
  intro d hd
  obtain ⟨c, -, hcd⟩ := exists_of_forall₂_of_mem h.flip hd
  exact hcd.isValid

end Checked

/-! ## Layers -/

section Tables

variable {t u : RuleTable} (hR : DataType.IsCompatible R) (h : t.Carries R u)

include hR h

theorem RuleTable.Carries.truth {type type' : DataType} (htype : R type type')
    {template : Template} (htruth : t.truth type = .ok (some template)) :
    ∃ template', u.truth type' = .ok (some template') := by
  unfold RuleTable.truth at htruth ⊢
  by_cases hbool' : type' = .bool
  · rw [if_pos hbool']
    exact ⟨_, rfl⟩
  have hbool : type ≠ .bool := by
    rintro rfl
    exact hbool' (hR.eq_bool htype)
  rw [if_neg hbool] at htruth
  rw [if_neg hbool']
  split at htruth
  · rename_i r hresolve
    obtain ⟨s, hs, -⟩ := h (.cons htype .nil) hresolve
    exact ⟨s.template, by rw [hs]⟩
  · cases htruth
  · cases htruth

theorem RuleTable.Carries.isConditional {types types' : List DataType}
    (htypes : List.Forall₂ R types types') {r : Rule} (hr : t.IsConditional types r) :
    ∃ s, u.IsConditional types' s ∧ R r.result s.result := by
  obtain ⟨value, condition, other, result, truth, rfl, htruth, hwiden, rfl⟩ := hr
  rcases htypes with _ | ⟨hvalue, _ | ⟨hcondition, _ | ⟨hother, ⟨⟩⟩⟩⟩
  obtain ⟨truth', htruth'⟩ := h.truth hR hcondition htruth
  obtain ⟨result', hwiden', hresult⟩ := hR.exists_widen hvalue hother hwiden
  exact ⟨_, ⟨_, _, _, result', truth', rfl, htruth', hwiden', rfl⟩, hresult⟩

end Tables

namespace Context

section Carries

variable {ctx ctx' : Context} (hR : DataType.IsCompatible R)
  (hrules : ctx.rules.Carries R ctx'.rules)

include hR hrules

theorem Resolves.of_carries {children children' : List Checked}
    (hfollows : List.Forall₂ (Checked.Follows R) children children') {r : Rule} {level : Level}
    {e : Expr Unit} (h : ctx.Resolves children r level e) :
    ∃ s, ctx'.Resolves children' s level e ∧ R r.result s.result := by
  have htypes := Checked.operandTypes_of_follows hfollows
  cases e with
  | const v => cases h
  | field path => cases h
  | ifElse a p b =>
    obtain ⟨s, hs, hresult⟩ := hrules.isConditional hR htypes h.2
    exact ⟨s, ⟨h.1.of_follows hfollows, hs⟩, hresult⟩
  | aggregate g args =>
    obtain ⟨hlevel, hoperands, hr⟩ := h
    obtain ⟨s, hs, hresult⟩ := hrules htypes hr
    refine ⟨s, ⟨hlevel, ?_, hs⟩, hresult⟩
    intro d hd
    obtain ⟨c, hc, hcd⟩ := exists_of_forall₂_of_mem hfollows.flip hd
    exact ⟨hcd.isValid, by rw [hcd.level, (hoperands c hc).2]⟩
  | _ =>
    obtain ⟨s, hs, hresult⟩ := hrules htypes h.2
    exact ⟨s, ⟨h.1.of_follows hfollows, hs⟩, hresult⟩

theorem exists_judge_of_carries {n : Node} {c : Checked} {children children' : List Checked}
    (hfield : ∀ path f, n.expr = .field path → ctx.schema.resolve? path = some f →
      ∃ f', ctx'.schema.resolve? path = some f' ∧ R f.dataType f'.dataType)
    (hfollows : List.Forall₂ (Checked.Follows R) children children')
    (h : ctx.judge n children = .ok c) (hv : c.isValid = true) :
    ∃ d, ctx'.judge n children' = .ok d ∧ c.Follows R d := by
  rcases judge_of_isValid h hv with ⟨v, hn, rfl⟩ | ⟨path, f, hn, hf, rfl⟩ |
    ⟨r, level, rfl, hresolves⟩
  · exact ⟨_, by rw [judge, hn]; rfl, rfl, ⟨_, _, rfl, rfl, hR.refl _⟩, rfl⟩
  · obtain ⟨f', hf', htype⟩ := hfield path f hn hf
    refine ⟨⟨.leaf f'.dataType, .row, []⟩, ?_, rfl, ⟨_, _, rfl, rfl, htype⟩, rfl⟩
    simp only [judge, hn, Expr.head, Expr.map, checkField, hf']
  · obtain ⟨s, hs, hresult⟩ := hresolves.of_carries hR hrules hfollows
    exact ⟨_, judge_of_resolves hs, rfl, ⟨_, _, rfl, rfl, hresult⟩, rfl⟩

/-- An expression that is valid in a context is valid in one where its fields have related types and
related operands give related results. -/
theorem exists_check_of_carries {n : Node} {c : Checked}
    (hfields : ∀ m ∈ n.preorder, ∀ path f, m.expr = .field path →
      ctx.schema.resolve? path = some f →
      ∃ f', ctx'.schema.resolve? path = some f' ∧ R f.dataType f'.dataType)
    (h : ctx.check n = .ok c) (hv : c.isValid = true) :
    ∃ d, ctx'.check n = .ok d ∧ c.Follows R d := by
  induction n using Node.induction generalizing c with
  | step n ih =>
    have hoperands : ∀ m ∈ n.children, ∀ b ∈ c.children, ctx.check m = .ok b →
        ∃ d, ctx'.check m = .ok d ∧ b.Follows R d := by
      intro m hm b hb hcheck
      refine ih m hm ?_ hcheck (isValid_children h hv b hb)
      intro k hk
      exact hfields k (Node.mem_preorder_iff.2 (Or.inr ⟨m, hm, hk⟩))
    obtain ⟨children', hchildren', hfollows⟩ :=
      exists_forall₂_of_forall₂ (check_children h) hoperands
    obtain ⟨d, hd, hcd⟩ := exists_judge_of_carries hR hrules (hfields n n.mem_preorder_self)
      hfollows (judge_of_check h) hv
    exact ⟨d, check_eq_ok_iff.2 ⟨(check_eq_ok_iff.1 h).1, children', hchildren', hd⟩, hcd⟩

end Carries

end Context

end TypedSql
