import Mathlib.Tactic.Choose
import TypedSql.Proofs.Builtins
import TypedSql.Proofs.Leaves
import TypedSql.Proofs.Outline

/-!
# Texts do not change the structure of SQL

The tokens of the SQL of an expression have a shape that depends on its outline alone. In the shape
the texts of the expression are open places, each of which names the constant that goes there; the
literal in that place decodes to the text of the constant. So whatever the texts are, and whatever
characters they contain, the rest of the SQL is the same token by token.
-/

namespace TypedSql

open Lexer (Token tokens IsPrimary isSound fillWith weave)

/-- Tokens with open places in between, each of which names a constant by the path to it. -/
abbrev Lexer.Shape := List (Token ⊕ List Nat)

/-! ## The texts of an expression -/

namespace Node

/-- The text of the constant at the end of a path, which goes from operand to operand. -/
def textAt? : Node → List Nat → Option String
  | n, [] =>
    match n.expr with
    | .const (.str s) => some s
    | _ => none
  | n, k :: path => n.children[k]?.bind fun child => child.textAt? path

/-- The paths to the texts of a node, given how to find those of its operands: each operand counts
as often as the template refers to it. -/
def textPathsStep (_ : Node) (layer : Expr (Checked → List (List Nat))) (c : Checked) :
    List (List Nat) :=
  match layer with
  | .const (.str _) => [[]]
  | _ =>
    match c.rule? with
    | none => []
    | some r =>
      let paths := List.zipWith (fun find d => find d) layer.children c.children
      r.template.references.flatMap fun k => (paths.getD k []).map (k :: ·)

/-- The paths to the texts of a checked expression, in the order in which its SQL has them. -/
def textPaths : Node → Checked → List (List Nat) := fold textPathsStep

section TextPaths

variable {n : Node} {c : Checked}

theorem textPaths_text {s : String} (hn : n.expr = .const (.str s)) (c : Checked) :
    n.textPaths c = [[]] := by
  rw [textPaths, fold_eq, hn]
  rfl

theorem textPaths_of_ne (hn : ∀ s, n.expr ≠ .const (.str s)) (c : Checked) :
    n.textPaths c =
      match c.rule? with
      | none => []
      | some r => r.template.references.flatMap fun k =>
          ((List.zipWith textPaths n.children c.children).getD k []).map (k :: ·) := by
  rw [textPaths, fold_eq, ← textPaths, textPathsStep]
  · rw [Expr.children_map, List.zipWith_map_left, Node.children]
  · intro s hs
    exact hn s (Expr.map_eq_const_iff.1 hs)

end TextPaths

/-- Whether a token goes into a place of a shape: it is the token that the shape has there, or a
string literal that decodes to the text that the open place names. -/
def Fits (n : Node) : Token ⊕ List Nat → Token → Prop
  | .inl t, u => u = t
  | .inr path, u => u.kind = .string ∧ ∃ s, n.textAt? path = some s ∧ u.decode? = some s.toList

theorem forall₂_fits_inl (n : Node) (ts : List Token) : List.Forall₂ n.Fits (ts.map .inl) ts := by
  induction ts with
  | nil => exact .nil
  | cons t ts ih => exact .cons rfl ih

/-- What goes into a place of an operand goes into the same place of the expression. -/
theorem Fits.of_operand {n child : Node} {k : Nat} (hchild : n.children[k]? = some child)
    {place : Token ⊕ List Nat} {t : Token} (h : child.Fits place t) :
    n.Fits (place.map id (k :: ·)) t := by
  cases place with
  | inl u => exact h
  | inr path =>
    obtain ⟨hkind, s, hs, hdecode⟩ := h
    refine ⟨hkind, s, ?_, hdecode⟩
    rw [textAt?, hchild]
    exact hs

end Node

/-! ## The shape of the tokens -/

/-- The shape of a template whose operands have the given shapes. -/
def Template.shape (d : Dialect) (t : Template) (shapes : Nat → Lexer.Shape) : Lexer.Shape :=
  (weave d (.plain false) t.items).flatMap
    (Sum.elim (fun u => [.inl u]) fun k => (shapes k).map (Sum.map id (k :: ·)))

/-- The open places of the shape of a template are those of its operands. -/
theorem Template.filterMap_shape (d : Dialect) (t : Template) (shapes : Nat → Lexer.Shape) :
    (t.shape d shapes).filterMap Sum.getRight? =
      t.references.flatMap fun k => ((shapes k).filterMap Sum.getRight?).map (k :: ·) := by
  have hplaces : ∀ k, ((shapes k).map (Sum.map id (k :: ·))).filterMap Sum.getRight? =
      ((shapes k).filterMap Sum.getRight?).map (k :: ·) := by
    intro k
    rw [List.filterMap_map, List.map_filterMap]
    refine List.filterMap_congr fun place _ => ?_
    cases place <;> rfl
  rw [← filterMap_items, ← Lexer.filterMap_weave (d := d) (.plain false), shape]
  induction weave d (.plain false) t.items with
  | nil => rfl
  | cons x xs ih =>
    rw [List.flatMap_cons, List.filterMap_append, ih]
    cases x with
    | inl u => rfl
    | inr k => exact congrArg (· ++ _) (hplaces k)

namespace Context

variable {ctx : Context}

/-- A property of the templates of a table is one of all templates that expressions are written by,
if it goes over to conditionals. -/
theorem template_of_check (P : Template → Prop) (hrules : ∀ r ∈ ctx.rules.rules, P r.template)
    (hself : P ⟨[.child 0]⟩) (hconditional : ∀ truth, P truth → P (conditionalTemplate truth))
    {n : Node} {c : Checked} {r : Rule} (hcheck : ctx.check n = .ok c) (hr : c.rule? = some r) :
    P r.template := by
  have htruth : ∀ {type truth}, ctx.rules.truth type = .ok (some truth) → P truth := by
    intro type truth h
    unfold RuleTable.truth at h
    split at h
    · -- a truth value stands for itself
      cases h
      exact hself
    · split at h
      · rename_i r hresolve
        cases h
        exact hrules r (RuleTable.mem_rules_of_resolve hresolve)
      · cases h
      · cases h
  rcases judge_cases (judge_of_check hcheck) with ⟨v, -, rfl⟩ | ⟨path, -, rfl⟩ |
    ⟨diagnostic, level, hc⟩ | ⟨s, level, hc, hresolves⟩
  · cases hr
  · unfold checkField at hr
    split at hr <;> cases hr
  · rw [hc] at hr
    cases hr
  · rw [hc] at hr
    cases hr
    rcases hresolves.mem_rules with hmem | ⟨_, _, _, _, truth, -, h, -, rfl⟩
    · exact hrules _ hmem
    · exact hconditional truth (htruth h)

/-- A reference alone stands for its operand. -/
theorem isSound_self (d : Dialect) : isSound d (Template.items ⟨[.child 0]⟩) = true := by
  cases d <;> decide

/-- The rule of a checked expression makes primaries from primaries. -/
theorem isSound_rule? {n : Node} {c : Checked} {r : Rule}
    (hrules : registry ctx.dialect = .ok ctx.rules) (hcheck : ctx.check n = .ok c)
    (hr : c.rule? = some r) : isSound ctx.dialect r.template.items = true := by
  exact template_of_check (fun t => isSound ctx.dialect t.items = true)
    (fun r hr => isSound_of_mem_registry hrules hr) (isSound_self ctx.dialect)
    (fun truth htruth => isSound_conditionalTemplate htruth) hcheck hr

/-- Whether an expression has SQL of the given shape, by which it can stand for an operand. -/
def HasShape (ctx : Context) (n : Node) (c : Checked) (shape : Lexer.Shape) : Prop :=
  ∃ sql, ctx.inlineSql [] n c = .ok sql ∧ IsPrimary ctx.dialect sql.toList ∧
    List.Forall₂ n.Fits shape (tokens ctx.dialect sql.toList)

theorem hasShape_text {n : Node} {s : String} (hn : n.expr = .const (.str s)) (c : Checked) :
    ctx.HasShape n c [.inr []] := by
  refine ⟨_, ctx.inlineSql_const [] hn c, isPrimary_constant _, ?_⟩
  rw [toList_sql_str, Lexer.tokens_quoteChars]
  refine .cons ⟨rfl, s, ?_, Lexer.decode?_quoteChars _ _⟩ .nil
  rw [Node.textAt?, hn]

theorem hasShape_of_tokens {n : Node} {c : Checked} {sql : String}
    (hsql : ctx.inlineSql [] n c = .ok sql) (hprimary : IsPrimary ctx.dialect sql.toList) :
    ctx.HasShape n c ((tokens ctx.dialect sql.toList).map .inl) :=
  ⟨sql, hsql, hprimary, n.forall₂_fits_inl _⟩

/-- If all operands that a rule refers to have shapes, so has the expression. -/
theorem hasShape_of_rule {n : Node} {c : Checked} {r : Rule} {shapes : Nat → Lexer.Shape}
    (hconst : ∀ v, n.expr ≠ .const v) (hfield : ∀ path, n.expr ≠ .field path)
    (hrule : c.rule? = some r) (hsound : isSound ctx.dialect r.template.items = true)
    (hoperands : ∀ k, .inr k ∈ r.template.items → ∃ child d, n.children[k]? = some child ∧
      c.children[k]? = some d ∧ ctx.HasShape child d (shapes k)) :
    ctx.HasShape n c (r.template.shape ctx.dialect shapes) := by
  let operands := List.zipWith (ctx.inlineSql []) n.children c.children
  have hoperand : ∀ k, .inr k ∈ r.template.items → ∃ child text, n.children[k]? = some child ∧
      operands[k]? = some (.ok text) ∧ IsPrimary ctx.dialect text.toList ∧
      List.Forall₂ child.Fits (shapes k) (tokens ctx.dialect text.toList) := by
    intro k hk
    obtain ⟨child, d, hchild, hd, text, htext, hprimary, hfits⟩ := hoperands k hk
    refine ⟨child, text, hchild, ?_, hprimary, hfits⟩
    exact List.getElem?_zipWith_eq_some.2 ⟨child, d, hchild, hd, htext⟩
  obtain ⟨sql, hsql⟩ : ∃ sql, r.template.fill operands = .ok sql := by
    refine Template.exists_fill fun k hk => ?_
    obtain ⟨child, text, -, htext, -, -⟩ := hoperand k hk
    exact ⟨text, htext⟩
  have hchars := (Template.fill_eq_ok hsql).1
  have hprimaries : ∀ k, .inr k ∈ r.template.items →
      IsPrimary ctx.dialect (Template.operandChars operands k) := by
    intro k hk
    obtain ⟨child, text, -, htext, hprimary, -⟩ := hoperand k hk
    rw [Template.operandChars, htext]
    exact hprimary
  refine ⟨sql, ?_, ?_, ?_⟩
  · rw [ctx.inlineSql_of_rule [] hconst hfield, ruleSql, hrule]
    exact hsql
  · rw [hchars]
    exact Lexer.isPrimary_fillWith hsound hprimaries
  · rw [hchars, Lexer.tokens_fillWith hsound hprimaries, Template.shape, fillWith]
    refine forall₂_flatMap fun x hx => ?_
    cases x with
    | inl u => exact .cons rfl .nil
    | inr k =>
      have hk : .inr k ∈ r.template.items := Lexer.mem_of_inr_mem_weave hx
      obtain ⟨child, text, hchild, htext, -, hfits⟩ := hoperand k hk
      rw [Sum.elim_inr, Sum.elim_inr, Template.operandChars, htext, List.forall₂_map_left_iff]
      exact hfits.imp fun _ _ h => h.of_operand hchild

/-! ## The shape is that of the outline -/

/-- Whether the SQL of an expression has a shape that it shares with all expressions of the same
outline, where the open places are those of the texts of the expression. -/
def HasCommonShape (ctx : Context) (n : Node) (c : Checked) : Prop :=
  ∃ shape : Lexer.Shape, shape.filterMap Sum.getRight? = n.textPaths c ∧
    ∀ m, n.outline = m.outline → ctx.HasShape m c shape

theorem hasCommonShape_text {n : Node} {s : String} (hn : n.expr = .const (.str s)) (c : Checked) :
    ctx.HasCommonShape n c := by
  refine ⟨[.inr []], (Node.textPaths_text hn c).symm, fun m houtline => ?_⟩
  rcases Node.outline_cases houtline with ⟨_, t, -, ht⟩ | ⟨hne, -, -⟩
  · exact hasShape_text ht c
  · exact absurd hn (hne s)

/-- The result for a constant or a field has no rule. -/
theorem rule?_of_leaf {n : Node} {c : Checked} (hcheck : ctx.check n = .ok c)
    (hn : (∃ v, n.expr = .const v) ∨ ∃ path, n.expr = .field path) : c.rule? = none := by
  have hjudge := judge_of_check hcheck
  rcases hn with ⟨v, hn⟩ | ⟨path, hn⟩
  · simp only [judge, hn, Expr.head, Expr.map, Except.ok.injEq] at hjudge
    rw [← hjudge]
    rfl
  · simp only [judge, hn, Expr.head, Expr.map, checkField, Except.ok.injEq] at hjudge
    rw [← hjudge]
    split <;> rfl

/-- The SQL of a constant or a field is the same for all expressions of the outline. -/
theorem hasCommonShape_leaf {n : Node} {c : Checked} {sql : String}
    (hschema : ctx.schema.IsClosed ctx.dialect) (hcheck : ctx.check n = .ok c)
    (hsql : ctx.inlineSql [] n c = .ok sql) (htext : ∀ s, n.expr ≠ .const (.str s))
    (hleaf : (∃ v, n.expr = .const v) ∨ ∃ path, n.expr = .field path) :
    ctx.HasCommonShape n c := by
  have hprimary : IsPrimary ctx.dialect sql.toList := by
    rcases hleaf with ⟨v, hn⟩ | ⟨path, hn⟩
    · rw [ctx.inlineSql_const [] hn] at hsql
      cases hsql
      exact isPrimary_constant v
    · rw [ctx.inlineSql_field [] hn] at hsql
      exact isPrimary_fieldSql hschema hsql
  refine ⟨(tokens ctx.dialect sql.toList).map .inl, ?_, fun m houtline => ?_⟩
  · rw [Node.textPaths_of_ne htext, rule?_of_leaf hcheck hleaf]
    simp [List.filterMap_map, Function.comp_def]
  · refine hasShape_of_tokens ?_ hprimary
    rcases Node.outline_cases houtline with ⟨s, -, hs, -⟩ | ⟨-, hhead, -⟩
    · exact absurd hs (htext s)
    rcases hleaf with ⟨v, hn⟩ | ⟨path, hn⟩
    · have hm : m.expr = .const v := by
        rw [hn] at hhead
        exact Expr.map_eq_const_iff.1 hhead.symm
      rw [← hsql, ctx.inlineSql_const [] hn, ctx.inlineSql_const [] hm]
    · have hm : m.expr = .field path := by
        rw [hn] at hhead
        exact Expr.map_eq_field_iff.1 hhead.symm
      rw [← hsql, ctx.inlineSql_field [] hn, ctx.inlineSql_field [] hm]

/-- If all operands that a rule refers to share their shapes, so does the expression. -/
theorem hasCommonShape_of_rule {n : Node} {c : Checked} {r : Rule}
    (hconst : ∀ v, n.expr ≠ .const v) (hfield : ∀ path, n.expr ≠ .field path)
    (hrule : c.rule? = some r) (hsound : isSound ctx.dialect r.template.items = true)
    (hoperands : ∀ k, .inr k ∈ r.template.items → ∃ child d, n.children[k]? = some child ∧
      c.children[k]? = some d ∧ ctx.HasCommonShape child d) :
    ctx.HasCommonShape n c := by
  have hshapes : ∀ k, ∃ shape : Lexer.Shape, .inr k ∈ r.template.items →
      ∃ child d, n.children[k]? = some child ∧ c.children[k]? = some d ∧
        shape.filterMap Sum.getRight? = child.textPaths d ∧
        ∀ m, child.outline = m.outline → ctx.HasShape m d shape := by
    intro k
    by_cases hk : .inr k ∈ r.template.items
    · obtain ⟨child, d, hchild, hd, shape, hplaces, hshape⟩ := hoperands k hk
      exact ⟨shape, fun _ => ⟨child, d, hchild, hd, hplaces, hshape⟩⟩
    · exact ⟨[], fun h => absurd h hk⟩
  choose shapes hshapes using hshapes
  refine ⟨r.template.shape ctx.dialect shapes, ?_, fun m houtline => ?_⟩
  · rw [Template.filterMap_shape, Node.textPaths_of_ne fun s => hconst (.str s), hrule]
    refine List.flatMap_congr fun k hk => ?_
    obtain ⟨child, d, hchild, hd, hplaces, -⟩ := hshapes k (Template.mem_references.1 hk)
    have hpaths : (List.zipWith Node.textPaths n.children c.children)[k]? =
        some (child.textPaths d) :=
      List.getElem?_zipWith_eq_some.2 ⟨child, d, hchild, hd, rfl⟩
    rw [hplaces, List.getD_eq_getElem?_getD, hpaths, Option.getD_some]
  · rcases Node.outline_cases houtline with ⟨s, -, hs, -⟩ | ⟨-, hhead, hchildren⟩
    · exact absurd hs (hconst _)
    have hconst' : ∀ v, m.expr ≠ .const v := by
      intro v hm
      rw [hm] at hhead
      exact hconst v (Expr.map_eq_const_iff.1 hhead)
    have hfield' : ∀ path, m.expr ≠ .field path := by
      intro path hm
      rw [hm] at hhead
      exact hfield path (Expr.map_eq_field_iff.1 hhead)
    refine hasShape_of_rule hconst' hfield' hrule hsound fun k hk => ?_
    obtain ⟨child, d, hchild, hd, -, hshape⟩ := hshapes k hk
    obtain ⟨child', hchild', hsame⟩ := exists_getElem?_of_forall₂ hchildren hchild
    exact ⟨child', d, hchild', hd, hshape child' hsame⟩

/-- A rule that is filled in refers only to operands that are there and have SQL. -/
theorem exists_operands_of_inlineSql {n : Node} {c : Checked} {sql : String}
    (hconst : ∀ v, n.expr ≠ .const v) (hfield : ∀ path, n.expr ≠ .field path)
    (hsql : ctx.inlineSql [] n c = .ok sql) :
    ∃ r, c.rule? = some r ∧ ∀ k, .inr k ∈ r.template.items →
      ∃ child d text, n.children[k]? = some child ∧ c.children[k]? = some d ∧
        ctx.inlineSql [] child d = .ok text := by
  rw [ctx.inlineSql_of_rule [] hconst hfield, ruleSql] at hsql
  split at hsql
  · rename_i r hrule
    refine ⟨r, hrule, fun k hk => ?_⟩
    obtain ⟨text, htext⟩ := (Template.fill_eq_ok hsql).2 k hk
    obtain ⟨child, d, hchild, hd, hsql⟩ := List.getElem?_zipWith_eq_some.1 htext
    exact ⟨child, d, text, hchild, hd, hsql⟩
  · cases hsql

/-- The SQL of an expression has a shape that it shares with all expressions of the same outline. -/
theorem hasCommonShape_of_inlineSql {n : Node} {c : Checked} {sql : String}
    (hrules : registry ctx.dialect = .ok ctx.rules) (hschema : ctx.schema.IsClosed ctx.dialect)
    (hcheck : ctx.check n = .ok c) (hsql : ctx.inlineSql [] n c = .ok sql) :
    ctx.HasCommonShape n c := by
  induction n using Node.induction generalizing c sql with
  | step n ih =>
    by_cases htext : ∃ s, n.expr = .const (.str s)
    · obtain ⟨s, hs⟩ := htext
      exact hasCommonShape_text hs c
    by_cases hleaf : (∃ v, n.expr = .const v) ∨ ∃ path, n.expr = .field path
    · exact hasCommonShape_leaf hschema hcheck hsql (not_exists.1 htext) hleaf
    rw [not_or, not_exists, not_exists] at hleaf
    obtain ⟨r, hrule, hoperands⟩ := exists_operands_of_inlineSql hleaf.1 hleaf.2 hsql
    have hsound := isSound_rule? hrules hcheck hrule
    refine hasCommonShape_of_rule hleaf.1 hleaf.2 hrule hsound fun k hk => ?_
    obtain ⟨child, d, text, hchild, hd, htext⟩ := hoperands k hk
    have hcheckChild : ctx.check child = .ok d := by
      obtain ⟨d', hd', hcheck⟩ := exists_getElem?_of_forall₂ (check_children hcheck) hchild
      rw [hd] at hd'
      cases hd'
      exact hcheck
    exact ⟨child, d, hchild, hd, ih child (List.mem_of_getElem? hchild) hcheckChild htext⟩

/-! ## Two runs -/

theorem ofDialect_eq_ok {schema : Schema} {d : Dialect} (h : ofDialect schema d = .ok ctx) :
    registry d = .ok ctx.rules ∧ ctx.dialect = d ∧ ctx.schema = schema ∧
      ctx.literals = .inline := by
  obtain ⟨rules, hrules, hctx⟩ := bind_eq_ok_iff.1 h
  cases hctx
  exact ⟨hrules, (rules_of_registry hrules).2, rfl, rfl⟩

end Context

/-- Tokens that go into the same places are the same, unless they are string literals. -/
theorem Node.Fits.agree {n m : Node} {place : Token ⊕ List Nat} {t u : Token} (ht : n.Fits place t)
    (hu : m.Fits place u) : t.kind = u.kind ∧ (t.kind ≠ .string → t = u) := by
  cases place with
  | inl v =>
    cases ht
    cases hu
    exact ⟨rfl, fun _ => rfl⟩
  | inr path =>
    obtain ⟨ht, -⟩ := ht
    obtain ⟨hu, -⟩ := hu
    exact ⟨ht.trans hu.symm, fun h => absurd ht h⟩

/-- Expressions that differ in nothing but the texts of their constants compile to the same tokens,
apart from string literals. If one of them compiles then so does the other, and there is a shape
that the tokens of both have: all tokens of the shape are those of both, and its open places, which
are those of the texts in the order in which the rules refer to them, hold string literals that
decode to the texts of the one and of the other expression. -/
theorem Context.compile_tokens_of_outline_eq {schema : Schema} {d : Dialect} {ctx : Context}
    {n m : Node} {f : Fragment} (hctx : ofDialect schema d = .ok ctx) (hschema : schema.IsClosed d)
    (houtline : n.outline = m.outline) (hn : ctx.compile n = .ok f) :
    ∃ g, ctx.compile m = .ok g ∧
      List.Forall₂ (fun t u => t.kind = u.kind ∧ (t.kind ≠ .string → t = u))
        (tokens d f.sql.toList) (tokens d g.sql.toList) ∧
      ∃ c shape, ctx.check n = .ok c ∧ shape.filterMap Sum.getRight? = n.textPaths c ∧
        List.Forall₂ n.Fits shape (tokens d f.sql.toList) ∧
        List.Forall₂ m.Fits shape (tokens d g.sql.toList) := by
  obtain ⟨hrules, rfl, rfl, hinline⟩ := ofDialect_eq_ok hctx
  obtain ⟨c, hcheck, hvalid, hsql, -⟩ := (compile_eq_ok_iff hinline).1 hn
  obtain ⟨shape, hplaces, hshape⟩ := hasCommonShape_of_inlineSql hrules hschema hcheck hsql
  obtain ⟨sql, hsqln, -, hfits⟩ := hshape n rfl
  obtain ⟨text, hsqlm, -, hfits'⟩ := hshape m houtline
  obtain rfl : sql = f.sql := Except.ok.inj (hsqln.symm.trans hsql)
  have hm : ctx.compile m = .ok ⟨text, []⟩ :=
    (compile_eq_ok_iff hinline).2
      ⟨c, check_of_outline_eq houtline hcheck hvalid, hvalid, hsqlm, rfl⟩
  refine ⟨⟨text, []⟩, hm, ?_, c, shape, hcheck, hplaces, hfits, hfits'⟩
  exact forall₂_of_forall₂_left hfits hfits' fun _ _ _ ht _ _ hu => ht.agree hu

/-- A schema with one field, which is read in lower case. -/
def nameSchema : Schema := ⟨[⟨"name", .str, some "lower(name)", none⟩]⟩

/-- The expression `name + text`. -/
def nameWith (text : String) : Node :=
  .ofExpr (.binary .add (.ofExpr (.field "name")) (.ofExpr (.const (.str text))))

open Builtin (a b) in
/-- The rule that puts two texts together. -/
theorem exists_rule_add_str {t : RuleTable} (ht : registry .postgres = .ok t) :
    ∃ r, t.resolve (.binary .add) none [.str, .str] = .ok (.rule r) ∧
      r.template.references = [0, 1] := by
  let reg : Registration := .binary .add .str .str .str s!"({a} || {b})"
  have hreg : reg ∈ registrations .postgres := by decide +kernel
  obtain ⟨r, hrule, hresolve⟩ := exists_resolve_of_mem_registrations ht hreg
  have hparse : reg.toRule.toOption.map (·.template.references) = some [0, 1] := by
    decide +kernel
  rw [hrule] at hparse
  exact ⟨r, hresolve, Option.some.inj hparse⟩

theorem exists_compile_nameWith {rules : RuleTable} (hrules : registry .postgres = .ok rules)
    (text : String) :
    ∃ f, (⟨nameSchema, rules, .inline⟩ : Context).compile (nameWith text) = .ok f := by
  let ctx : Context := ⟨nameSchema, rules, .inline⟩
  let field : Checked := ⟨.leaf .str, .row, []⟩
  let constant : Checked := ⟨.leaf .str, .constant, []⟩
  obtain ⟨r, hresolve, hreferences⟩ := exists_rule_add_str hrules
  have hfield : ctx.check (.ofExpr (.field "name")) = .ok field :=
    Context.check_eq_ok_iff.2 ⟨by simp [Node.HasArity, Node.ofExpr], [], .nil, rfl⟩
  have hconstant : ctx.check (.ofExpr (.const (.str text))) = .ok constant :=
    Context.check_eq_ok_iff.2 ⟨by simp [Node.HasArity, Node.ofExpr], [], .nil, rfl⟩
  have hcheck : ctx.check (nameWith text) = .ok ⟨.resolved r, .row, [field, constant]⟩ := by
    refine Context.check_eq_ok_iff.2 ⟨by simp [Node.HasArity, nameWith, Node.ofExpr],
      [field, constant], .cons hfield (.cons hconstant .nil), ?_⟩
    show ctx.resolveCall (nameWith text) (.binary .add) none .row [field, constant] = _
    have htypes : Checked.operandTypes [field, constant] = [.str, .str] := rfl
    simp only [Context.resolveCall, htypes]
    rw [show ctx.rules = rules from rfl, hresolve]
  obtain ⟨sql, hsql⟩ : ∃ sql, ctx.inlineSql [] (nameWith text)
      ⟨.resolved r, .row, [field, constant]⟩ = .ok sql := by
    rw [ctx.inlineSql_of_rule [] (by simp [nameWith, Node.ofExpr])
      (by simp [nameWith, Node.ofExpr])]
    refine Template.exists_fill fun k hk => ?_
    rw [← Template.mem_references, hreferences] at hk
    have hk : k = 0 ∨ k = 1 := by simpa using hk
    rcases hk with rfl | rfl
    · have hcolumn : ctx.fieldSql [] "name" = .ok "lower(name)" := rfl
      exact ⟨_, congrArg some ((ctx.inlineSql_field [] rfl field).trans hcolumn)⟩
    · exact ⟨_, congrArg some (ctx.inlineSql_const [] rfl constant)⟩
  exact ⟨⟨sql, []⟩, (Context.compile_eq_ok_iff rfl).2 ⟨_, hcheck, rfl, hsql, rfl⟩⟩

/-- A text with two comments and both kinds of quotes compiles to the same tokens as an empty
one. -/
theorem Context.compile_tokens_of_outline_eq_nameWith :
    ∃ ctx f g, ofDialect nameSchema .postgres = .ok ctx ∧ ctx.compile (nameWith "") = .ok f ∧
      ctx.compile (nameWith "\\' || \" -- /*") = .ok g ∧
      List.Forall₂ (fun t u => t.kind = u.kind ∧ (t.kind ≠ .string → t = u))
        (tokens .postgres f.sql.toList) (tokens .postgres g.sql.toList) := by
  obtain ⟨rules, hrules⟩ := exists_registry .postgres
  have hctx : ofDialect nameSchema .postgres = .ok ⟨nameSchema, rules, .inline⟩ :=
    bind_eq_ok_iff.2 ⟨rules, hrules, rfl⟩
  have hschema : nameSchema.IsClosed .postgres := by
    intro f hf sql hsql
    cases List.mem_singleton.1 hf
    cases hsql
    constructor <;> decide +kernel
  have houtline : (nameWith "").outline = (nameWith "\\' || \" -- /*").outline := rfl
  obtain ⟨f, hf⟩ := exists_compile_nameWith hrules ""
  obtain ⟨g, hg, htokens, -⟩ := compile_tokens_of_outline_eq hctx hschema houtline hf
  exact ⟨_, f, g, hctx, hf, hg, htokens⟩

end TypedSql
