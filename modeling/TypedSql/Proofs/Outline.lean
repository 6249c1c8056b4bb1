import TypedSql.Proofs.Checking

/-!
# Expressions that differ in their texts

The outline of an expression leaves the texts of its constants open. Expressions with the same
outline have the same operators, names, fields and other constants in the same places, so that
checking cannot tell them apart: what is valid for one of them is valid for all, with the same
rules.
-/

namespace TypedSql

/-! ## Outlines -/

namespace Expr

variable {α β γ : Type}

/-- A layer with its text left open, if it is a text. -/
def blank : Expr α → Expr α
  | const (.str _) => const (.str "")
  | e => e

theorem blank_of_ne {e : Expr α} (h : ∀ s, e ≠ const (.str s)) : e.blank = e := by
  unfold blank
  split
  · rename_i s
    exact absurd rfl (h s)
  · rfl

theorem map_map (f : α → β) (g : β → γ) (e : Expr α) : (e.map f).map g = e.map (g ∘ f) := by
  cases e <;> simp [map]

/-- Layers that a function makes the same have the same head, and it makes their operands the
same. -/
theorem cases_of_map_eq {f : α → β} {e e' : Expr α} (h : e.map f = e'.map f) :
    e.head = e'.head ∧ List.Forall₂ (fun a b => f a = f b) e.children e'.children := by
  constructor
  · have hhead := congrArg head h
    rw [head, head, map_map, map_map] at hhead
    exact hhead
  · have hchildren := congrArg children h
    rw [children_map, children_map, ← List.forall₂_eq_eq_eq, List.forall₂_map_left_iff,
      List.forall₂_map_right_iff] at hchildren
    exact hchildren

theorem map_eq_const_iff {f : α → β} {e : Expr α} {v : Constant} :
    e.map f = const v ↔ e = const v := by
  cases e <;> simp [map]

theorem map_eq_field_iff {f : α → β} {e : Expr α} {path : String} :
    e.map f = field path ↔ e = field path := by
  cases e <;> simp [map]

end Expr

namespace Node

/-- An expression with all texts left open and without origins. -/
def outline : Node → Node := fold fun _ layer => ofExpr layer.blank

theorem outline_eq (n : Node) : n.outline = ofExpr (n.expr.map outline).blank := by
  rw [outline, fold_eq]

/-- Expressions with the same outline are both texts, or they have the same topmost layer and
operands with the same outlines. -/
theorem outline_cases {n m : Node} (h : n.outline = m.outline) :
    (∃ s t, n.expr = .const (.str s) ∧ m.expr = .const (.str t)) ∨
      (∀ s, n.expr ≠ .const (.str s)) ∧ n.expr.head = m.expr.head ∧
        List.Forall₂ (fun a b => a.outline = b.outline) n.children m.children := by
  have hblank : (n.expr.map outline).blank = (m.expr.map outline).blank := by
    rw [outline_eq, outline_eq] at h
    exact congrArg expr h
  have hopen : ∀ {n : Node}, (∀ s, n.expr ≠ .const (.str s)) →
      (n.expr.map outline).blank = n.expr.map outline := by
    intro n hn
    exact Expr.blank_of_ne fun s hs => hn s (Expr.map_eq_const_iff.1 hs)
  by_cases hn : ∃ s, n.expr = .const (.str s)
  · obtain ⟨s, hs⟩ := hn
    by_cases hm : ∃ t, m.expr = .const (.str t)
    · obtain ⟨t, ht⟩ := hm
      exact Or.inl ⟨s, t, hs, ht⟩
    · rw [hopen (not_exists.1 hm), hs] at hblank
      exact absurd ⟨"", Expr.map_eq_const_iff.1 hblank.symm⟩ hm
  · by_cases hm : ∃ t, m.expr = .const (.str t)
    · obtain ⟨t, ht⟩ := hm
      rw [hopen (not_exists.1 hn), ht] at hblank
      exact absurd ⟨"", Expr.map_eq_const_iff.1 hblank⟩ hn
    · rw [hopen (not_exists.1 hn), hopen (not_exists.1 hm)] at hblank
      exact Or.inr ⟨not_exists.1 hn, Expr.cases_of_map_eq hblank⟩

/-- Nodes with the same topmost layer call the same aggregate function with as many arguments. -/
theorem exists_aggregate_of_head_eq {n m : Node} {g : Aggregate} {args : List Node}
    (hhead : n.expr.head = m.expr.head) (hm : m.expr = .aggregate g args) :
    ∃ args', n.expr = .aggregate g args' ∧ args'.length = args.length := by
  rw [hm] at hhead
  obtain ⟨e, origin⟩ := n
  cases e with
  | aggregate g' args' =>
    simp only [Expr.head, Expr.map, Expr.aggregate.injEq] at hhead
    obtain ⟨rfl, hargs⟩ := hhead
    exact ⟨args', rfl, by simpa using congrArg List.length hargs⟩
  | _ => cases hhead

end Node

/-! ## Checking expressions with the same outline -/

namespace Context

variable {ctx : Context} {n m : Node} {c : Checked}

/-- A valid expression is judged like any other one with the same topmost layer: the node itself
only goes into diagnostics, of which there are none. -/
theorem judge_of_head_eq {children : List Checked} (hhead : n.expr.head = m.expr.head)
    (h : ctx.judge n children = .ok c) (hv : c.isValid = true) : ctx.judge m children = .ok c := by
  rcases judge_of_isValid h hv with ⟨v, hn, rfl⟩ | ⟨path, f, hn, hf, rfl⟩ | ⟨r, level, rfl, hr⟩
  · rw [judge, ← hhead, hn]
    rfl
  · rw [judge, ← hhead, hn]
    simp only [Expr.head, Expr.map, checkField, hf]
  · rw [hhead] at hr
    exact judge_of_resolves hr

/-- Whether an aggregate function has the right number of arguments is seen from the topmost
layer. -/
theorem hasArity_of_head_eq (hhead : n.expr.head = m.expr.head) (h : n.HasArity) : m.HasArity := by
  intro g args hm
  obtain ⟨args', hn, hlength⟩ := Node.exists_aggregate_of_head_eq hhead hm
  rw [← hlength]
  exact h g args' hn

/-- Expressions with the same outline have the same results if one of them is valid. -/
theorem check_of_outline_eq (houtline : n.outline = m.outline) (h : ctx.check n = .ok c)
    (hv : c.isValid = true) : ctx.check m = .ok c := by
  induction n using Node.induction generalizing m c with
  | step n ih =>
    have hjudge := judge_of_check h
    rcases Node.outline_cases houtline with ⟨s, t, hn, hm⟩ | ⟨-, hhead, hchildren⟩
    · simp only [judge, hn, Expr.head, Expr.map] at hjudge
      refine check_eq_ok_iff.2 ⟨by simp [Node.HasArity, hm], [], ?_, ?_⟩
      · simp [Node.children, hm, Expr.children]
      · simp only [judge, hm, Expr.head, Expr.map]
        exact hjudge
    · have hvalid := isValid_children h hv
      have hoperands : List.Forall₂ (fun b d => ctx.check b = .ok d) m.children c.children := by
        refine forall₂_of_forall₂_left hchildren (check_children h) fun a ha b hab d hd had => ?_
        exact ih a ha hab had (hvalid d hd)
      have harity := hasArity_of_head_eq hhead (check_eq_ok_iff.1 h).1
      exact check_eq_ok_iff.2 ⟨harity, c.children, hoperands, judge_of_head_eq hhead hjudge hv⟩

end Context

end TypedSql
