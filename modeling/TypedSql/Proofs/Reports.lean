import TypedSql.Proofs.Findings

/-!
# What is reported

Two searches go through a checked expression for what is wrong with it: one collects all reports,
the other one stops at the first. Both skip what is below a valid node, and neither counts a node
that is wrong only because of its operands. Nothing is missed that way: below a valid node
everything is valid, and a node with wrong operands has a root cause below it. So the root causes of
the whole expression are reported, each of them once, in the order of their places.
-/

namespace TypedSql

/-! ## Places -/

/-- The part of an expression at a place, which is reached from operand to operand. -/
def Node.part? : Node → List Nat → Option Node
  | n, [] => some n
  | n, k :: place => n.children[k]?.bind fun m => m.part? place

/-- The result for the part of an expression at a place. -/
def Checked.part? : Checked → List Nat → Option Checked
  | c, [] => some c
  | c, k :: place => c.children[k]?.bind fun d => d.part? place

theorem Node.part?_cons_eq_some_iff {n m : Node} {k : Nat} {place : List Nat} :
    n.part? (k :: place) = some m ↔
      ∃ child, n.children[k]? = some child ∧ child.part? place = some m :=
  Option.bind_eq_some_iff

theorem Checked.part?_cons_eq_some_iff {c d : Checked} {k : Nat} {place : List Nat} :
    c.part? (k :: place) = some d ↔
      ∃ child, c.children[k]? = some child ∧ child.part? place = some d :=
  Option.bind_eq_some_iff

theorem Context.check_part? {ctx : Context} {n m : Node} {c : Checked} {place : List Nat}
    (h : ctx.check n = .ok c) (hm : n.part? place = some m) :
    ∃ d, c.part? place = some d ∧ ctx.check m = .ok d := by
  induction place generalizing n c with
  | nil =>
    cases hm
    exact ⟨c, rfl, h⟩
  | cons k place ih =>
    obtain ⟨child, hchild, hm⟩ := Node.part?_cons_eq_some_iff.1 hm
    obtain ⟨d, hd, hcheck⟩ := exists_getElem?_of_forall₂ (check_children h) hchild
    obtain ⟨e, he, hcheckm⟩ := ih hcheck hm
    exact ⟨e, Checked.part?_cons_eq_some_iff.2 ⟨d, hd, he⟩, hcheckm⟩

/-! ## Root causes -/

/-- A root cause: its place, the node that stands there and what is wrong with it. -/
structure Cause where
  place : List Nat
  node : Node
  diagnostic : Diagnostic

namespace Cause

/-- The report of a root cause. -/
def report (x : Cause) : Report := Report.ofNode x.node x.diagnostic

/-- Whether a root cause comes before another one: that of a node before those of its operands, and
these from left to right. -/
def Before (x y : Cause) : Prop := List.Lex (· < ·) x.place y.place

/-- A root cause of the operand with the given number. -/
def inOperand (k : Nat) (x : Cause) : Cause := { x with place := k :: x.place }

/-- The root causes of all operands from those of each of them. -/
def ofOperands (causes : List (List Cause)) : List Cause :=
  causes.zipIdx.flatMap fun p => p.1.map (inOperand p.2)

theorem mem_ofOperands_iff {causes : List (List Cause)} {x : Cause} :
    x ∈ ofOperands causes ↔
      ∃ k xs, causes[k]? = some xs ∧ ∃ y ∈ xs, x = inOperand k y := by
  constructor
  · intro hx
    obtain ⟨⟨xs, k⟩, hxs, hx⟩ := List.mem_flatMap.1 hx
    obtain ⟨y, hy, rfl⟩ := List.mem_map.1 hx
    exact ⟨k, xs, List.mem_zipIdx_iff_getElem?.1 hxs, y, hy, rfl⟩
  · rintro ⟨k, xs, hxs, y, hy, rfl⟩
    have hmem : (xs, k) ∈ causes.zipIdx := List.mem_zipIdx_iff_getElem?.2 hxs
    exact List.mem_flatMap.2 ⟨(xs, k), hmem, List.mem_map_of_mem hy⟩

theorem pairwise_ofOperands {causes : List (List Cause)} (h : ∀ xs ∈ causes, xs.Pairwise Before) :
    (ofOperands causes).Pairwise Before := by
  have hnumbers : ∀ (xss : List (List Cause)) (k : Nat),
      (xss.zipIdx k).Pairwise fun a b => a.2 < b.2 := by
    intro xss
    induction xss with
    | nil => exact fun _ => .nil
    | cons xs xss ih =>
      intro k
      rw [List.zipIdx_cons, List.pairwise_cons]
      exact ⟨fun b hb => List.le_snd_of_mem_zipIdx hb, ih (k + 1)⟩
  rw [ofOperands, List.pairwise_flatMap]
  constructor
  · intro p hp
    have hsorted : p.1.Pairwise Before :=
      h p.1 (List.mem_of_getElem? (List.mem_zipIdx_iff_getElem?.1 hp))
    rw [List.pairwise_map]
    exact hsorted.imp fun hxy => List.Lex.cons hxy
  · refine (hnumbers causes 0).imp fun {a b} hab x hx y hy => ?_
    obtain ⟨x, -, rfl⟩ := List.mem_map.1 hx
    obtain ⟨y, -, rfl⟩ := List.mem_map.1 hy
    exact List.Lex.rel hab

/-- What is said of root causes without their places is said of those of each operand. -/
theorem map_ofOperands {α : Type} {f : Cause → α} (hf : ∀ k x, f (inOperand k x) = f x)
    (causes : List (List Cause)) : (ofOperands causes).map f = (causes.map (·.map f)).flatten := by
  have hlist : ∀ p ∈ causes.zipIdx, (p.1.map (inOperand p.2)).map f = p.1.map f := by
    intro p _
    rw [List.map_map]
    exact List.map_congr_left fun x _ => hf p.2 x
  have hfirst : causes.zipIdx.map (fun p => p.1.map f) = causes.map (·.map f) := by
    have hcomp : (fun p : List Cause × Nat => p.1.map f) = (fun xs => xs.map f) ∘ Prod.fst := rfl
    rw [hcomp, ← List.map_map, List.zipIdx_map_fst]
  rw [ofOperands, List.map_flatMap, List.flatMap_def, List.map_congr_left hlist, hfirst]

end Cause

/-- What is wrong with the topmost node of an expression itself. -/
def Checked.own? (c : Checked) : Option Diagnostic := c.diagnostic?.filter (·.isRootCause)

theorem Checked.own?_eq_some_iff {c : Checked} {d : Diagnostic} :
    c.own? = some d ↔ c.diagnostic? = some d ∧ d.kind ≠ .operandErrors := by
  rw [own?, Option.filter_eq_some_iff, Diagnostic.isRootCause, decide_eq_true_iff]

namespace Node

/-- Whether an expression with the given results has a root cause. -/
structure HasCause (n : Node) (c : Checked) (x : Cause) : Prop where
  node : n.part? x.place = some x.node
  diagnostic : ∃ d, c.part? x.place = some d ∧ d.diagnostic? = some x.diagnostic
  root : x.diagnostic.kind ≠ .operandErrors

/-- The root causes of a node: its own, and those of its operands. -/
def causesStep (n : Node) (layer : Expr (Checked → List Cause)) (c : Checked) : List Cause :=
  (c.own?.map fun d => ⟨[], n, d⟩).toList ++
    Cause.ofOperands (List.zipWith (fun find d => find d) layer.children c.children)

/-- The root causes of a whole expression, with nothing left out on the way. -/
def causes : Node → Checked → List Cause := fold causesStep

variable {n : Node} {c : Checked}

theorem causes_eq (n : Node) (c : Checked) :
    n.causes c = (c.own?.map fun d => ⟨[], n, d⟩).toList ++
      Cause.ofOperands (List.zipWith causes n.children c.children) := by
  rw [causes, fold_eq, ← causes, causesStep, Expr.children_map, List.zipWith_map_left, children]

theorem mem_causes_iff {x : Cause} : x ∈ n.causes c ↔ n.HasCause c x := by
  induction n using Node.induction generalizing c x with
  | step n ih =>
    rw [causes_eq, List.mem_append, Option.mem_toList, Option.map_eq_some_iff,
      Cause.mem_ofOperands_iff]
    constructor
    · rintro (⟨d, hd, rfl⟩ | ⟨k, xs, hxs, y, hy, rfl⟩)
      · obtain ⟨hdiagnostic, hroot⟩ := Checked.own?_eq_some_iff.1 hd
        exact ⟨rfl, ⟨c, rfl, hdiagnostic⟩, hroot⟩
      · obtain ⟨m, e, hm, he, rfl⟩ := List.getElem?_zipWith_eq_some.1 hxs
        obtain ⟨hnode, ⟨d, hd, hdiagnostic⟩, hroot⟩ := (ih m (List.mem_of_getElem? hm)).1 hy
        have hn : n.part? (k :: y.place) = some y.node := part?_cons_eq_some_iff.2 ⟨m, hm, hnode⟩
        have hc : c.part? (k :: y.place) = some d :=
          Checked.part?_cons_eq_some_iff.2 ⟨e, he, hd⟩
        exact ⟨hn, ⟨d, hc, hdiagnostic⟩, hroot⟩
    · rintro ⟨hnode, ⟨d, hd, hdiagnostic⟩, hroot⟩
      obtain ⟨place, node, diagnostic⟩ := x
      cases place with
      | nil =>
        cases hnode
        cases hd
        exact Or.inl ⟨diagnostic, Checked.own?_eq_some_iff.2 ⟨hdiagnostic, hroot⟩, rfl⟩
      | cons k place =>
        obtain ⟨m, hm, hnode⟩ := part?_cons_eq_some_iff.1 hnode
        obtain ⟨e, he, hd⟩ := Checked.part?_cons_eq_some_iff.1 hd
        have hy : ⟨place, node, diagnostic⟩ ∈ m.causes e :=
          (ih m (List.mem_of_getElem? hm)).2 ⟨hnode, ⟨d, hd, hdiagnostic⟩, hroot⟩
        have hxs : (List.zipWith causes n.children c.children)[k]? = some (m.causes e) :=
          List.getElem?_zipWith_eq_some.2 ⟨m, e, hm, he, rfl⟩
        exact Or.inr ⟨k, m.causes e, hxs, ⟨place, node, diagnostic⟩, hy, rfl⟩

/-- Root causes are listed from left to right, each node before its operands, and none of them
twice. -/
theorem pairwise_causes (n : Node) (c : Checked) : (n.causes c).Pairwise Cause.Before := by
  induction n using Node.induction generalizing c with
  | step n ih =>
    have hoperands : (Cause.ofOperands (List.zipWith causes n.children c.children)).Pairwise
        Cause.Before := by
      refine Cause.pairwise_ofOperands fun xs hxs => ?_
      obtain ⟨k, hk⟩ := List.getElem?_of_mem hxs
      obtain ⟨m, d, hm, -, rfl⟩ := List.getElem?_zipWith_eq_some.1 hk
      exact ih m (List.mem_of_getElem? hm) d
    rw [causes_eq, List.pairwise_append]
    refine ⟨?_, hoperands, fun x hx y hy => ?_⟩
    · cases c.own? with
      | none => exact .nil
      | some d => exact List.pairwise_singleton _ _
    · obtain ⟨d, -, rfl⟩ := Option.map_eq_some_iff.1 (Option.mem_toList.1 hx)
      obtain ⟨k, xs, -, z, -, rfl⟩ := Cause.mem_ofOperands_iff.1 hy
      exact List.Lex.nil

/-! ## The two searches -/

theorem report_of_diagnostic?_eq_none (h : c.diagnostic? = none) : n.report c = [] := by
  rw [report, fold_eq, reportStep, h]

theorem report_of_diagnostic? {d : Diagnostic} (h : c.diagnostic? = some d) :
    n.report c = (c.own?.map (Report.ofNode n)).toList ++
      (List.zipWith report n.children c.children).flatten := by
  have hown : (c.own?.map (Report.ofNode n)).toList =
      if d.isRootCause then [Report.ofNode n d] else [] := by
    rw [Checked.own?, h, Option.filter_some]
    split <;> rfl
  have hlayer : (n.expr.map report).children = n.children.map report :=
    Expr.children_map report n.expr
  rw [report, fold_eq, ← report, reportStep, h, hlayer, List.zipWith_map_left, hown]

theorem firstError_of_diagnostic?_eq_none (h : c.diagnostic? = none) : n.firstError c = none := by
  rw [firstError, fold_eq, firstErrorStep, h]

theorem firstError_of_diagnostic? {d : Diagnostic} (h : c.diagnostic? = some d) :
    n.firstError c = (c.own?.map (n, ·)).or
      ((List.zipWith firstError n.children c.children).findSome? id) := by
  have hlayer : (n.expr.map firstError).children = n.children.map firstError :=
    Expr.children_map firstError n.expr
  have hown : c.own? = if d.isRootCause then some d else none := by
    rw [Checked.own?, h, Option.filter_some]
  rw [firstError, fold_eq, ← firstError, firstErrorStep, h, hlayer, List.zipWith_map_left, hown]
  by_cases hroot : d.isRootCause = true
  · rw [if_pos hroot]
    exact if_pos hroot
  · rw [if_neg hroot]
    exact if_neg hroot

end Node

namespace Context

variable {ctx : Context} {n : Node} {c : Checked}

/-- What is wrong with a checked node is what is found there. -/
theorem finds_of_diagnostic? {diagnostic : Diagnostic} (h : ctx.check n = .ok c)
    (hdiagnostic : c.diagnostic? = some diagnostic) : ctx.Finds n c (.wrong diagnostic.kind) := by
  have hverdict : c.verdict = .failed diagnostic := by
    obtain ⟨verdict, level, children⟩ := c
    cases verdict with
    | leaf t => cases hdiagnostic
    | resolved r => cases hdiagnostic
    | failed d => exact congrArg Verdict.failed (Option.some.inj hdiagnostic)
  obtain ⟨finding, hfinds, -⟩ := existsUnique_finds h
  have hfinding : finding = .wrong diagnostic.kind := by
    rw [hfinds.eq_finding, hverdict]
    rfl
  rwa [← hfinding]

/-- A node with a root cause has operands that nothing is wrong with. -/
theorem isValid_children_of_own? {diagnostic : Diagnostic} (h : ctx.check n = .ok c)
    (hown : c.own? = some diagnostic) : ∀ d ∈ c.children, d.isValid = true := by
  obtain ⟨hdiagnostic, hroot⟩ := Checked.own?_eq_some_iff.1 hown
  have hfinds := finds_of_diagnostic? h hdiagnostic
  cases hkind : diagnostic.kind with
  | operandErrors => exact absurd hkind hroot
  | unknownField =>
    rw [hkind] at hfinds
    obtain ⟨path, hn, -, -⟩ := hfinds
    have hchildren : List.Forall₂ (fun m d => ctx.check m = .ok d) [] c.children := by
      have hoperands := check_children h
      rwa [Node.children, hn] at hoperands
    rw [List.forall₂_nil_left_iff.1 hchildren]
    exact List.forall_mem_nil _
  | unknownName =>
    rw [hkind] at hfinds
    exact hfinds.1.valid
  | operandTypes =>
    rw [hkind] at hfinds
    exact hfinds.1.valid
  | nestedAggregate =>
    rw [hkind] at hfinds
    exact hfinds.1
  | mixedLevels =>
    rw [hkind] at hfinds
    exact hfinds.2.1
  | aggregateCondition =>
    rw [hkind] at hfinds
    exact hfinds.elim

/-- A node that is wrong but has no root cause itself has an operand that is wrong. -/
theorem exists_invalid_child (h : ctx.check n = .ok c) (hv : c.isValid = false)
    (hown : c.own? = none) : ∃ d ∈ c.children, d.isValid = false := by
  obtain ⟨diagnostic, hdiagnostic⟩ := Option.isSome_iff_exists.1 (Option.isNone_eq_false_iff.1 hv)
  have hkind : diagnostic.kind = .operandErrors := by
    by_contra hroot
    rw [Checked.own?_eq_some_iff.2 ⟨hdiagnostic, hroot⟩] at hown
    cases hown
  have hfinds := finds_of_diagnostic? h hdiagnostic
  rw [hkind] at hfinds
  exact hfinds.2.1

theorem causes_eq_nil (h : ctx.check n = .ok c) (hv : c.isValid = true) : n.causes c = [] := by
  induction n using Node.induction generalizing c with
  | step n ih =>
    have hown : c.own? = none := by
      rw [Checked.own?, Option.isNone_iff_eq_none.1 hv]
      rfl
    refine List.eq_nil_iff_forall_not_mem.2 fun x hx => ?_
    rw [Node.causes_eq, hown, Option.map_none, Option.toList_none, List.nil_append,
      Cause.mem_ofOperands_iff] at hx
    obtain ⟨k, xs, hxs, y, hy, -⟩ := hx
    obtain ⟨m, d, hm, hd, rfl⟩ := List.getElem?_zipWith_eq_some.1 hxs
    obtain ⟨d', hd', hcheck⟩ := exists_getElem?_of_forall₂ (check_children h) hm
    obtain rfl : d' = d := Option.some.inj (hd'.symm.trans hd)
    have hvalid : d'.isValid = true := isValid_children h hv d' (List.mem_of_getElem? hd)
    rw [ih m (List.mem_of_getElem? hm) hcheck hvalid] at hy
    cases hy

theorem causes_ne_nil (h : ctx.check n = .ok c) (hv : c.isValid = false) : n.causes c ≠ [] := by
  induction n using Node.induction generalizing c with
  | step n ih =>
    rw [Node.causes_eq]
    cases hown : c.own? with
    | some d => simp
    | none =>
      obtain ⟨d, hd, hinvalid⟩ := exists_invalid_child h hv hown
      obtain ⟨k, hk⟩ := List.getElem?_of_mem hd
      obtain ⟨m, hm, hcheck⟩ := exists_getElem?_of_forall₂ (check_children h).flip hk
      obtain ⟨y, hy⟩ := List.exists_mem_of_ne_nil _ (ih m (List.mem_of_getElem? hm) hcheck hinvalid)
      have hxs : (List.zipWith Node.causes n.children c.children)[k]? = some (m.causes d) :=
        List.getElem?_zipWith_eq_some.2 ⟨m, d, hm, hk, rfl⟩
      have hmem : y.inOperand k ∈
          Cause.ofOperands (List.zipWith Node.causes n.children c.children) :=
        Cause.mem_ofOperands_iff.2 ⟨k, m.causes d, hxs, y, hy, rfl⟩
      exact List.ne_nil_of_mem (List.mem_append_right _ hmem)

theorem causes_eq_nil_iff (h : ctx.check n = .ok c) : n.causes c = [] ↔ c.isValid = true := by
  constructor
  · intro hnil
    cases hv : c.isValid with
    | true => rfl
    | false => exact absurd hnil (causes_ne_nil h hv)
  · exact causes_eq_nil h

/-- The first search finds the reports of all root causes, though it skips what is below a valid
node. -/
theorem report_eq_map_causes (h : ctx.check n = .ok c) :
    n.report c = (n.causes c).map Cause.report := by
  induction n using Node.induction generalizing c with
  | step n ih =>
    cases hdiagnostic : c.diagnostic? with
    | none =>
      have hv : c.isValid = true := Option.isNone_iff_eq_none.2 hdiagnostic
      rw [Node.report_of_diagnostic?_eq_none hdiagnostic, causes_eq_nil h hv, List.map_nil]
    | some d =>
      have hoperands : List.zipWith Node.report n.children c.children =
          List.zipWith (fun m e => (m.causes e).map Cause.report) n.children c.children := by
        refine zipWith_congr_of_forall₂ (check_children h) fun m hm e hcheck => ?_
        exact ih m hm hcheck
      have hown : (c.own?.map (Report.ofNode n)).toList =
          (c.own?.map fun d => (⟨[], n, d⟩ : Cause)).toList.map Cause.report := by
        cases c.own? <;> rfl
      rw [Node.report_of_diagnostic? hdiagnostic, Node.causes_eq, List.map_append, ← hown,
        Cause.map_ofOperands fun _ _ => rfl, List.map_zipWith, hoperands]

/-- The second search finds the first of all root causes. -/
theorem firstError_eq_head?_causes (h : ctx.check n = .ok c) :
    n.firstError c = ((n.causes c).map fun x => (x.node, x.diagnostic)).head? := by
  induction n using Node.induction generalizing c with
  | step n ih =>
    cases hdiagnostic : c.diagnostic? with
    | none =>
      have hv : c.isValid = true := Option.isNone_iff_eq_none.2 hdiagnostic
      rw [Node.firstError_of_diagnostic?_eq_none hdiagnostic, causes_eq_nil h hv]
      rfl
    | some d =>
      have hoperands : List.zipWith Node.firstError n.children c.children =
          (List.zipWith (fun m e => (m.causes e).map fun x => (x.node, x.diagnostic)) n.children
            c.children).map List.head? := by
        rw [List.map_zipWith]
        refine zipWith_congr_of_forall₂ (check_children h) fun m hm e hcheck => ?_
        exact ih m hm hcheck
      have hown : (c.own?.map (n, ·)) = ((c.own?.map fun d => (⟨[], n, d⟩ : Cause)).toList.map
          fun x => (x.node, x.diagnostic)).head? := by
        cases c.own? <;> rfl
      rw [Node.firstError_of_diagnostic? hdiagnostic, Node.causes_eq, List.map_append,
        List.head?_append, ← hown, Cause.map_ofOperands fun _ _ => rfl, List.map_zipWith,
        List.head?_flatten, hoperands, List.findSome?_map, Function.id_comp]

/-- The reports of a checked expression are those of the root causes of the whole tree, each before
those of its operands and none of them twice; the search for a first error finds the first of them.
There is none if and only if the expression is valid, and a node that is reported has operands that
nothing is wrong with. -/
theorem report_lists_root_causes (h : ctx.check n = .ok c) :
    (∀ place m, n.part? place = some m → ∃ d, c.part? place = some d ∧ ctx.check m = .ok d) ∧
      ∃ causes : List Cause,
        causes.Pairwise Cause.Before ∧
        (∀ x, x ∈ causes ↔ n.HasCause c x) ∧
        n.report c = causes.map Cause.report ∧
        n.firstError c = (causes.map fun x => (x.node, x.diagnostic)).head? ∧
        (n.report c = [] ↔ c.isValid = true) ∧
        ∀ x ∈ causes, ∀ d, c.part? x.place = some d → ∀ e ∈ d.children, e.isValid = true := by
  refine ⟨fun place m hm => check_part? h hm, n.causes c, n.pairwise_causes c,
    fun x => Node.mem_causes_iff, report_eq_map_causes h, firstError_eq_head?_causes h, ?_, ?_⟩
  · rw [report_eq_map_causes h, List.map_eq_nil_iff]
    exact causes_eq_nil_iff h
  · intro x hx d hd
    obtain ⟨hnode, ⟨d', hd', hdiagnostic⟩, hroot⟩ := Node.mem_causes_iff.1 hx
    obtain rfl : d = d' := Option.some.inj (hd.symm.trans hd')
    obtain ⟨e, he, hcheck⟩ := check_part? h hnode
    obtain rfl : d = e := Option.some.inj (hd.symm.trans he)
    exact isValid_children_of_own? hcheck (Checked.own?_eq_some_iff.2 ⟨hdiagnostic, hroot⟩)

/-- In `lower(x) + y` the function and the second field are reported, and the sum is not. -/
theorem report_lists_root_causes_unknown :
    let ctx : Context := ⟨⟨[⟨"x", .int, none, none⟩]⟩, ⟨.oracle, [], rfl⟩, .inline⟩
    let y : Node := .ofExpr (.field "y")
    let call : Node := .ofExpr (.func "lower" [.ofExpr (.field "x")])
    let sum : Node := .ofExpr (.binary .add call y)
    ∃ c, ctx.check sum = .ok c ∧ c.isValid = false ∧
      sum.report c = [.ofNode call call.unknownName, .ofNode y (y.unknownField "y")] ∧
      ∃ causes : List Cause, causes.Pairwise Cause.Before ∧
        (∀ x, x ∈ causes ↔ sum.HasCause c x) ∧ sum.report c = causes.map Cause.report := by
  intro ctx y call sum
  obtain ⟨c, hc, hv, hfound⟩ : ∃ c, ctx.check sum = .ok c ∧ c.isValid = false ∧
      sum.report c = [.ofNode call call.unknownName, .ofNode y (y.unknownField "y")] :=
    ⟨_, rfl, rfl, rfl⟩
  obtain ⟨-, causes, hsorted, hmem, hreport, -⟩ := report_lists_root_causes hc
  exact ⟨c, hc, hv, hfound, causes, hsorted, hmem, hreport⟩

end Context

end TypedSql
