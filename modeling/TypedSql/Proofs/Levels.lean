import TypedSql.Proofs.Checking

/-!
# What the level of an expression says

The level of a valid expression tells what the expression contains. It is constant if there are
neither fields nor aggregate functions, it is about rows if there are fields and no aggregate
functions, and otherwise it names the aggregate function that comes first. Then all fields stand in
the arguments of aggregate functions, and none of these arguments has an aggregate function in it.
-/

namespace TypedSql

/-! ## Levels that combine -/

namespace Level

/-- The aggregate function that a level names. -/
def function? : Level → Option Aggregate
  | aggregated g => some g
  | _ => none

theorem function?_combine {a b l : Level} (h : a.combine b = some l) :
    l.function? = a.function?.or b.function? := by
  cases a <;> cases b <;> cases h <;> rfl

theorem combine_eq_row_iff {a b l : Level} (h : a.combine b = some l) :
    l = row ↔ a = row ∨ b = row := by
  cases a <;> cases b <;> cases h <;> simp

/-- The combined level names the function of the first operand that has one. -/
theorem function?_combineAll {levels : List Level} {l : Level} (h : combineAll levels = some l) :
    l.function? = levels.findSome? function? := by
  -- the induction is on the levels from the last one on, which is combined with all before it
  induction levels using List.reverseRecOn generalizing l with
  | nil =>
    cases h
    rfl
  | append_singleton levels b ih =>
    rw [combineAll_append_singleton] at h
    obtain ⟨a, ha, hab⟩ := Option.bind_eq_some_iff.1 h
    have hlast : [b].findSome? function? = b.function? := by
      rw [List.findSome?_singleton]
    rw [function?_combine hab, ih ha, List.findSome?_append, hlast]

theorem combineAll_eq_row_iff {levels : List Level} {l : Level} (h : combineAll levels = some l) :
    l = row ↔ row ∈ levels := by
  induction levels using List.reverseRecOn generalizing l with
  | nil =>
    cases h
    simp
  | append_singleton levels b ih =>
    rw [combineAll_append_singleton] at h
    obtain ⟨a, ha, hab⟩ := Option.bind_eq_some_iff.1 h
    rw [combine_eq_row_iff hab, ih ha, List.mem_append, List.mem_singleton, eq_comm (a := b)]

end Level

/-! ## What an expression contains -/

namespace Node

/-- The aggregate function that a node calls. -/
def function? (n : Node) : Option Aggregate :=
  match n.expr with
  | .aggregate g _ => some g
  | _ => none

/-- Whether a node is a field. -/
def IsField (n : Node) : Prop := ∃ path, n.expr = .field path

/-- Whether there is a field in an expression. -/
def HasField (n : Node) : Prop := ∃ m ∈ n.preorder, m.IsField

/-- Whether there is an aggregate function in an expression. -/
def HasAggregate (n : Node) : Prop := ∃ m ∈ n.preorder, m.IsAggregate

/-- The first aggregate function of an expression, where each node comes before its operands. -/
def firstAggregate? (n : Node) : Option Aggregate := n.preorder.findSome? function?

/-- A node before all the nodes below it, but nothing below an aggregate function. -/
def outsideStep (n : Node) (layer : Expr (List Node)) : List Node :=
  match layer with
  | .aggregate _ _ => [n]
  | _ => n :: layer.children.flatten

/-- The nodes of an expression that stand in no argument of an aggregate function. -/
def outside : Node → List Node := fold outsideStep

theorem function?_eq_some_iff {n : Node} {g : Aggregate} :
    n.function? = some g ↔ ∃ args, n.expr = .aggregate g args := by
  obtain ⟨e, origin⟩ := n
  cases e <;> simp [function?]

theorem function?_eq_none {n : Node} (h : ¬ n.IsAggregate) : n.function? = none := by
  cases hn : n.function? with
  | none => rfl
  | some g =>
    obtain ⟨args, hargs⟩ := function?_eq_some_iff.1 hn
    exact absurd ⟨g, args, hargs⟩ h

/-- A node comes before its operands, and these from left to right. -/
theorem firstAggregate?_eq (n : Node) :
    n.firstAggregate? = n.function?.or ((n.children.map firstAggregate?).findSome? id) := by
  rw [firstAggregate?, findSome?_preorder, List.findSome?_map]
  rfl

theorem hasAggregate_iff {n : Node} : n.HasAggregate ↔ ∃ g, n.firstAggregate? = some g := by
  have hfunction : ∀ m : Node, m.IsAggregate ↔ m.function?.isSome = true := by
    intro m
    rw [Option.isSome_iff_exists]
    exact exists_congr fun g => function?_eq_some_iff.symm
  unfold HasAggregate firstAggregate?
  rw [← Option.isSome_iff_exists, List.findSome?_isSome_iff]
  simp only [hfunction]

theorem mem_outside_iff {n m : Node} :
    m ∈ n.outside ↔ m = n ∨ ¬ n.IsAggregate ∧ ∃ child ∈ n.children, m ∈ child.outside := by
  rw [outside, fold_eq, ← outside]
  obtain ⟨e, origin⟩ := n
  cases e <;> simp [outsideStep, Expr.map, Expr.children, children, IsAggregate]

/-- Whether there is a field that stands in no argument of an aggregate function. -/
def HasOuterField (n : Node) : Prop := ∃ m ∈ n.outside, m.IsField

theorem hasOuterField_iff {n : Node} :
    n.HasOuterField ↔
      n.IsField ∨ ¬ n.IsAggregate ∧ ∃ child ∈ n.children, child.HasOuterField := by
  constructor
  · rintro ⟨m, hm, hfield⟩
    rcases mem_outside_iff.1 hm with rfl | ⟨haggregate, child, hchild, hm⟩
    · exact Or.inl hfield
    · exact Or.inr ⟨haggregate, child, hchild, m, hm, hfield⟩
  · rintro (hfield | ⟨haggregate, child, hchild, m, hm, hfield⟩)
    · exact ⟨n, mem_outside_iff.2 (Or.inl rfl), hfield⟩
    · exact ⟨m, mem_outside_iff.2 (Or.inr ⟨haggregate, child, hchild, hm⟩), hfield⟩

/-- Without aggregate functions, no node stands in an argument of one. -/
theorem mem_outside_of_mem_preorder {n m : Node} (hn : ¬ n.HasAggregate) (hm : m ∈ n.preorder) :
    m ∈ n.outside := by
  induction n using Node.induction with
  | step n ih =>
    rcases mem_preorder_iff.1 hm with rfl | ⟨child, hchild, hm⟩
    · exact mem_outside_iff.2 (Or.inl rfl)
    · have hself : ¬ n.IsAggregate := fun h => hn ⟨n, n.mem_preorder_self, h⟩
      have hbelow : ¬ child.HasAggregate := by
        rintro ⟨k, hk, haggregate⟩
        exact hn ⟨k, mem_preorder_iff.2 (Or.inr ⟨child, hchild, hk⟩), haggregate⟩
      exact mem_outside_iff.2 (Or.inr ⟨hself, child, hchild, ih child hchild hbelow hm⟩)

theorem mem_preorder_of_mem_outside {n m : Node} (hm : m ∈ n.outside) : m ∈ n.preorder := by
  induction n using Node.induction with
  | step n ih =>
    rcases mem_outside_iff.1 hm with rfl | ⟨-, child, hchild, hm⟩
    · exact m.mem_preorder_self
    · exact mem_preorder_iff.2 (Or.inr ⟨child, hchild, ih child hchild hm⟩)

end Node

/-! ## The level of a valid expression -/

namespace Context

variable {ctx : Context} {n : Node} {c : Checked}

/-- A valid expression is a constant, a field, an aggregate function with arguments that are not
aggregated, or it has operands whose levels combine. -/
theorem level_cases (h : ctx.check n = .ok c) (hv : c.isValid = true) :
    (n.children = [] ∧ ¬ n.IsAggregate ∧ ¬ n.IsField ∧ c.level = .constant) ∨
    (n.children = [] ∧ ¬ n.IsAggregate ∧ n.IsField ∧ c.level = .row) ∨
    (∃ g, n.function? = some g ∧ c.level = .aggregated g) ∨
    (¬ n.IsAggregate ∧ ¬ n.IsField ∧
      Level.combineAll (c.children.map (·.level)) = some c.level) := by
  rcases judge_of_isValid (judge_of_check h) hv with ⟨v, hn, rfl⟩ | ⟨path, f, hn, -, rfl⟩ |
    ⟨r, level, hc, hresolves⟩
  · left
    simp [Node.children, Node.IsAggregate, Node.IsField, hn, Expr.children]
  · right; left
    simp [Node.children, Node.IsAggregate, Node.IsField, hn, Expr.children]
  · have hlevel : c.level = level := by rw [hc]
    by_cases haggregate : n.IsAggregate
    · obtain ⟨g, args, hn⟩ := haggregate
      rw [hn] at hresolves
      refine Or.inr (Or.inr (Or.inl ⟨g, Node.function?_eq_some_iff.2 ⟨args, hn⟩, ?_⟩))
      rw [hlevel]
      exact hresolves.1
    · have hfield : ¬ n.IsField := by
        rintro ⟨path, hn⟩
        rw [hn] at hresolves
        cases hresolves
      have hcombine := hresolves.combine fun g args he =>
        haggregate (Node.isAggregate_of_head_eq he)
      rw [hlevel]
      exact Or.inr (Or.inr (Or.inr ⟨haggregate, hfield, hcombine.2⟩))

/-- The level names the first aggregate function. -/
theorem firstAggregate?_of_check (h : ctx.check n = .ok c) (hv : c.isValid = true) :
    n.firstAggregate? = c.level.function? := by
  induction n using Node.induction generalizing c with
  | step n ih =>
    have hchildren : n.children.map Node.firstAggregate? =
        c.children.map (fun d => d.level.function?) := by
      rw [← List.forall₂_eq_eq_eq, List.forall₂_map_left_iff, List.forall₂_map_right_iff]
      refine forall₂_imp_of_mem (check_children h) ?_
      intro m hm d hd hcheck
      exact ih m hm hcheck (isValid_children h hv d hd)
    rw [Node.firstAggregate?_eq]
    rcases level_cases h hv with ⟨hnil, haggregate, -, hlevel⟩ | ⟨hnil, haggregate, -, hlevel⟩ |
      ⟨g, hg, hlevel⟩ | ⟨haggregate, -, hcombine⟩
    · rw [Node.function?_eq_none haggregate, hnil, hlevel]
      rfl
    · rw [Node.function?_eq_none haggregate, hnil, hlevel]
      rfl
    · rw [hg, hlevel]
      rfl
    · rw [Node.function?_eq_none haggregate, hchildren, Level.function?_combineAll hcombine,
        List.findSome?_map, List.findSome?_map]
      rfl

theorem hasOuterField_iff_level (h : ctx.check n = .ok c) (hv : c.isValid = true) :
    n.HasOuterField ↔ c.level = .row := by
  induction n using Node.induction generalizing c with
  | step n ih =>
    rw [Node.hasOuterField_iff]
    rcases level_cases h hv with ⟨hnil, -, hfield, hlevel⟩ | ⟨-, -, hfield, hlevel⟩ |
      ⟨g, hg, hlevel⟩ | ⟨haggregate, hfield, hcombine⟩
    · simp [hnil, hfield, hlevel]
    · simp [hfield, hlevel]
    · obtain ⟨args, hn⟩ := Node.function?_eq_some_iff.1 hg
      simp [Node.IsField, Node.IsAggregate, hn, hlevel]
    · rw [Level.combineAll_eq_row_iff hcombine, List.mem_map, or_iff_right hfield,
        and_iff_right haggregate]
      constructor
      · rintro ⟨child, hchild, houter⟩
        obtain ⟨d, hd, hcheck⟩ := exists_of_forall₂_of_mem (check_children h) hchild
        exact ⟨d, hd, (ih child hchild hcheck (isValid_children h hv d hd)).1 houter⟩
      · rintro ⟨d, hd, hrow⟩
        obtain ⟨child, hchild, hcheck⟩ := exists_of_forall₂_of_mem (check_children h).flip hd
        exact ⟨child, hchild, (ih child hchild hcheck (isValid_children h hv d hd)).2 hrow⟩

theorem hasAggregate_iff_level (h : ctx.check n = .ok c) (hv : c.isValid = true) :
    n.HasAggregate ↔ ∃ g, c.level = .aggregated g := by
  rw [Node.hasAggregate_iff, firstAggregate?_of_check h hv]
  cases c.level <;> simp [Level.function?]

theorem hasField_iff_level (h : ctx.check n = .ok c) (hv : c.isValid = true)
    (haggregate : ¬ n.HasAggregate) : n.HasField ↔ c.level = .row := by
  rw [← hasOuterField_iff_level h hv]
  constructor
  · rintro ⟨m, hm, hfield⟩
    exact ⟨m, Node.mem_outside_of_mem_preorder haggregate hm, hfield⟩
  · rintro ⟨m, hm, hfield⟩
    exact ⟨m, Node.mem_preorder_of_mem_outside hm, hfield⟩

/-- No aggregate function of a valid expression has another one in its arguments. -/
theorem not_hasAggregate_of_argument {m arg : Node} (h : ctx.check n = .ok c)
    (hv : c.isValid = true) (hm : m ∈ n.preorder) (haggregate : m.IsAggregate)
    (harg : arg ∈ m.children) : ¬ arg.HasAggregate := by
  obtain ⟨d, hcheck, hdv⟩ := exists_check_of_mem_preorder h hv hm
  obtain ⟨g, args, hexpr⟩ := haggregate
  obtain ⟨e, he, hcheckArg⟩ := exists_of_forall₂_of_mem (check_children hcheck) harg
  have hlevel := level_children_of_aggregate hcheck hdv hexpr e he
  rw [hasAggregate_iff_level hcheckArg (isValid_children hcheck hdv e he)]
  rintro ⟨g', hg'⟩
  rw [hg'] at hlevel
  cases hlevel

/-- What the level of a valid expression says. It is constant if and only if the expression has
neither fields nor aggregate functions, about rows if and only if it has fields and no aggregate
functions, and aggregated if and only if it has aggregate functions. Then it names the first of
them, no field stands outside their arguments, and none of them stands in an argument of another. -/
theorem level_iff_contents (h : ctx.check n = .ok c) (hv : c.isValid = true) :
    (c.level = .constant ↔ ¬ n.HasField ∧ ¬ n.HasAggregate) ∧
    (c.level = .row ↔ n.HasField ∧ ¬ n.HasAggregate) ∧
    ((∃ g, c.level = .aggregated g) ↔ n.HasAggregate) ∧
    ∀ g, c.level = .aggregated g →
      n.firstAggregate? = some g ∧ (∀ m ∈ n.outside, ¬ m.IsField) ∧
      ∀ m ∈ n.preorder, m.IsAggregate → ∀ arg ∈ m.children, ¬ arg.HasAggregate := by
  have haggregate := hasAggregate_iff_level h hv
  have hfield := hasField_iff_level h hv
  refine ⟨?_, ?_, haggregate.symm, ?_⟩
  · constructor
    · intro hlevel
      have hnone : ¬ n.HasAggregate := by simp [haggregate, hlevel]
      have hnofield : ¬ n.HasField := by simp [hfield hnone, hlevel]
      exact ⟨hnofield, hnone⟩
    · rintro ⟨hnofield, hnone⟩
      rw [hfield hnone] at hnofield
      rw [haggregate] at hnone
      cases hlevel : c.level with
      | constant => rfl
      | row => exact absurd hlevel hnofield
      | aggregated g => exact absurd ⟨g, hlevel⟩ hnone
  · constructor
    · intro hlevel
      have hnone : ¬ n.HasAggregate := by simp [haggregate, hlevel]
      exact ⟨(hfield hnone).2 hlevel, hnone⟩
    · rintro ⟨hsome, hnone⟩
      exact (hfield hnone).1 hsome
  · intro g hlevel
    refine ⟨?_, ?_, ?_⟩
    · rw [firstAggregate?_of_check h hv, hlevel]
      rfl
    · intro m hm hmfield
      have hrow := (hasOuterField_iff_level h hv).1 ⟨m, hm, hmfield⟩
      rw [hlevel] at hrow
      cases hrow
    · intro m hm hmaggregate arg harg
      exact not_hasAggregate_of_argument h hv hm hmaggregate harg

/-- In `1 + count(x) + sum(x)` the first aggregate function is not the topmost node, and the fields
stand in arguments only. -/
theorem level_iff_contents_count :
    let rules : RuleTable := ⟨.oracle,
      [⟨.binary .add, .int, [.type .int, .type .int], ⟨[.child 0, .text "+", .child 1]⟩⟩,
       ⟨.aggregate .count, .int, [.type .int], ⟨[.child 0]⟩⟩,
       ⟨.aggregate .sum, .int, [.type .int], ⟨[.child 0]⟩⟩], rfl⟩
    let ctx : Context := ⟨⟨[⟨"x", .int, none, none⟩]⟩, rules, .inline⟩
    let x : Node := .ofExpr (.field "x")
    let count : Node := .ofExpr (.aggregate .count [x])
    let sum : Node := .ofExpr (.aggregate .sum [x])
    let one : Node := .ofExpr (.const (.int 1))
    let n : Node := .ofExpr (.binary .add (.ofExpr (.binary .add one count)) sum)
    ∃ c, ctx.check n = .ok c ∧ c.isValid = true ∧ c.level = .aggregated .count ∧
      n.firstAggregate? = some .count ∧ ∀ m ∈ n.outside, ¬ m.IsField := by
  intro rules ctx x count sum one n
  have hcheck : ctx.check n = .ok _ := rfl
  obtain ⟨-, -, -, haggregated⟩ := level_iff_contents hcheck rfl
  obtain ⟨hfirst, houter, -⟩ := haggregated .count rfl
  exact ⟨_, hcheck, rfl, rfl, hfirst, houter⟩

end Context

end TypedSql
