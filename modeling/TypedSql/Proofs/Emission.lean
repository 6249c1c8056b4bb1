import TypedSql.Proofs.Sequencing
import TypedSql.Query.Statement

/-!
# SQL with literals inline

A generator runs with the values bound so far. One that writes all literals inline binds no values,
so that it is no more than a text or a fault. The SQL of an expression is then the text of its rule
with the SQL of the operands in place, and a statement is made of the lines of its clauses.
-/

namespace TypedSql

/-! ## Runs of generators -/

namespace Emit

variable {α β : Type} {params after : List Param}

theorem run_bind_eq_ok_iff {e : Emit α} {f : α → Emit β} {b : β} :
    (e >>= f).run params = .ok (b, after) ↔
      ∃ a between, e.run params = .ok (a, between) ∧ (f a).run between = .ok (b, after) := by
  rw [StateT.run_bind, bind_eq_ok_iff]
  simp [Prod.exists]

theorem run_bind_eq_error_iff {e : Emit α} {f : α → Emit β} {fault : Fault} :
    (e >>= f).run params = .error fault ↔
      e.run params = .error fault ∨
        ∃ a between, e.run params = .ok (a, between) ∧ (f a).run between = .error fault := by
  rw [StateT.run_bind, bind_eq_error_iff]
  simp [Prod.exists]

theorem run_pure_ne_error (a : α) (params : List Param) (fault : Fault) :
    (pure a : Emit α).run params ≠ .error fault := by
  intro h
  cases h

theorem run_of_toFragment {e : Emit String} {f : Fragment} (h : e.toFragment = .ok f) :
    e.run [] = .ok (f.sql, f.params) := by
  unfold toFragment at h
  split at h
  · rename_i sql params hrun
    cases h
    exact hrun
  · cases h

/-! ## Generators that bind nothing -/

/-- A generator that returns a value, or fails, and leaves the bound values alone. -/
def inline (r : Except Fault α) : Emit α := StateT.lift r

theorem pure_eq_inline (a : α) : (pure a : Emit α) = inline (.ok a) := rfl

theorem fail_eq_inline (fault : Fault) : (fail fault : Emit α) = inline (.error fault) := rfl

theorem run_inline_eq_ok_iff {r : Except Fault α} {a : α} :
    (inline r).run params = .ok (a, after) ↔ r = .ok a ∧ after = params := by
  cases r with
  | error fault =>
    constructor
    · intro h
      cases h
    · rintro ⟨h, -⟩
      cases h
  | ok b =>
    constructor
    · intro h
      cases h
      exact ⟨rfl, rfl⟩
    · rintro ⟨h, rfl⟩
      cases h
      rfl

theorem inline_bind (r : Except Fault α) (f : α → Except Fault β) :
    (inline r >>= fun a => inline (f a)) = inline (r >>= f) := by
  funext params
  cases r with
  | error fault => rfl
  | ok a => rfl

theorem toFragment_inline_bind (r : Except Fault α) (f : α → Emit String) :
    (inline r >>= f).toFragment = r >>= fun a => (f a).toFragment := by
  cases r with
  | error fault => rfl
  | ok a => rfl

/-- What a generator returns if nothing has been bound before. -/
def result (e : Emit α) : Except Fault α := (e.run []).map (·.1)

theorem result_inline (r : Except Fault α) : (inline r).result = r := by
  cases r with
  | error fault => rfl
  | ok a => rfl

/-- Whether a generator binds nothing and does not depend on what has been bound. -/
def IsInline (e : Emit α) : Prop := e = inline e.result

theorem isInline_inline (r : Except Fault α) : IsInline (inline r) := by
  rw [IsInline, result_inline]

theorem isInline_pure (a : α) : IsInline (pure a : Emit α) := isInline_inline (.ok a)

theorem isInline_fail (fault : Fault) : IsInline (fail fault : Emit α) :=
  isInline_inline (.error fault)

theorem IsInline.bind_eq {e : Emit α} {f : α → Emit β} (he : IsInline e)
    (hf : ∀ a, IsInline (f a)) : e >>= f = inline (e.result >>= fun a => (f a).result) := by
  rw [← inline_bind, ← he]
  exact congrArg _ (funext hf)

theorem IsInline.bind {e : Emit α} {f : α → Emit β} (he : IsInline e)
    (hf : ∀ a, IsInline (f a)) : IsInline (e >>= f) := by
  rw [he.bind_eq hf]
  exact isInline_inline _

theorem IsInline.result_bind {e : Emit α} {f : α → Emit β} (he : IsInline e)
    (hf : ∀ a, IsInline (f a)) : (e >>= f).result = e.result >>= fun a => (f a).result := by
  rw [he.bind_eq hf, result_inline]

/-- Generators one after the other bind nothing if none of them does. -/
theorem emitEach_eq_inline {emit : α → Emit String} (h : ∀ item, IsInline (emit item))
    (items : List α) :
    Query.emitEach emit items = inline (items.mapM fun item => (emit item).result) := by
  induction items with
  | nil => rfl
  | cons item items ih =>
    rw [Query.emitEach, ih, List.mapM_cons, (h item).bind_eq]
    · refine congrArg inline (congrArg _ (funext fun line => ?_))
      rw [(isInline_inline _).result_bind fun lines => isInline_pure (line :: lines), result_inline]
      rfl
    · exact fun line => (isInline_inline _).bind fun lines => isInline_pure (line :: lines)

end Emit

/-! ## Templates -/

namespace Template

/-- The text of a piece of a template. -/
def fillPiece (t : Template) (operands : List (Except TypedSql.Fault String)) :
    Piece → Except TypedSql.Fault String
  | .text text => .ok text
  | .child index => operands[index]?.getD (.error (.shape (.missingChild t index)))

/-- The text of pieces of a template, one after the other. -/
def fillPieces (t : Template) (operands : List (Except TypedSql.Fault String)) :
    List Piece → Except TypedSql.Fault String
  | [] => .ok ""
  | piece :: pieces => do
    let first ← t.fillPiece operands piece
    let rest ← t.fillPieces operands pieces
    return first ++ rest

/-- The text of a template whose operands have the given texts. -/
def fill (t : Template) (operands : List (Except TypedSql.Fault String)) :
    Except TypedSql.Fault String :=
  t.fillPieces operands t.pieces

/-- Expanding a template with operands that bind nothing is filling in their texts. -/
theorem expand_inline (t : Template) (operands : List (Except TypedSql.Fault String)) :
    t.expand (operands.map Emit.inline) = Emit.inline (t.fill operands) := by
  have hpiece : ∀ piece, t.expandPiece (operands.map Emit.inline) piece =
      Emit.inline (t.fillPiece operands piece) := by
    intro piece
    cases piece with
    | text text => rfl
    | child index =>
      rw [expandPiece, fillPiece, List.getElem?_map]
      cases operands[index]? <;> rfl
  rw [expand, fill]
  induction t.pieces with
  | nil => rfl
  | cons piece pieces ih =>
    rw [expandPieces, fillPieces, hpiece, ih, ← Emit.inline_bind]
    refine congrArg _ (funext fun first => ?_)
    exact Emit.inline_bind _ fun rest => .ok (first ++ rest)

end Template

/-! ## Expressions -/

/-- A constant as literal of a dialect. -/
def Constant.sql (d : Dialect) : Constant → String
  | null => "null"
  | bool b => if b then "1" else "0"
  | int n => numeral (toString n.toInt) (n < 0)
  | number v => numeral v.text v.negative
  | str s => d.quoteText s
  | date v => d.dateLiteral v
  | dateTime t => d.dateTimeLiteral t

theorem emitConstant_inline (d : Dialect) (v : Constant) :
    emitConstant d .inline v = Emit.inline (.ok (v.sql d)) := by
  cases v <;> rfl

/-- How the literals below a layer are written: inline if it is a grouping key. -/
def Expr.operandMode {α : Type} (mode : LiteralMode) : Expr α → LiteralMode
  | .aggregate .group _ => .inline
  | _ => mode

theorem Expr.operandMode_inline {α : Type} (e : Expr α) : e.operandMode .inline = .inline := by
  cases e with
  | aggregate g args => cases g <;> rfl
  | _ => rfl

namespace Context

variable (ctx : Context) (aliases : Aliases)

/-- The SQL of a field. -/
def fieldSql (path : String) : Except Fault String := (ctx.emitField aliases path).result

theorem emitField_inline (path : String) :
    ctx.emitField aliases path = Emit.inline (ctx.fieldSql aliases path) := by
  have h : ∃ r, ctx.emitField aliases path = Emit.inline r := by
    unfold emitField
    split
    · exact ⟨_, Emit.fail_eq_inline _⟩
    · split
      · exact ⟨_, Emit.pure_eq_inline _⟩
      · split
        · exact ⟨_, Emit.fail_eq_inline _⟩
        · exact ⟨_, Emit.pure_eq_inline _⟩
  obtain ⟨r, hr⟩ := h
  rw [fieldSql, hr, Emit.result_inline]

/-- The SQL of a node by the template of its rule, where the operands have the given SQL. -/
def ruleSql (n : Node) (c : Checked) (operands : List (Except Fault String)) :
    Except Fault String :=
  match c.rule? with
  | some r => r.template.fill operands
  | none => .error (.shape (.noRule n.description n.source))

theorem emitRule_inline (n : Node) (c : Checked) (operands : List (Except Fault String)) :
    emitRule n c (operands.map Emit.inline) = Emit.inline (ruleSql n c operands) := by
  unfold emitRule ruleSql
  cases c.rule? with
  | some r => exact Template.expand_inline r.template operands
  | none => rfl

/-- The SQL of an expression with all literals inline. -/
def inlineSql (n : Node) (c : Checked) : Except Fault String :=
  (ctx.emit aliases n c .inline).result

/-- A node other than a constant or a field is written by its rule. -/
theorem emit_of_rule {n : Node} (hconst : ∀ v, n.expr ≠ .const v)
    (hfield : ∀ path, n.expr ≠ .field path) (c : Checked) (mode : LiteralMode) :
    ctx.emit aliases n c mode =
      emitRule n c (List.zipWith (fun m d => ctx.emit aliases m d (n.expr.operandMode mode))
        n.children c.children) := by
  have hlayer : ∀ mode, emitOperands (n.expr.map (ctx.emit aliases)).children c.children mode =
      List.zipWith (fun m d => ctx.emit aliases m d mode) n.children c.children := by
    intro mode
    rw [emitOperands, Expr.children_map, List.zipWith_map_left, Node.children]
  rw [← hlayer, emit, Node.fold_eq, ← emit]
  obtain ⟨e, origin⟩ := n
  cases e with
  | const v => exact absurd rfl (hconst v)
  | field path => exact absurd rfl (hfield path)
  | aggregate g args => cases g <;> rfl
  | _ => rfl

theorem emit_const {n : Node} {v : Constant} (hn : n.expr = .const v) (c : Checked) :
    ctx.emit aliases n c .inline = Emit.inline (.ok (v.sql ctx.dialect)) := by
  rw [emit, Node.fold_eq, hn, ← emitConstant_inline]
  rfl

theorem emit_field {n : Node} {path : String} (hn : n.expr = .field path) (c : Checked) :
    ctx.emit aliases n c .inline = Emit.inline (ctx.fieldSql aliases path) := by
  rw [emit, Node.fold_eq, hn, ← emitField_inline]
  rfl

/-- An expression binds nothing if its literals are written inline. -/
theorem emit_inline (n : Node) (c : Checked) :
    ctx.emit aliases n c .inline = Emit.inline (ctx.inlineSql aliases n c) := by
  induction n using Node.induction generalizing c with
  | step n ih =>
    obtain ⟨r, hr⟩ : ∃ r, ctx.emit aliases n c .inline = Emit.inline r := by
      by_cases hconst : ∃ v, n.expr = .const v
      · obtain ⟨v, hn⟩ := hconst
        exact ⟨_, ctx.emit_const aliases hn c⟩
      by_cases hfield : ∃ path, n.expr = .field path
      · obtain ⟨path, hn⟩ := hfield
        exact ⟨_, ctx.emit_field aliases hn c⟩
      rw [not_exists] at hconst hfield
      have hoperands : List.zipWith (fun m d => ctx.emit aliases m d .inline) n.children
          c.children =
          (List.zipWith (ctx.inlineSql aliases) n.children c.children).map Emit.inline := by
        rw [List.map_zipWith]
        exact zipWith_congr_left ih c.children
      rw [ctx.emit_of_rule aliases hconst hfield, Expr.operandMode_inline, hoperands,
        emitRule_inline]
      exact ⟨_, rfl⟩
    rw [inlineSql, hr, Emit.result_inline]

theorem inlineSql_const {n : Node} {v : Constant} (hn : n.expr = .const v) (c : Checked) :
    ctx.inlineSql aliases n c = .ok (v.sql ctx.dialect) := by
  rw [inlineSql, ctx.emit_const aliases hn, Emit.result_inline]

theorem inlineSql_field {n : Node} {path : String} (hn : n.expr = .field path) (c : Checked) :
    ctx.inlineSql aliases n c = ctx.fieldSql aliases path := by
  rw [inlineSql, ctx.emit_field aliases hn, Emit.result_inline]

/-- The SQL of any other expression is made of the SQL of its operands by its rule. -/
theorem inlineSql_of_rule {n : Node} (hconst : ∀ v, n.expr ≠ .const v)
    (hfield : ∀ path, n.expr ≠ .field path) (c : Checked) :
    ctx.inlineSql aliases n c =
      ruleSql n c (List.zipWith (ctx.inlineSql aliases) n.children c.children) := by
  have hoperands : List.zipWith (fun m d => ctx.emit aliases m d .inline) n.children c.children =
      (List.zipWith (ctx.inlineSql aliases) n.children c.children).map Emit.inline := by
    rw [List.map_zipWith]
    exact zipWith_congr_left (fun m _ d => ctx.emit_inline aliases m d) c.children
  rw [inlineSql, ctx.emit_of_rule aliases hconst hfield, Expr.operandMode_inline, hoperands,
    emitRule_inline, Emit.result_inline]

/-! ## Statements -/

variable {ctx}

theorem isInline_ensureValid (n : Node) (c : Checked) : Emit.IsInline (ensureValid n c) := by
  unfold ensureValid
  split
  · exact Emit.isInline_pure ()
  · exact Emit.isInline_fail _

theorem isInline_emitValue (h : ctx.literals = .inline) (n : Node) (c : Checked) :
    Emit.IsInline (ctx.emitValue aliases n c) := by
  refine (isInline_ensureValid n c).bind fun _ => ?_
  rw [h, emit_inline]
  exact Emit.isInline_inline _

theorem isInline_emitKey (n : Node) (c : Checked) : Emit.IsInline (ctx.emitKey aliases n c) := by
  refine (isInline_ensureValid n c).bind fun _ => ?_
  rw [emit_inline]
  exact Emit.isInline_inline _

theorem isInline_emitCondition (h : ctx.literals = .inline) (n : Node) (c : Checked) :
    Emit.IsInline (ctx.emitCondition aliases n c) := by
  refine (isInline_ensureValid n c).bind fun _ => ?_
  split
  · exact Emit.isInline_fail _
  · exact Emit.isInline_fail _
  · rename_i truth _
    refine Emit.IsInline.bind ?_ fun sql => Emit.isInline_pure (sql ++ " = 1")
    have hexpand := truth.expand_inline [ctx.inlineSql aliases n c]
    rw [List.map_singleton, ← emit_inline, ← h] at hexpand
    rw [hexpand]
    exact Emit.isInline_inline _

theorem generate_eq (h : ctx.literals = .inline) (n : Node) (c : Checked) :
    ctx.generate n c =
      if c.isValid then (ctx.inlineSql [] n c).map (⟨·, []⟩)
      else .error (.unresolved (n.report c)) := by
  rw [generate, emitValue, ensureValid, h, emit_inline]
  split
  · cases ctx.inlineSql [] n c <;> rfl
  · rfl

/-- With literals inline, an expression compiles if and only if nothing is wrong with it and it has
SQL, and nothing is bound. -/
theorem compile_eq_ok_iff (h : ctx.literals = .inline) {n : Node} {f : Fragment} :
    ctx.compile n = .ok f ↔
      ∃ c, ctx.check n = .ok c ∧ c.isValid = true ∧ ctx.inlineSql [] n c = .ok f.sql ∧
        f.params = [] := by
  rw [compile, bind_eq_ok_iff]
  refine exists_congr fun c => and_congr_right fun _ => ?_
  rw [generate_eq h]
  obtain ⟨sql, params⟩ := f
  cases c.isValid with
  | false => simp
  | true => cases ctx.inlineSql [] n c <;> simp [Except.map, eq_comm]

end Context

theorem Entry.isInline_emitWith {emit : Node → Checked → Emit String}
    (h : ∀ n c, Emit.IsInline (emit n c)) (e : Entry) : Emit.IsInline (e.emitWith emit) := by
  cases e with
  | expr n c => exact h n c
  | sql text => exact Emit.isInline_pure text

namespace Query

variable {q : Query}

/-- The SQL of a condition. -/
def conditionSql (q : Query) (e : Entry) : Except Fault String :=
  (e.emitWith (q.context.emitCondition q.aliases)).result

/-- The line of a condition with the given SQL; if there are several, each is put in parentheses. -/
def conditionLine (q : Query) (sql : String) : String :=
  if q.conditions.length > 1 then "\t(" ++ sql ++ ")" else "\t" ++ sql

/-- The text of a query, given the lines of its clauses. -/
def assemble (q : Query) (items conditions keys order : List String) : String :=
  q.commentLine ++
    clause "select" "," (if items.isEmpty then ["\t42"] else items) ++
    clause "from" "," q.tableLines ++
    clause "where" " and" conditions ++
    clause "group by" "," keys ++
    clause "order by" "," order ++
    q.pageLines

theorem isInline_emitSelect (h : q.context.literals = .inline) (item : SelectItem) :
    Emit.IsInline (q.emitSelect item) := by
  refine Emit.IsInline.bind ?_ fun sql => Emit.isInline_pure _
  exact Entry.isInline_emitWith (Context.isInline_emitValue q.aliases h) item.entry

theorem isInline_emitGroupBy (e : Entry) : Emit.IsInline (q.emitGroupBy e) := by
  refine Emit.IsInline.bind ?_ fun sql => Emit.isInline_pure _
  exact Entry.isInline_emitWith (Context.isInline_emitKey q.aliases) e

theorem isInline_emitOrder (h : q.context.literals = .inline) (item : OrderItem) :
    Emit.IsInline (q.emitOrder item) := by
  refine Emit.IsInline.bind ?_ fun sql => Emit.isInline_pure _
  exact Entry.isInline_emitWith (Context.isInline_emitValue q.aliases h) item.entry

theorem emitWhere_eq_inline (h : q.context.literals = .inline) (e : Entry) :
    q.emitWhere e = Emit.inline ((q.conditionSql e).map q.conditionLine) := by
  have he : Emit.IsInline (e.emitWith (q.context.emitCondition q.aliases)) :=
    Entry.isInline_emitWith (Context.isInline_emitCondition q.aliases h) e
  rw [emitWhere, he.bind_eq fun sql => Emit.isInline_pure _, ← conditionSql]
  cases q.conditionSql e <;> rfl

/-- With literals inline, the statement of a query is made of the SQL of its parts, one after the
other. -/
theorem statement_eq (h : q.context.literals = .inline) :
    q.statement = (do
      let items ← q.select.mapM fun item => (q.emitSelect item).result
      let sqls ← q.conditions.mapM q.conditionSql
      let keys ← q.groupBy.mapM fun e => (q.emitGroupBy e).result
      let order ← q.orderBy.mapM fun item => (q.emitOrder item).result
      return ⟨q.assemble items (sqls.map q.conditionLine) keys order, []⟩) := by
  have hconditions : emitEach q.emitWhere q.conditions =
      Emit.inline ((q.conditions.mapM q.conditionSql).map (List.map q.conditionLine)) := by
    rw [funext (emitWhere_eq_inline h), ← mapM_map,
      Emit.emitEach_eq_inline fun e => Emit.isInline_inline _]
    simp only [Emit.result_inline]
  rw [statement, emitStatement, Emit.emitEach_eq_inline (isInline_emitSelect h), hconditions,
    Emit.emitEach_eq_inline isInline_emitGroupBy, Emit.emitEach_eq_inline (isInline_emitOrder h)]
  simp only [Emit.toFragment_inline_bind]
  refine congrArg _ (funext fun items => ?_)
  cases q.conditions.mapM q.conditionSql with
  | error fault => rfl
  | ok sqls => rfl

/-- There is a statement if and only if all parts have SQL. -/
theorem statement_eq_ok_iff (h : q.context.literals = .inline) {f : Fragment} :
    q.statement = .ok f ↔ ∃ items sqls keys order,
      q.select.mapM (fun item => (q.emitSelect item).result) = .ok items ∧
      q.conditions.mapM q.conditionSql = .ok sqls ∧
      q.groupBy.mapM (fun e => (q.emitGroupBy e).result) = .ok keys ∧
      q.orderBy.mapM (fun item => (q.emitOrder item).result) = .ok order ∧
      f = ⟨q.assemble items (sqls.map q.conditionLine) keys order, []⟩ := by
  rw [statement_eq h]
  simp only [bind_eq_ok_iff]
  constructor
  · rintro ⟨items, hitems, sqls, hsqls, keys, hkeys, order, horder, hf⟩
    exact ⟨items, sqls, keys, order, hitems, hsqls, hkeys, horder, (Except.ok.inj hf).symm⟩
  · rintro ⟨items, sqls, keys, order, hitems, hsqls, hkeys, horder, rfl⟩
    exact ⟨items, hitems, sqls, hsqls, keys, hkeys, order, horder, rfl⟩

end Query

end TypedSql
