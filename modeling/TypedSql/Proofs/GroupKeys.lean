import TypedSql.Proofs.Conditions
import TypedSql.Proofs.Origins

/-!
# Grouping keys in the select list

The argument of a selected `group` becomes a grouping key, unless there is a key with the same
source already. Both are written without placeholders, in different clauses of the statement and by
different ways. If keys with the same source are the same expression, then the grouping has a line
for each selected `group`, with the very text that stands for it in the select list.
-/

namespace TypedSql

/-! ## Calls of `group` -/

theorem Node.mem_preorder_of_part? {n m : Node} {place : List Nat} (h : n.part? place = some m) :
    m ∈ n.preorder := by
  induction place generalizing n with
  | nil =>
    cases h
    exact mem_preorder_self _
  | cons k place ih =>
    obtain ⟨child, hchild, h⟩ := part?_cons_eq_some_iff.1 h
    exact mem_preorder_iff.2 (Or.inr ⟨child, List.mem_of_getElem? hchild, ih h⟩)

/-- The rules of both dialects write a call of `group` as its argument. -/
theorem template_group {d : Dialect} {t : RuleTable} {r : Rule} (ht : registry d = .ok t)
    (hr : r ∈ t.rules) (hoperator : r.operator = .aggregate .group) :
    r.template.pieces = [.child 0] := by
  have hall : ((registrations d).all fun reg => reg.operator ≠ .aggregate .group ||
      reg.toRule.toOption.map (·.template.pieces) == some [.child 0]) = true := by
    cases d <;> decide +kernel
  obtain ⟨reg, hreg, hrule⟩ := exists_of_forall₂_of_mem (rules_of_registry ht).1.flip hr
  have hgroup : reg.operator = .aggregate .group :=
    (congrArg Rule.operator (Registration.bare_of_toRule hrule)).symm.trans hoperator
  have hpieces := List.all_eq_true.1 hall reg hreg
  simpa [hgroup, hrule, Except.toOption] using hpieces

namespace Context

variable {ctx : Context} {n m : Node} {c e : Checked} {args : List Node}

/-- A valid call of `group` has one argument. -/
theorem exists_argument_of_group (h : ctx.check m = .ok e) (hm : m.expr = .aggregate .group args) :
    ∃ x d, args = [x] ∧ e.children = [d] ∧ ctx.check x = .ok d := by
  have harity : args.length = 1 := (check_eq_ok_iff.1 h).1 .group args hm
  obtain ⟨x, rfl⟩ := List.length_eq_one_iff.1 harity
  have hchildren := check_children h
  rw [Node.children, hm] at hchildren
  obtain ⟨d, rest, hd, hrest, he⟩ := List.forall₂_cons_left_iff.1 hchildren
  cases hrest
  exact ⟨x, d, rfl, he, hd⟩

/-- Whatever way literals are written, a valid call of `group` is written like its argument with
literals inline, and binds nothing. -/
theorem emit_group {d : Dialect} {x : Node} {child : Checked} (aliases : Aliases)
    (hrules : registry d = .ok ctx.rules) (h : ctx.check m = .ok e) (hv : e.isValid = true)
    (hm : m.expr = .aggregate .group [x]) (he : e.children = [child]) (mode : LiteralMode) :
    ctx.emit aliases m e mode = Emit.inline (ctx.inlineSql aliases x child) := by
  have hconst : ∀ v, m.expr ≠ .const v := by simp [hm]
  have hfield : ∀ path, m.expr ≠ .field path := by simp [hm]
  obtain ⟨r, hr, hpieces⟩ : ∃ r, e.rule? = some r ∧ r.template.pieces = [.child 0] := by
    rcases judge_of_isValid (judge_of_check h) hv with ⟨v, hn, -⟩ | ⟨path, f, hn, -⟩ |
      ⟨r, level, hresolved, hresolves⟩
    · exact absurd hn (hconst v)
    · exact absurd hn (hfield path)
    · rw [hm] at hresolves
      obtain ⟨hmem, hkey, -⟩ :=
        RuleTable.mem_accepting.1 (RuleTable.isNarrowest_of_resolve hresolves.2.2).1
      have hrule : e.rule? = some r := by rw [hresolved]; rfl
      exact ⟨r, hrule, template_group hrules hmem (congrArg Prod.fst hkey)⟩
  have hoperands : List.zipWith (fun a b => ctx.emit aliases a b (m.expr.operandMode mode))
      m.children e.children = [ctx.inlineSql aliases x child].map Emit.inline := by
    rw [Node.children, hm, he, List.map_singleton, ← ctx.emit_inline]
    rfl
  have hfill : r.template.fill [ctx.inlineSql aliases x child] =
      ctx.inlineSql aliases x child := by
    rw [Template.fill, hpieces]
    cases ctx.inlineSql aliases x child with
    | error fault => rfl
    | ok sql =>
      refine bind_eq_ok_iff.2 ⟨sql, rfl, bind_eq_ok_iff.2 ⟨"", rfl, ?_⟩⟩
      exact congrArg Except.ok String.append_empty
  rw [ctx.emit_of_rule aliases hconst hfield, hoperands, emitRule_inline, ruleSql, hr]
  exact congrArg Emit.inline hfill

/-- The argument of each call of `group` in a valid expression is one of its grouping keys, as no
call stands inside another one. -/
theorem mem_groupKeys_of_part? {place : List Nat} {x : Node} {child : Checked}
    (h : ctx.check n = .ok c) (hv : c.isValid = true) (hm : n.part? place = some m)
    (he : c.part? place = some e) (hgroup : m.expr = .aggregate .group [x])
    (hchild : e.children = [child]) : (x, child) ∈ n.groupKeys c := by
  induction place generalizing n c with
  | nil =>
    cases hm
    cases he
    rw [Node.groupKeys_group hgroup, hchild]
    exact List.mem_cons_self
  | cons k place ih =>
    obtain ⟨a, ha, hm⟩ := Node.part?_cons_eq_some_iff.1 hm
    obtain ⟨b, hb, he⟩ := Checked.part?_cons_eq_some_iff.1 he
    obtain ⟨b', hb', hcheck⟩ := exists_getElem?_of_forall₂ (check_children h) ha
    obtain rfl : b = b' := Option.some.inj (hb.symm.trans hb')
    have hbv : b.isValid = true := isValid_children h hv b (List.mem_of_getElem? hb)
    have hne : ∀ args, n.expr ≠ .aggregate .group args := by
      intro args hn
      have hlevel := level_children_of_aggregate h hv hn b (List.mem_of_getElem? hb)
      have hpart : m ∈ a.preorder := Node.mem_preorder_of_part? hm
      exact not_isAggregate_of_mem_preorder hcheck hbv hlevel hpart ⟨.group, [x], hgroup⟩
    rw [Node.groupKeys_of_ne hne]
    have hkeys : (List.zipWith Node.groupKeys n.children c.children)[k]? = some (a.groupKeys b) :=
      List.getElem?_zipWith_eq_some.2 ⟨a, b, ha, hb, rfl⟩
    exact List.mem_flatten.2 ⟨_, List.mem_of_getElem? hkeys, ih hcheck hbv hm he⟩

end Context

/-! ## Which keys are asked for -/

namespace Entry

/-- The grouping keys of an entry. -/
def groupKeys : Entry → List Entry
  | expr n c => (n.groupKeys c).map fun (key, child) => .expr key child
  | sql _ => []

/-- Whether two entries are the same plain SQL, or expressions that differ in their origins only. -/
def IsSame : Entry → Entry → Prop
  | expr n _, expr m _ => n.bare = m.bare
  | sql text, sql text' => text = text'
  | _, _ => False

end Entry

/-- The grouping keys of a step: the arguments of `group` in an expression that it selects, or the
key that it adds itself. -/
def Step.groupKeys (ctx : Context) : Step → List Entry
  | selectExpr n _ => (ctx.check n).toOption.toList.flatMap fun c => Entry.groupKeys (.expr n c)
  | groupByExpr n => (ctx.check n).toOption.toList.map (.expr n)
  | groupBySql sql => [.sql sql]
  | _ => []

namespace Query

/-- The grouping keys that a step asks for; a step that is refused asks for none. -/
def asksKeys (q : Query) (step : Step) : List Entry :=
  if (q.apply step).fault.isNone then step.groupKeys q.context else []

/-- The grouping keys that steps ask for, one after the other. -/
def askedKeys (q : Query) : List Step → List Entry
  | [] => []
  | step :: steps => q.asksKeys step ++ (q.apply step).query.askedKeys steps

/-- Whether a query comes from another one by pushing the given grouping keys, among them those of
everything that has been selected on the way. -/
structure Groups (q' q : Query) (keys : List Entry) : Prop where
  groupBy : q'.groupBy = keys.foldl pushEntry q.groupBy
  select : ∀ item ∈ q'.select, item ∈ q.select ∨ ∀ e ∈ item.entry.groupKeys, e ∈ keys

namespace Groups

variable {q q' q'' : Query} {keys keys' : List Entry}

theorem keep (hgroupBy : q'.groupBy = q.groupBy) (hselect : q'.select = q.select) :
    q'.Groups q [] :=
  ⟨hgroupBy, fun _ hitem => Or.inl (hselect ▸ hitem)⟩

theorem trans (h : q'.Groups q keys) (h' : q''.Groups q' keys') : q''.Groups q (keys ++ keys') := by
  refine ⟨by rw [h'.groupBy, h.groupBy, List.foldl_append], fun item hitem => ?_⟩
  rcases h'.select item hitem with hitem | hkeys
  · rcases h.select item hitem with hitem | hkeys
    · exact Or.inl hitem
    · exact Or.inr fun e he => List.mem_append_left _ (hkeys e he)
  · exact Or.inr fun e he => List.mem_append_right _ (hkeys e he)

theorem of_refused {step : Step} {fault : Fault} (h : q.apply step = .refused q fault) :
    (q.apply step).query.Groups q (q.asksKeys step) := by
  rw [asksKeys, h]
  exact keep rfl rfl

theorem selectExpr (q : Query) (n : Node) (aliasName : Option String) :
    (q.apply (.selectExpr n aliasName)).query.Groups q (q.asksKeys (.selectExpr n aliasName)) := by
  rcases q.selectExpr_cases n aliasName with ⟨fault, h⟩ | ⟨c, mode, hcheck, -, -, h⟩
  · exact of_refused h
  have hext := extendsByJoins_joinFields { q with mode } n
  have hasks : q.asksKeys (.selectExpr n aliasName) = Entry.groupKeys (.expr n c) := by
    simp [asksKeys, Query.apply, h, Outcome.done, Step.groupKeys, hcheck, Except.toOption]
  rw [hasks, Query.apply, h]
  refine ⟨?_, fun item hitem => ?_⟩
  · simp only [Outcome.done, pushSelect, pushGroupKeys, hext.groupBy]
    rfl
  · simp only [Outcome.done, pushSelect, pushGroupKeys, hext.select, List.mem_append,
      List.mem_singleton] at hitem
    rcases hitem with hitem | rfl
    · exact Or.inl hitem
    · exact Or.inr fun e he => he

theorem selectSql (q : Query) (sql : String) (aliasName : Option String) :
    (q.apply (.selectSql sql aliasName)).query.Groups q
      (q.asksKeys (.selectSql sql aliasName)) := by
  rcases q.selectSql_cases sql aliasName with ⟨fault, h⟩ | ⟨mode, -, h⟩
  · exact of_refused h
  rw [asksKeys, Query.apply, h]
  refine ⟨rfl, fun item hitem => ?_⟩
  rcases List.mem_append.1 hitem with hitem | hitem
  · exact Or.inl hitem
  · rw [List.mem_singleton.1 hitem]
    exact Or.inr fun e he => by cases he

theorem groupByExpr (q : Query) (n : Node) :
    (q.apply (.groupByExpr n)).query.Groups q (q.asksKeys (.groupByExpr n)) := by
  rcases q.groupByExpr_cases n with ⟨fault, h⟩ | ⟨c, mode, hcheck, -, -, -, h⟩
  · exact of_refused h
  have hext := extendsByJoins_joinFields { q with mode } n
  have hasks : q.asksKeys (.groupByExpr n) = [.expr n c] := by
    simp [asksKeys, Query.apply, h, Outcome.done, Step.groupKeys, hcheck, Except.toOption]
  rw [hasks, Query.apply, h]
  refine ⟨?_, fun item hitem => Or.inl ?_⟩
  · simp only [Outcome.done, pushGroupKey, hext.groupBy]
    rfl
  · rwa [Outcome.done, pushGroupKey, hext.select] at hitem

theorem groupBySql (q : Query) (sql : String) :
    (q.apply (.groupBySql sql)).query.Groups q (q.asksKeys (.groupBySql sql)) := by
  rcases q.groupBySql_cases sql with ⟨fault, h⟩ | ⟨mode, -, h⟩
  · exact of_refused h
  rw [asksKeys, Query.apply, h]
  exact ⟨rfl, fun item hitem => Or.inl hitem⟩

/-- A step pushes the grouping keys that it asks for, among them those of what it selects. -/
theorem apply (q : Query) (step : Step) : (q.apply step).query.Groups q (q.asksKeys step) := by
  cases step with
  | selectExpr n aliasName => exact selectExpr q n aliasName
  | selectSql sql aliasName => exact selectSql q sql aliasName
  | groupByExpr n => exact groupByExpr q n
  | groupBySql sql => exact groupBySql q sql
  | fromPath path =>
    have hext := q.extendsByJoins_joinEach (Path.prefixes path)
    have hasks : q.asksKeys (.fromPath path) = [] := ite_self _
    rw [hasks]
    exact keep hext.groupBy hext.select
  | fromSql sql aliasName =>
    rcases q.fromSql_cases sql aliasName with ⟨fault, h⟩ | h
    · exact of_refused h
    · rw [asksKeys, Query.apply, h]
      exact keep rfl rfl
  | whereExpr n =>
    have hext := q.extendsByJoins_joinFields n
    rcases q.whereExpr_cases n with ⟨fault, h⟩ | ⟨c, -, -, -, h⟩
    · exact of_refused h
    · rw [asksKeys, Query.apply, h]
      exact keep hext.groupBy hext.select
  | orderExpr n direction nulls =>
    have hext := q.extendsByJoins_joinFields n
    rcases q.orderExpr_cases n direction nulls with ⟨fault, h⟩ | ⟨c, -, -, h⟩
    · exact of_refused h
    · rw [asksKeys, Query.apply, h]
      exact keep hext.groupBy hext.select
  | _ => exact keep rfl rfl

/-- All steps together push the grouping keys that they ask for. -/
theorem run (q : Query) (steps : List Step) : (q.run steps).Groups q (q.askedKeys steps) := by
  induction steps generalizing q with
  | nil => exact keep rfl rfl
  | cons step steps ih => exact (apply q step).trans (ih (q.apply step).query)

end Groups

end Query

/-! ## The lines of a statement -/

namespace Query

variable {q : Query}

/-- A statement has the lines of its select list, and a line for each grouping key that binds
nothing. -/
theorem exists_keys_of_statement {f : Fragment} (h : q.statement = .ok f) :
    ∃ items bound conditions keys order, f.sql = q.assemble items conditions keys order ∧
      (emitEach q.emitSelect q.select).run [] = .ok (items, bound) ∧
      List.Forall₂ (fun e line => q.emitGroupBy e = Emit.inline (.ok line)) q.groupBy keys := by
  have hrun := Emit.run_of_toFragment h
  obtain ⟨items, bound, hitems, hrun⟩ := Emit.run_bind_eq_ok_iff.1 hrun
  obtain ⟨conditions, params, -, hrun⟩ := Emit.run_bind_eq_ok_iff.1 hrun
  obtain ⟨keys, params', hkeys, hrun⟩ := Emit.run_bind_eq_ok_iff.1 hrun
  obtain ⟨order, params, -, hrun⟩ := Emit.run_bind_eq_ok_iff.1 hrun
  have htext : f.sql = q.assemble items conditions keys order :=
    (congrArg Prod.fst (Except.ok.inj hrun)).symm
  refine ⟨items, bound, conditions, keys, order, htext, hitems, ?_⟩
  rw [Emit.emitEach_eq_inline isInline_emitGroupBy, Emit.run_inline_eq_ok_iff] at hkeys
  refine (mapM_eq_ok_iff.1 hkeys.1).imp fun e line hline => ?_
  rw [isInline_emitGroupBy e, hline]

theorem emitGroupBy_expr {n : Node} {c : Checked} (hv : c.isValid = true) :
    q.emitGroupBy (.expr n c) =
      Emit.inline ((q.context.inlineSql q.aliases n c).map ("\t" ++ ·)) := by
  rw [emitGroupBy, Entry.emitWith, Context.emitKey, Context.ensureValid, if_pos hv,
    Context.emit_inline]
  cases q.context.inlineSql q.aliases n c <;> rfl

/-- A grouping key that has been asked for has its SQL on a line of the grouping, if keys with the
same source are the same. The key on that line may be another one that was asked for before. -/
theorem exists_line_of_mem_asked {ctx : Context} {named : Nat} {asked : List Entry}
    {keys : List String} {x : Node} {child : Checked} (hq : q.Joined ctx named)
    (hgroupBy : q.groupBy = asked.foldl pushEntry [])
    (hsame : ∀ e ∈ asked, ∀ e' ∈ asked, e.key = e'.key → e.IsSame e')
    (hlines : List.Forall₂ (fun e line => q.emitGroupBy e = Emit.inline (.ok line)) q.groupBy keys)
    (hx : .expr x child ∈ asked) (hcheck : ctx.check x = .ok child) :
    ∃ sql, "\t" ++ sql ∈ keys ∧ q.context.inlineSql q.aliases x child = .ok sql := by
  obtain ⟨e, he, hkey⟩ := exists_key_foldl_pushEntry.2 ⟨.expr x child, hx, rfl⟩
  have hasked : e ∈ asked := (mem_foldl_pushEntry he).resolve_left List.not_mem_nil
  have hlike := hsame e hasked _ hx hkey
  rw [← hgroupBy] at he
  cases e with
  | sql text => exact hlike.elim
  | expr m c =>
    obtain ⟨⟨hm, hv⟩, -⟩ := hq.entries _ (mem_entries_iff.2 (Or.inr (Or.inr (Or.inl he))))
    obtain rfl : c = child :=
      Except.ok.inj ((Context.check_of_bare_eq hlike hm hv).symm.trans hcheck)
    obtain ⟨line, hline, hemit⟩ := exists_of_forall₂_of_mem hlines he
    have hresult := congrArg Emit.result ((emitGroupBy_expr hv).symm.trans hemit)
    rw [Emit.result_inline, Emit.result_inline] at hresult
    cases hsql : q.context.inlineSql q.aliases m c with
    | error fault =>
      rw [hsql] at hresult
      cases hresult
    | ok sql =>
      rw [hsql] at hresult
      cases hresult
      rw [← hq.context] at hm
      have hequal := Context.inlineSql_of_bare_eq q.aliases hlike hm hv
      exact ⟨sql, hline, hequal.symm.trans hsql⟩

/-- If nothing has been selected before, then each call of `group` in a selected expression is
valid, and its argument has been asked for. -/
theorem exists_asked_of_group {q₀ : Query} {ctx : Context} {named : Nat} {asked : List Entry}
    {item : SelectItem} {n m : Node} {c : Checked} {place : List Nat} {args : List Node}
    (hq : q.Joined ctx named) (hgroups : q.Groups q₀ asked) (hempty : q₀.select = [])
    (hitem : item ∈ q.select) (hentry : item.entry = .expr n c) (hm : n.part? place = some m)
    (hgroup : m.expr = .aggregate .group args) :
    ∃ e x child, c.part? place = some e ∧ (ctx.check m = .ok e ∧ e.isValid = true) ∧
      args = [x] ∧ e.children = [child] ∧ ctx.check x = .ok child ∧ .expr x child ∈ asked := by
  have hstored : Entry.expr n c ∈ q.entries := mem_entries_iff.2 (Or.inl ⟨item, hitem, hentry⟩)
  obtain ⟨⟨hcheck, hv⟩, -⟩ := hq.entries _ hstored
  obtain ⟨e, he, hme⟩ := Context.check_part? hcheck hm
  obtain ⟨e', he', hev⟩ :=
    Context.exists_check_of_mem_preorder hcheck hv (Node.mem_preorder_of_part? hm)
  obtain rfl : e = e' := Except.ok.inj (hme.symm.trans he')
  obtain ⟨x, child, rfl, hchildren, hx⟩ := Context.exists_argument_of_group hme hgroup
  have hkey := Context.mem_groupKeys_of_part? hcheck hv hm he hgroup hchildren
  refine ⟨e, x, child, he, ⟨hme, hev⟩, rfl, hchildren, hx, ?_⟩
  rcases hgroups.select item hitem with hnone | hkeys
  · rw [hempty] at hnone
    cases hnone
  · refine hkeys _ ?_
    rw [hentry]
    exact List.mem_map.2 ⟨(x, child), hkey, rfl⟩

/-- After any steps on an empty query of any mode, with the rules of a dialect, let grouping keys
with the same source be the same expressions, and none of them the text of plain SQL. If there is a
statement, then its grouping has a line for each call of `group` in a selected expression, with
exactly the text that the call is written as in the select list, however literals are written there.
Neither the call nor any line of the grouping binds a value. -/
theorem run_groups_by_selected {d : Dialect} {rules : RuleTable} {schema : Schema}
    {literals : LiteralMode} {mode : SelectMode} {comment : Option String} {steps : List Step}
    {f : Fragment} (hrules : registry d = .ok rules)
    (hsame : ∀ e ∈ askedKeys { context := ⟨schema, rules, literals⟩, mode, comment } steps,
      ∀ e' ∈ askedKeys { context := ⟨schema, rules, literals⟩, mode, comment } steps,
        e.key = e'.key → e.IsSame e')
    (h : (run { context := ⟨schema, rules, literals⟩, mode, comment } steps).statement = .ok f) :
    let q := run { context := ⟨schema, rules, literals⟩, mode, comment } steps
    ∃ items bound conditions keys order, f.sql = q.assemble items conditions keys order ∧
      (emitEach q.emitSelect q.select).run [] = .ok (items, bound) ∧
      List.Forall₂ (fun e line => ∀ params, (q.emitGroupBy e).run params = .ok (line, params))
        q.groupBy keys ∧
      ∀ item ∈ q.select, ∀ n c, item.entry = .expr n c →
        ∀ place m args, n.part? place = some m → m.expr = .aggregate .group args →
          ∃ e sql, c.part? place = some e ∧ "\t" ++ sql ∈ keys ∧
            ∀ literals' params,
              (q.context.emit q.aliases m e literals').run params = .ok (sql, params) := by
  intro q
  let ctx : Context := ⟨schema, rules, literals⟩
  have hgroups : q.Groups { context := ctx, mode, comment } _ := Groups.run _ steps
  have hjoined : q.Joined ctx _ := (Joined.empty ctx mode comment).run steps
  obtain ⟨items, bound, conditions, keys, order, htext, hitems, hlines⟩ :=
    exists_keys_of_statement h
  refine ⟨items, bound, conditions, keys, order, htext, hitems,
    hlines.imp fun e line hline params => ?_, ?_⟩
  · rw [hline]
    rfl
  · intro item hitem n c hentry place m args hm hgroup
    obtain ⟨e, x, child, he, ⟨hme, hev⟩, rfl, hchildren, hx, hasked⟩ :=
      exists_asked_of_group hjoined hgroups rfl hitem hentry hm hgroup
    obtain ⟨sql, hline, hsql⟩ :=
      exists_line_of_mem_asked hjoined hgroups.groupBy hsame hlines hasked hx
    refine ⟨e, sql, he, hline, fun literals' params => ?_⟩
    have hcontext : q.context = ctx := hjoined.context
    rw [hcontext] at hsql ⊢
    rw [Context.emit_group q.aliases hrules hme hev hgroup hchildren, hsql]
    rfl

/-- The text `red`. -/
def red : Node := .ofExpr (.const (.str "red"))

/-- The call `group("red")`. -/
def groupRed : Node := .ofExpr (.aggregate .group [red])

/-- Groups by a text, and then selects its group. -/
def redSteps : List Step := [.groupByExpr red, .selectExpr groupRed none]

/-- The text is valid, and so is the call. -/
theorem exists_check_groupRed {d : Dialect} {ctx : Context} (hrules : registry d = .ok ctx.rules) :
    ∃ r, ctx.check red = .ok ⟨.leaf .str, .constant, []⟩ ∧
      ctx.check groupRed =
        .ok ⟨.resolved r, .aggregated .group, [⟨.leaf .str, .constant, []⟩]⟩ := by
  have hreg : Registration.aggregate .group .str .str Builtin.a ∈ registrations d := by
    cases d <;> decide +kernel
  obtain ⟨r, -, hresolve⟩ := exists_resolve_of_mem_registrations hrules hreg
  have hred : ctx.check red = .ok ⟨.leaf .str, .constant, []⟩ :=
    Context.check_eq_ok_iff.2 ⟨by simp [Node.HasArity, red, Node.ofExpr], [], .nil, rfl⟩
  refine ⟨r, hred, Context.check_eq_ok_iff.2 ⟨?_, _, .cons hred .nil, ?_⟩⟩
  · intro g args hargs
    cases hargs
    rfl
  · refine Context.checkAggregate_of_resolve groupRed (fun e he => ?_) hresolve
    rw [List.mem_singleton.1 he]
    exact ⟨rfl, rfl⟩

/-- Both steps go through, and ask for the same grouping key. -/
theorem exists_run_redSteps {d : Dialect} {ctx : Context} (hrules : registry d = .ok ctx.rules) :
    ∃ c child, ctx.check groupRed = .ok c ∧ c.isValid = true ∧ c.children = [child] ∧
      run { context := ctx } redSteps =
        { context := ctx, mode := .aggregated .group, select := [⟨.expr groupRed c, none⟩],
          groupBy := [.expr red child] } ∧
      askedKeys { context := ctx } redSteps = [.expr red child, .expr red child] := by
  obtain ⟨r, hred, hcheck⟩ := exists_check_groupRed hrules
  have hchecked := Context.checkValid_eq_ok_iff.2 ⟨hcheck, rfl⟩
  have hfirst : Query.apply { context := ctx } (.groupByExpr red) = .done
      { context := ctx, mode := .aggregated .group,
        groupBy := [.expr red ⟨.leaf .str, .constant, []⟩] } := rfl
  have hsecond : Query.apply
      { context := ctx, mode := .aggregated .group,
        groupBy := [.expr red ⟨.leaf .str, .constant, []⟩] } (.selectExpr groupRed none) = .done
      { context := ctx, mode := .aggregated .group,
        select := [⟨.expr groupRed
          ⟨.resolved r, .aggregated .group, [⟨.leaf .str, .constant, []⟩]⟩, none⟩],
        groupBy := [.expr red ⟨.leaf .str, .constant, []⟩] } := by
    simp only [Query.apply, Query.selectExpr, tryWith, Identifier.checkAlias, hchecked]
    rfl
  refine ⟨_, _, hcheck, rfl, rfl, ?_, ?_⟩
  · rw [run, redSteps, List.foldl_cons, List.foldl_cons, List.foldl_nil, hfirst]
    exact congrArg Outcome.query hsecond
  · simp only [redSteps, askedKeys, asksKeys, hfirst, hsecond, Outcome.done, Step.groupKeys, hcheck,
      hred]
    rfl

/-- With literals bound, `group("red")` is selected as `'red'`, and the query is grouped by this
text. -/
theorem run_groups_by_selected_red :
    ∃ rules f c, registry .postgres = .ok rules ∧
      let q := run { context := ⟨⟨[]⟩, rules, .bind⟩ } redSteps
      q.statement = .ok f ∧ q.select = [⟨.expr groupRed c, none⟩] ∧
        ∃ items conditions keys order, f.sql = q.assemble items conditions keys order ∧
          "\t'red'" ∈ keys ∧
          (q.context.emit q.aliases groupRed c .bind).run [] = .ok ("'red'", []) := by
  obtain ⟨rules, hrules⟩ := exists_registry .postgres
  let ctx : Context := ⟨⟨[]⟩, rules, .bind⟩
  have hctx : registry .postgres = .ok ctx.rules := hrules
  obtain ⟨c, child, hcheck, hv, hchildren, hrun, hasked⟩ := exists_run_redSteps hctx
  obtain ⟨f, hf⟩ : ∃ f, (run { context := ctx } redSteps).statement = .ok f := by
    cases hstatement : (run { context := ctx } redSteps).statement with
    | ok f => exact ⟨f, rfl⟩
    | error fault =>
      obtain ⟨before, n, d, t, after, hsplit, -⟩ :=
        (statement_run_eq_error_iff (inRange_of_registry hrules) ⟨[]⟩ .bind .undecided none _
          fault).1 hstatement
      have hnone : (run { context := ctx } redSteps).conditions = [] := by rw [hrun]
      rw [hnone] at hsplit
      simp at hsplit
  have hselect : (run { context := ctx } redSteps).select = [⟨.expr groupRed c, none⟩] := by
    rw [hrun]
  have hcontext : (run { context := ctx } redSteps).context = ctx := by rw [hrun]
  have hsame : ∀ e ∈ askedKeys { context := ctx } redSteps,
      ∀ e' ∈ askedKeys { context := ctx } redSteps, e.key = e'.key → e.IsSame e' := by
    rw [hasked]
    simp [Entry.IsSame]
  obtain ⟨items, bound, conditions, keys, order, htext, -, -, hcalls⟩ :=
    run_groups_by_selected hrules hsame hf
  obtain ⟨e, sql, he, hline, hemit⟩ := hcalls _ (by rw [hselect]; exact List.mem_cons_self)
    groupRed c rfl [] groupRed [red] rfl rfl
  cases he
  have hsql : sql = "'red'" := by
    have hwritten := hemit .bind []
    rw [hcontext, Context.emit_group _ hctx hcheck hv rfl hchildren, Emit.run_inline_eq_ok_iff,
      Context.inlineSql_const ctx _ rfl, Context.dialect, (rules_of_registry hctx).2] at hwritten
    exact (Except.ok.inj hwritten.1).symm.trans (by decide +kernel)
  subst hsql
  exact ⟨rules, f, c, hrules, hf, hselect, items, conditions, keys, order, htext, hline,
    hemit .bind []⟩

end Query

end TypedSql
