import TypedSql.Proofs.Emission
import TypedSql.Proofs.Grouping

/-!
# Placeholders for literals

Binding values to placeholders changes how the values are written, and nothing else. If the same
steps are done with literals inline and with values bound, they go through or are refused alike, and
the two statements have the same text around the places of the values. In these places one of them
has the literals of the values and the other one placeholders, numbered in the order of the text.
-/

namespace TypedSql

/-! ## Texts that differ in their literals -/

/-- Values, each with the text behind it, as SQL with literals. -/
def literalText (d : Dialect) : List (Param × String) → String
  | [] => ""
  | (p, text) :: parts => p.literal d ++ (text ++ literalText d parts)

/-- Values, each with the text behind it, as SQL with placeholders that are numbered on from `k`. -/
def placeholderText (d : Dialect) : Nat → List (Param × String) → String
  | _, [] => ""
  | k, (_, text) :: parts => d.placeholder (k + 1) ++ (text ++ placeholderText d (k + 1) parts)

/-- Whether two texts are the same but for the given values: the first one has their literals where
the second one has placeholders, numbered on from `k`. -/
def BindsFrom (d : Dialect) (k : Nat) (inline bound : String) (params : List Param) : Prop :=
  ∃ first parts, params = parts.map Prod.fst ∧
    inline = first ++ literalText d parts ∧ bound = first ++ placeholderText d k parts

/-- Whether two lists of lines are the same but for the given values. -/
inductive LinesBindFrom (d : Dialect) : Nat → List String → List String → List Param → Prop
  | nil {k : Nat} : LinesBindFrom d k [] [] []
  | cons {k : Nat} {line line' : String} {lines lines' : List String} {new news : List Param} :
    BindsFrom d k line line' new → LinesBindFrom d (k + new.length) lines lines' news →
    LinesBindFrom d k (line :: lines) (line' :: lines') (new ++ news)

section Texts

variable {d : Dialect} {k : Nat} {a b a' b' : String} {new new' : List Param}

namespace BindsFrom

theorem refl (text : String) : BindsFrom d k text text [] :=
  ⟨text, [], rfl, by simp [literalText], by simp [placeholderText]⟩

theorem literal (p : Param) : BindsFrom d k (p.literal d) (d.placeholder (k + 1)) [p] :=
  ⟨"", [(p, "")], rfl, by simp [literalText], by simp [placeholderText]⟩

theorem append (h : BindsFrom d k a b new) (h' : BindsFrom d (k + new.length) a' b' new') :
    BindsFrom d k (a ++ a') (b ++ b') (new ++ new') := by
  obtain ⟨first, parts, rfl, rfl, rfl⟩ := h
  induction parts generalizing first k with
  | nil =>
    obtain ⟨first', parts', rfl, rfl, rfl⟩ := h'
    exact ⟨first ++ first', parts', rfl, by simp [literalText, String.append_assoc],
      by simp [placeholderText, String.append_assoc]⟩
  | cons part parts ih =>
    obtain ⟨p, text⟩ := part
    have hk : k + (((p, text) :: parts).map Prod.fst).length =
        k + 1 + (parts.map Prod.fst).length := by
      simp only [List.map_cons, List.length_cons]
      omega
    rw [hk] at h'
    -- the text behind the first value takes the place of the text in front
    obtain ⟨next, rest, hnew, ha, hb⟩ := ih text h'
    refine ⟨first, (p, next) :: rest, by simp [hnew], ?_, ?_⟩
    · simp only [literalText, String.append_assoc] at ha ⊢
      rw [ha]
    · simp only [placeholderText, String.append_assoc] at hb ⊢
      rw [hb]

/-- Text that has no literals can be put in front. -/
theorem text_append (text : String) (h : BindsFrom d k a b new) :
    BindsFrom d k (text ++ a) (text ++ b) new := by
  simpa using (refl text).append h

/-- Text that has no literals can be put behind. -/
theorem append_text (h : BindsFrom d k a b new) (text : String) :
    BindsFrom d k (a ++ text) (b ++ text) new := by
  simpa using h.append (refl text)

end BindsFrom

/-- Lines can be put together with the same text between them. -/
theorem LinesBindFrom.intercalate {lines lines' : List String}
    (h : LinesBindFrom d k lines lines' new) (separator : String) :
    BindsFrom d k (separator.intercalate lines) (separator.intercalate lines') new := by
  induction h with
  | nil => exact .refl _
  | cons hline htail ih =>
    cases htail with
    | nil => simpa using hline
    | cons hnext htail =>
      rw [String.intercalate_cons_cons, String.intercalate_cons_cons]
      exact (hline.append_text separator).append ih

theorem LinesBindFrom.isEmpty_eq {lines lines' : List String}
    (h : LinesBindFrom d k lines lines' new) : lines'.isEmpty = lines.isEmpty := by
  cases h <;> rfl

theorem LinesBindFrom.clause {lines lines' : List String}
    (h : LinesBindFrom d k lines lines' new) (heading separator : String) :
    BindsFrom d k (Query.clause heading separator lines) (Query.clause heading separator lines')
      new := by
  unfold Query.clause
  rw [h.isEmpty_eq]
  cases h with
  | nil => exact .refl ""
  | cons hline htail =>
    have hlines := (LinesBindFrom.cons hline htail).intercalate (separator ++ "\n")
    exact (hlines.text_append (heading ++ "\n")).append_text "\n"

end Texts

/-! ## Generators that differ in their literals -/

namespace Emit

variable {α β : Type} {k : Nat}

/-- Whether a generator does what another one does that binds nothing, once `k` values have been
bound: both fail alike, or their results and the values that are bound on the way are related. -/
def Simulates (k : Nat) (R : α → α → List Param → Prop) (plain e : Emit α) : Prop :=
  ∀ params, params.length = k →
    (∃ fault, plain = fail fault ∧ e.run params = .error fault) ∨
      ∃ a b new, plain = pure a ∧ e.run params = .ok (b, params ++ new) ∧ R a b new

namespace Simulates

variable {R : α → α → List Param → Prop} {S : β → β → List Param → Prop} {plain e : Emit α}
  {f g : α → Emit β}

theorem fail (fault : Fault) : Simulates k R (fail fault) (fail fault) :=
  fun _ _ => Or.inl ⟨fault, rfl, rfl⟩

theorem pure {a b : α} (h : R a b []) : Simulates k R (pure a) (pure b) :=
  fun params _ => Or.inr ⟨a, b, [], rfl, by rw [List.append_nil]; rfl, h⟩

/-- What follows goes on with related results, behind the values that have been bound. -/
theorem bind (he : Simulates k R plain e)
    (hf : ∀ a b new, R a b new →
      Simulates (k + new.length) (fun a' b' new' => S a' b' (new ++ new')) (f a) (g b)) :
    Simulates k S (plain >>= f) (e >>= g) := by
  intro params hk
  rcases he params hk with ⟨fault, rfl, hrun⟩ | ⟨a, b, new, rfl, hrun, hR⟩
  · refine Or.inl ⟨fault, rfl, ?_⟩
    rw [StateT.run_bind, hrun]
    rfl
  · have hk' : (params ++ new).length = k + new.length := by rw [List.length_append, hk]
    have hbind : (e >>= g).run params = (g b).run (params ++ new) := by
      rw [StateT.run_bind, hrun]
      rfl
    rw [hbind]
    rcases hf a b new hR (params ++ new) hk' with ⟨fault, hfail, hrun'⟩ |
      ⟨a', b', new', hpure, hrun', hS⟩
    · exact Or.inl ⟨fault, hfail, hrun'⟩
    · refine Or.inr ⟨a', b', new ++ new', hpure, ?_, hS⟩
      rw [hrun', List.append_assoc]

end Simulates

/-- Whether a generator of text does what another one does that writes all literals inline. -/
def Binds (d : Dialect) (plain e : Emit String) : Prop :=
  ∀ k, Simulates k (BindsFrom d k) plain e

/-- Whether a generator of lines does what another one does that writes all literals inline. -/
def LinesBind (d : Dialect) (plain e : Emit (List String)) : Prop :=
  ∀ k, Simulates k (LinesBindFrom d k) plain e

variable {d : Dialect} {plain e plain' e' : Emit String}

theorem Binds.fail (fault : Fault) : Binds d (fail fault) (fail fault) :=
  fun _ => Simulates.fail fault

theorem Binds.pure (text : String) : Binds d (pure text) (pure text) :=
  fun _ => Simulates.pure (.refl text)

theorem Binds.append (h : Binds d plain e) (h' : Binds d plain' e') :
    Binds d (do let a ← plain; let b ← plain'; return a ++ b)
      (do let a ← e; let b ← e'; return a ++ b) := by
  refine fun k => (h k).bind fun a b new hab => (h' (k + new.length)).bind ?_
  intro a' b' new' hab'
  refine Simulates.pure ?_
  rw [List.append_nil]
  exact hab.append hab'

/-- What is generated can be put into a text that has no literals of its own. -/
theorem Binds.map {f : String → String} (h : Binds d plain e)
    (hf : ∀ k a b new, BindsFrom d k a b new → BindsFrom d k (f a) (f b) new) :
    Binds d (do let sql ← plain; return f sql) (do let sql ← e; return f sql) := by
  refine fun k => (h k).bind fun a b new hab => Simulates.pure ?_
  rw [List.append_nil]
  exact hf k a b new hab

/-- A check that both generators make beforehand. -/
theorem Binds.after {check : Emit Unit} (hcheck : IsInline check) (h : Binds d plain e) :
    Binds d (do check; plain) (do check; e) := by
  rw [hcheck]
  cases check.result with
  | error fault => exact .fail fault
  | ok _ => exact h

theorem LinesBind.emitEach {item : Type} {emitPlain emitItem : item → Emit String}
    (h : ∀ x, Binds d (emitPlain x) (emitItem x)) (items : List item) :
    LinesBind d (Query.emitEach emitPlain items) (Query.emitEach emitItem items) := by
  induction items with
  | nil => exact fun _ => Simulates.pure .nil
  | cons x items ih =>
    refine fun k => (h x k).bind fun a b new hab => (ih (k + new.length)).bind ?_
    intro lines lines' news hlines
    refine Simulates.pure ?_
    rw [List.append_nil]
    exact .cons hab hlines

end Emit

/-! ## Expressions -/

open Emit (Binds LinesBind Simulates)

theorem Template.binds_expand {d : Dialect} (t : Template) {plains es : List (Emit String)}
    (h : List.Forall₂ (Binds d) plains es) : Binds d (t.expand plains) (t.expand es) := by
  have hpiece : ∀ piece, Binds d (t.expandPiece plains piece) (t.expandPiece es piece) := by
    intro piece
    cases piece with
    | text text => exact .pure text
    | child index =>
      simp only [expandPiece]
      cases hplain : plains[index]? with
      | none =>
        have hlen : es[index]? = none := by
          rw [List.getElem?_eq_none_iff] at hplain ⊢
          rwa [← h.length_eq]
        rw [hlen]
        exact .fail _
      | some plain =>
        obtain ⟨e, he, hbinds⟩ := exists_getElem?_of_forall₂ h hplain
        rw [he]
        exact hbinds
  unfold expand
  induction t.pieces with
  | nil => exact .pure ""
  | cons piece pieces ih => exact (hpiece piece).append ih

theorem binds_emitLiteral (d : Dialect) (mode : LiteralMode) (p : Param) :
    Binds d (emitLiteral d .inline p) (emitLiteral d mode p) := by
  cases mode with
  | inline => exact .pure _
  | bind =>
    intro k params hk
    refine Or.inr ⟨p.literal d, d.placeholder (k + 1), [p], rfl, ?_, .literal p⟩
    rw [← hk]
    rfl

theorem binds_emitConstant (d : Dialect) (mode : LiteralMode) (v : Constant) :
    Binds d (emitConstant d .inline v) (emitConstant d mode v) := by
  cases v with
  | str s => exact binds_emitLiteral d mode (.str s)
  | date v => exact binds_emitLiteral d mode (.date v)
  | dateTime t => exact binds_emitLiteral d mode (.dateTime t)
  | _ => exact .pure _

namespace Context

variable (ctx : Context) (aliases : Aliases)

theorem binds_emitField (path : String) :
    Binds ctx.dialect (ctx.emitField aliases path) (ctx.emitField aliases path) := by
  rw [emitField_inline]
  cases ctx.fieldSql aliases path with
  | error fault => exact .fail fault
  | ok sql => exact .pure sql

theorem binds_emitRule {d : Dialect} (n : Node) (c : Checked) {plains es : List (Emit String)}
    (h : List.Forall₂ (Binds d) plains es) : Binds d (emitRule n c plains) (emitRule n c es) := by
  unfold emitRule
  cases c.rule? with
  | none => exact .fail _
  | some r => exact r.template.binds_expand h

/-- An expression with values bound is the expression with literals inline but for the literals. -/
theorem binds_emit (n : Node) (c : Checked) (mode : LiteralMode) :
    Binds ctx.dialect (ctx.emit aliases n c .inline) (ctx.emit aliases n c mode) := by
  induction n using Node.induction generalizing c mode with
  | step n ih =>
    by_cases hconst : ∃ v, n.expr = .const v
    · obtain ⟨v, hn⟩ := hconst
      rw [emit, Node.fold_eq, hn]
      exact binds_emitConstant ctx.dialect mode v
    by_cases hfield : ∃ path, n.expr = .field path
    · obtain ⟨path, hn⟩ := hfield
      rw [emit, Node.fold_eq, hn]
      exact ctx.binds_emitField aliases path
    rw [not_exists] at hconst hfield
    rw [ctx.emit_of_rule aliases hconst hfield, ctx.emit_of_rule aliases hconst hfield,
      Expr.operandMode_inline]
    refine binds_emitRule n c ?_
    exact forall₂_zipWith (fun m hm d => ih m hm d (n.expr.operandMode mode)) c.children

/-- The same context with literals written in another way. -/
def withLiterals (mode : LiteralMode) : Context := { ctx with literals := mode }

theorem binds_emitValue (n : Node) (c : Checked) (mode : LiteralMode) :
    Binds ctx.dialect ((ctx.withLiterals .inline).emitValue aliases n c)
      ((ctx.withLiterals mode).emitValue aliases n c) :=
  (ctx.binds_emit aliases n c mode).after (isInline_ensureValid n c)

theorem binds_emitKey (n : Node) (c : Checked) (mode : LiteralMode) :
    Binds ctx.dialect ((ctx.withLiterals .inline).emitKey aliases n c)
      ((ctx.withLiterals mode).emitKey aliases n c) :=
  (ctx.binds_emit aliases n c .inline).after (isInline_ensureValid n c)

theorem binds_emitCondition (n : Node) (c : Checked) (mode : LiteralMode) :
    Binds ctx.dialect ((ctx.withLiterals .inline).emitCondition aliases n c)
      ((ctx.withLiterals mode).emitCondition aliases n c) := by
  refine Binds.after (isInline_ensureValid n c) ?_
  have htruth : ∀ mode, (ctx.withLiterals mode).truthOf c = ctx.truthOf c := fun _ => rfl
  rw [htruth, htruth]
  cases ctx.truthOf c with
  | error fault => exact .fail fault
  | ok truth =>
    cases truth with
    | none => exact .fail _
    | some truth =>
      have hoperands := List.Forall₂.cons (ctx.binds_emit aliases n c mode) .nil
      exact (truth.binds_expand hoperands).map fun _ _ _ _ h => h.append_text " = 1"

end Context

theorem Entry.binds_emitWith {d : Dialect} {plain emit : Node → Checked → Emit String}
    (h : ∀ n c, Binds d (plain n c) (emit n c)) (e : Entry) :
    Binds d (e.emitWith plain) (e.emitWith emit) := by
  cases e with
  | expr n c => exact h n c
  | sql text => exact .pure text

/-! ## Queries -/

namespace Query

/-- The same query with literals written in another way. -/
def withLiterals (q : Query) (mode : LiteralMode) : Query :=
  { q with context := q.context.withLiterals mode }

variable (q : Query) (mode : LiteralMode)

theorem binds_emitSelect (item : SelectItem) :
    Binds q.context.dialect ((q.withLiterals .inline).emitSelect item)
      ((q.withLiterals mode).emitSelect item) := by
  refine Binds.map ?_ fun _ _ _ _ h => ((h.text_append "\t").append_text _).append_text _
  exact item.entry.binds_emitWith fun n c => q.context.binds_emitValue q.aliases n c mode

theorem binds_emitWhere (e : Entry) :
    Binds q.context.dialect ((q.withLiterals .inline).emitWhere e)
      ((q.withLiterals mode).emitWhere e) := by
  refine Binds.map (e.binds_emitWith fun n c => q.context.binds_emitCondition q.aliases n c mode) ?_
  intro k a b new h
  show BindsFrom _ k (q.conditionLine a) (q.conditionLine b) new
  unfold conditionLine
  split
  · exact (h.text_append "\t(").append_text ")"
  · exact h.text_append "\t"

theorem binds_emitGroupBy (e : Entry) :
    Binds q.context.dialect ((q.withLiterals .inline).emitGroupBy e)
      ((q.withLiterals mode).emitGroupBy e) := by
  refine Binds.map ?_ fun _ _ _ _ h => h.text_append "\t"
  exact e.binds_emitWith fun n c => q.context.binds_emitKey q.aliases n c mode

theorem binds_emitOrder (item : OrderItem) :
    Binds q.context.dialect ((q.withLiterals .inline).emitOrder item)
      ((q.withLiterals mode).emitOrder item) := by
  refine Binds.map ?_ fun _ _ _ _ h => ((h.text_append "\t").append_text _).append_text _
  exact item.entry.binds_emitWith fun n c => q.context.binds_emitValue q.aliases n c mode

/-- The clauses of a statement are the same but for their literals, and so is the statement. -/
theorem binds_assemble {d : Dialect} {k : Nat}
    {items items' conditions conditions' keys keys' order order' : List String}
    {new₁ new₂ new₃ new₄ : List Param}
    (hitems : LinesBindFrom d k items items' new₁)
    (hconditions : LinesBindFrom d (k + new₁.length) conditions conditions' new₂)
    (hkeys : LinesBindFrom d (k + new₁.length + new₂.length) keys keys' new₃)
    (horder : LinesBindFrom d (k + new₁.length + new₂.length + new₃.length) order order' new₄) :
    BindsFrom d k (q.assemble items conditions keys order)
      (q.assemble items' conditions' keys' order') (new₁ ++ (new₂ ++ (new₃ ++ new₄))) := by
  have hselect : BindsFrom d k (clause "select" "," (if items.isEmpty then ["\t42"] else items))
      (clause "select" "," (if items'.isEmpty then ["\t42"] else items')) new₁ := by
    rw [hitems.isEmpty_eq]
    cases hitems with
    | nil => exact .refl _
    | cons hline htail => exact (LinesBindFrom.cons hline htail).clause "select" ","
  have hhead := (hselect.text_append q.commentLine).append_text (clause "from" "," q.tableLines)
  have hwhere := hhead.append (hconditions.clause "where" " and")
  rw [Nat.add_assoc k, ← List.length_append] at hkeys horder
  have hgroup := hwhere.append (hkeys.clause "group by" ",")
  rw [Nat.add_assoc k, ← List.length_append] at horder
  have hall := (hgroup.append (horder.clause "order by" ",")).append_text q.pageLines
  rw [List.append_assoc, List.append_assoc] at hall
  exact hall

/-- A statement with values bound is the statement with literals inline but for the literals. -/
theorem binds_emitStatement :
    Binds q.context.dialect (q.withLiterals .inline).emitStatement
      (q.withLiterals mode).emitStatement := by
  intro k
  refine (LinesBind.emitEach (q.binds_emitSelect mode) q.select k).bind fun _ _ _ hitems => ?_
  refine (LinesBind.emitEach (q.binds_emitWhere mode) q.conditions _).bind fun _ _ _ hwhere => ?_
  refine (LinesBind.emitEach (q.binds_emitGroupBy mode) q.groupBy _).bind fun _ _ _ hkeys => ?_
  refine (LinesBind.emitEach (q.binds_emitOrder mode) q.orderBy _).bind fun _ _ _ horder => ?_
  refine Simulates.pure ?_
  rw [List.append_nil]
  exact q.binds_assemble hitems hwhere hkeys horder

end Query

/-! ## Steps -/

/-- The same outcome of a query with literals written in another way. -/
def Outcome.withLiterals (o : Outcome) (mode : LiteralMode) : Outcome :=
  ⟨o.query.withLiterals mode, o.fault⟩

namespace Query

theorem andThen_withLiterals (o : Outcome) {literals : LiteralMode} {next : Query → Outcome}
    (h : ∀ q : Query, next (q.withLiterals literals) = (next q).withLiterals literals) :
    (o.withLiterals literals).andThen next = (o.andThen next).withLiterals literals := by
  obtain ⟨q, fault⟩ := o
  cases fault with
  | none => exact h q
  | some fault => rfl

theorem tryWith_withLiterals {α : Type} (q : Query) {literals : LiteralMode}
    (value : Except Fault α) {next next' : α → Outcome}
    (h : ∀ a, next' a = (next a).withLiterals literals) :
    (q.withLiterals literals).tryWith value next' =
      (q.tryWith value next).withLiterals literals := by
  cases value with
  | error fault => rfl
  | ok a => exact h a

theorem addJoin_withLiterals (q : Query) (literals : LiteralMode) (path : String)
    (r : Reference Field) :
    (q.withLiterals literals).addJoin path r = (q.addJoin path r).withLiterals literals := by
  have hcondition : (q.withLiterals literals).joinCondition path r = q.joinCondition path r := rfl
  have hnext : (q.withLiterals literals).nextAlias = q.nextAlias := rfl
  rw [addJoin_eq, addJoin_eq, hcondition, hnext, withLiterals, withLiterals]

theorem joinLast_withLiterals (q : Query) (literals : LiteralMode) (path : String) :
    (q.withLiterals literals).joinLast path = (q.joinLast path).withLiterals literals := by
  have haliases : (q.withLiterals literals).aliases = q.aliases := rfl
  have hfield : (q.withLiterals literals).context.requireField path =
      q.context.requireField path := rfl
  rw [joinLast, joinLast, haliases, hfield]
  cases q.aliases.lookup path with
  | some aliasName => rfl
  | none =>
    cases q.context.requireField path with
    | error fault => rfl
    | ok f =>
      cases hr : f.reference with
      | none => simp only [hr]; rfl
      | some r =>
        simp only [hr, addJoin_withLiterals]
        rfl

theorem joinEach_withLiterals (q : Query) (literals : LiteralMode) (paths : List String) :
    (q.withLiterals literals).joinEach paths = (q.joinEach paths).withLiterals literals := by
  induction paths generalizing q with
  | nil => rfl
  | cons path paths ih =>
    rw [joinEach, joinEach, joinLast_withLiterals]
    exact andThen_withLiterals _ ih

theorem joinFields_withLiterals (q : Query) (literals : LiteralMode) (n : Node) :
    (q.withLiterals literals).joinFields n = (q.joinFields n).withLiterals literals := by
  rw [joinFields, joinFields, joinPaths_eq, joinPaths_eq, joinEach_withLiterals]

/-- What a step does, and whether it is refused, does not depend on how literals are written. -/
theorem apply_withLiterals (q : Query) (literals : LiteralMode) (step : Step) :
    (q.withLiterals literals).apply step = (q.apply step).withLiterals literals := by
  cases step with
  | selectExpr n aliasName =>
    refine q.tryWith_withLiterals _ fun _ => q.tryWith_withLiterals _ fun c => ?_
    refine q.tryWith_withLiterals _ fun mode => ?_
    have hjoin := joinFields_withLiterals { q with mode } literals n
    rw [← andThen_withLiterals _ fun q => ?_, ← hjoin]
    · rfl
    · simp only [foldl_pushGroupKey]
      rfl
  | selectSql sql aliasName =>
    refine q.tryWith_withLiterals _ fun _ => q.tryWith_withLiterals _ fun mode => rfl
  | fromSql sql aliasName => exact q.tryWith_withLiterals _ fun _ => rfl
  | fromPath path => exact q.joinEach_withLiterals literals _
  | whereExpr n =>
    refine q.tryWith_withLiterals _ fun c => ?_
    rw [joinFields_withLiterals]
    exact andThen_withLiterals _ fun q => rfl
  | groupByExpr n =>
    refine q.tryWith_withLiterals _ fun c => q.tryWith_withLiterals _ fun mode => ?_
    have hjoin := joinFields_withLiterals { q with mode } literals n
    rw [← andThen_withLiterals _ fun q => rfl, ← hjoin]
    rfl
  | groupBySql sql => exact q.tryWith_withLiterals _ fun mode => rfl
  | orderExpr n direction nulls =>
    refine q.tryWith_withLiterals _ fun c => ?_
    rw [joinFields_withLiterals]
    exact andThen_withLiterals _ fun q => rfl
  | _ => rfl

theorem outcomes_withLiterals (q : Query) (literals : LiteralMode) (steps : List Step) :
    (q.withLiterals literals).outcomes steps =
      (q.outcomes steps).map (·.withLiterals literals) := by
  induction steps generalizing q with
  | nil => rfl
  | cons step steps ih =>
    rw [outcomes, outcomes, List.map_cons, apply_withLiterals]
    exact congrArg _ (ih (q.apply step).query)

theorem run_withLiterals (q : Query) (literals : LiteralMode) (steps : List Step) :
    (q.withLiterals literals).run steps = (q.run steps).withLiterals literals := by
  induction steps generalizing q with
  | nil => rfl
  | cons step steps ih =>
    have hstep : ((q.withLiterals literals).apply step).query =
        (q.apply step).query.withLiterals literals := by
      rw [apply_withLiterals]
      rfl
    rw [run, List.foldl_cons, hstep]
    exact ih (q.apply step).query

end Query

/-! ## Both ways side by side -/

/-- Whether a result with values bound is the one with literals inline but for the literals: both
are the same fault, or the first one binds nothing, and its text has literals where that of the
second one has the placeholders of its values. -/
def SameButLiterals (d : Dialect) : Except Fault Fragment → Except Fault Fragment → Prop
  | .error fault, .error fault' => fault = fault'
  | .ok inline, .ok bound => inline.params = [] ∧ BindsFrom d 0 inline.sql bound.sql bound.params
  | _, _ => False

theorem Emit.Binds.toFragment {d : Dialect} {plain e : Emit String} (h : Binds d plain e) :
    SameButLiterals d plain.toFragment e.toFragment := by
  rcases h 0 [] rfl with ⟨fault, rfl, hrun⟩ | ⟨inline, bound, params, rfl, hrun, hbinds⟩
  · have he : e.toFragment = .error fault := by rw [Emit.toFragment, hrun]
    rw [he]
    rfl
  · have he : e.toFragment = .ok ⟨bound, params⟩ := by rw [Emit.toFragment, hrun]; rfl
    rw [he]
    exact ⟨rfl, hbinds⟩

theorem Context.compile_sameButLiterals (ctx : Context) (n : Node) (mode : LiteralMode) :
    SameButLiterals ctx.dialect ((ctx.withLiterals .inline).compile n)
      ((ctx.withLiterals mode).compile n) := by
  have hcheck : ∀ mode, (ctx.withLiterals mode).check n = ctx.check n := fun _ => rfl
  rw [compile, compile, hcheck, hcheck]
  cases ctx.check n with
  | error fault => exact rfl
  | ok c => exact (ctx.binds_emitValue [] n c mode).toFragment

theorem Query.statement_sameButLiterals (q : Query) (mode : LiteralMode) :
    SameButLiterals q.context.dialect (q.withLiterals .inline).statement
      (q.withLiterals mode).statement :=
  (q.binds_emitStatement mode).toFragment

/-- The same steps on two empty queries of the same mode, one with literals inline and one with
values bound, have the same outcomes: each step is refused in both for the same reason or in none,
and leaves the same query. The statements are refused for the same reason, or they are the same but
for the literals of the values that the second one binds. So it is for a single expression. -/
theorem Query.run_bind_sameButLiterals (schema : Schema) (rules : RuleTable) (mode : SelectMode)
    (comment : Option String) (steps : List Step) (n : Node) :
    let inline : Query := { context := ⟨schema, rules, .inline⟩, mode, comment }
    let bound : Query := { context := ⟨schema, rules, .bind⟩, mode, comment }
    bound.outcomes steps = (inline.outcomes steps).map (·.withLiterals .bind) ∧
      SameButLiterals rules.dialect (inline.run steps).statement (bound.run steps).statement ∧
      SameButLiterals rules.dialect (inline.context.compile n) (bound.context.compile n) := by
  intro inline bound
  have hcontext : (inline.run steps).context = inline.context := inline.run_context steps
  have hinline : inline.run steps = (inline.run steps).withLiterals .inline :=
    inline.run_withLiterals .inline steps
  have hbound : bound.run steps = (inline.run steps).withLiterals .bind :=
    inline.run_withLiterals .bind steps
  have hstatement := (inline.run steps).statement_sameButLiterals .bind
  rw [← hinline, ← hbound, hcontext] at hstatement
  exact ⟨inline.outcomes_withLiterals .bind steps, hstatement,
    inline.context.compile_sameButLiterals n .bind⟩

/-- A text that stands twice in a query is bound twice. -/
example :
    let red := Node.ofExpr (.const (.str "red"))
    let q := Query.run { context := ⟨⟨[]⟩, ⟨.postgres, [], rfl⟩, .bind⟩ }
      [.selectExpr red (some "a"), .selectExpr red none]
    q.statement =
      .ok ⟨"select\n\t$1 /* 'red' */ as a,\n\t$2 /* 'red' */\n", [.str "red", .str "red"]⟩ :=
  rfl

end TypedSql
