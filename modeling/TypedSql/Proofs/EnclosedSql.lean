import TypedSql.Proofs.Injection

/-!
# The SQL of an expression is enclosed

Whatever an expression compiles to keeps to itself: it can stand in place of a reference of a
template, or anywhere in a statement, and changes neither the tokens around it nor how they group.
This holds for literals inline as well as for placeholders. A template that refers to an operand
twice may then write it in two ways, with different placeholders, and both of them are enclosed.
-/

namespace TypedSql

open Lexer (IsPrimary IsEnclosed isSound isEnclosing encloses fillWith)

variable {d : Dialect} {commas : Bool}

/-! ## Generators -/

namespace Emit

variable {α : Type}

/-- Whether everything that a generator writes has a property, whatever has been bound before. -/
def Writes (P : String → Prop) (e : Emit String) : Prop :=
  ∀ params text after, e.run params = .ok (text, after) → P text

variable {P : String → Prop}

theorem writes_pure {text : String} (h : P text) : Writes P (pure text) := by
  intro params text' after hrun
  cases hrun
  exact h

theorem writes_fail (fault : Fault) : Writes P (fail fault) := by
  intro params text after hrun
  cases hrun

theorem Writes.bind {e : Emit α} {f : α → Emit String} (h : ∀ a, Writes P (f a)) :
    Writes P (e >>= f) := by
  intro params text after hrun
  obtain ⟨a, between, -, hrest⟩ := run_bind_eq_ok_iff.1 hrun
  exact h a between text after hrest

end Emit

/-! ## Templates -/

namespace Template

variable {P : String → Prop} {operands : List (Emit String)} {params after : List Param}
  {sql : String}

/-- What a template expands to is the template with the texts that its operands have written. -/
theorem exists_items_of_expandPieces {t : Template} {pieces : List Piece}
    (hoperands : ∀ operand ∈ operands, operand.Writes P)
    (h : (t.expandPieces operands pieces).run params = .ok (sql, after)) :
    ∃ xs : List (Char ⊕ String), sql.toList = fillWith String.toList xs ∧
      xs.map (Sum.map id fun _ => ()) = (pieces.flatMap pieceItems).map (Sum.map id fun _ => ()) ∧
      ∀ text, .inr text ∈ xs → P text := by
  induction pieces generalizing params sql with
  | nil =>
    cases h
    exact ⟨[], rfl, rfl, by simp⟩
  | cons piece pieces ih =>
    obtain ⟨first, between, hfirst, h⟩ := Emit.run_bind_eq_ok_iff.1 h
    obtain ⟨rest, behind, hrest, h⟩ := Emit.run_bind_eq_ok_iff.1 h
    cases h
    obtain ⟨xs, hchars, hitems, htexts⟩ := ih hrest
    cases piece with
    | text text =>
      cases hfirst
      refine ⟨first.toList.map .inl ++ xs, ?_, ?_, ?_⟩
      · rw [String.toList_append, hchars, Lexer.fillWith_append, Lexer.fillWith_map_inl]
      · simp [pieceItems, hitems]
      · intro text htext
        refine htexts text ?_
        simpa using htext
    | child index =>
      have hfirst : P first := by
        rw [expandPiece] at hfirst
        split at hfirst
        · rename_i operand hoperand
          exact hoperands operand (List.mem_of_getElem? hoperand) params first between hfirst
        · cases hfirst
      refine ⟨.inr first :: xs, ?_, ?_, ?_⟩
      · rw [String.toList_append, hchars, Lexer.fillWith_inr]
      · simp [pieceItems, hitems]
      · intro text htext
        rcases List.mem_cons.1 htext with htext | htext
        · cases htext
          exact hfirst
        · exact htexts text htext

theorem writes_expand {t : Template} (hsound : isSound d t.items = true)
    (henclosing : isEnclosing d commas t.items = true)
    (hoperands : ∀ operand ∈ operands,
      operand.Writes fun sql => IsEnclosed d commas sql.toList) :
    (t.expand operands).Writes fun sql => IsEnclosed d commas sql.toList := by
  intro params sql after hrun
  obtain ⟨xs, hchars, hitems, htexts⟩ := exists_items_of_expandPieces hoperands hrun
  have hitems : xs.map (Sum.map id fun _ => ()) = t.items.map (Sum.map id fun _ => ()) := hitems
  have hsound : isSound d xs = true := by
    rw [← Lexer.isSound_map fun _ => (), hitems, Lexer.isSound_map]
    exact hsound
  have henclosing : isEnclosing d commas xs = true := by
    rw [← Lexer.isEnclosing_map fun _ => (), hitems, Lexer.isEnclosing_map]
    exact henclosing
  rw [hchars]
  exact Lexer.isEnclosed_fillWith hsound henclosing htexts

end Template

theorem isEnclosing_conditionalTemplate {truth : Template} (hsound : isSound d truth.items = true)
    (h : isEnclosing d commas truth.items = true) :
    isEnclosing d commas (conditionalTemplate truth).items = true := by
  have hrun : Lexer.run d (.plain false)
      ['(', 'c', 'a', 's', 'e', ' ', 'w', 'h', 'e', 'n', ' '] =
      (['(', 'c', 'a', 's', 'e', ' ', 'w', 'h', 'e', 'n', ' '].map (fun c => ⟨.char, [c]⟩),
        .plain false) := by
    cases d <;> decide
  have htruth : isEnclosing d commas (truth.remap [1]).items = true := by
    rw [Template.items_remap, Lexer.isEnclosing_map]
    exact h
  -- the opening parenthesis takes everything behind it to depth one
  have hopening : ∀ rest, encloses d commas 0 []
      (['(', 'c', 'a', 's', 'e', ' ', 'w', 'h', 'e', 'n', ' '].map (fun c => ⟨.char, [c]⟩) ++ rest) =
      encloses d commas 1 [] rest := by
    intro rest
    cases commas <;> rfl
  rw [isEnclosing, Bool.or_eq_true]
  right
  rw [items_conditionalTemplate, Lexer.operatorTokens_map_inl, hrun, hopening,
    Lexer.operatorTokens_append (Template.fits_remap hsound [1]) rfl]
  refine Lexer.encloses_operatorTokens_append htruth (by decide) [] ?_
  cases d <;> cases commas <;> decide

/-! ## Expressions -/

theorem writes_emitConstant (mode : LiteralMode) (v : Constant) :
    (emitConstant d mode v).Writes fun sql => IsEnclosed d commas sql.toList := by
  have hinline : (emitConstant d .inline v).Writes fun sql => IsEnclosed d commas sql.toList := by
    rw [emitConstant_inline]
    exact Emit.writes_pure (isEnclosed_constant v)
  have hbind : ∀ p, (Emit.bindParam d p).Writes fun sql => IsEnclosed d commas sql.toList := by
    intro p params text after hrun
    cases hrun
    exact isEnclosed_placeholder _
  cases mode with
  | inline => exact hinline
  | bind =>
    cases v with
    | str s => exact hbind _
    | date v => exact hbind _
    | dateTime t => exact hbind _
    | _ => exact hinline

namespace Context

variable {ctx : Context}

theorem isEnclosing_rule? {n : Node} {c : Checked} {r : Rule}
    (hrules : registry ctx.dialect = .ok ctx.rules) (hcheck : ctx.check n = .ok c)
    (hr : c.rule? = some r) (commas : Bool) :
    isEnclosing ctx.dialect commas r.template.items = true := by
  have hboth := template_of_check (fun t => isSound ctx.dialect t.items = true ∧
      isEnclosing ctx.dialect commas t.items = true)
    (fun r hr => ⟨isSound_of_mem_registry hrules hr, isEnclosing_of_mem_registry hrules hr commas⟩)
    ⟨isSound_self ctx.dialect, rfl⟩
    (fun truth htruth => ⟨isSound_conditionalTemplate htruth.1,
      isEnclosing_conditionalTemplate htruth.1 htruth.2⟩)
    hcheck hr
  exact hboth.2

/-- Everything that an expression is written as is enclosed. -/
theorem writes_emit (hrules : registry ctx.dialect = .ok ctx.rules)
    (hschema : ctx.schema.IsEnclosed ctx.dialect commas) {n : Node} {c : Checked}
    (hcheck : ctx.check n = .ok c) (mode : LiteralMode) :
    (ctx.emit [] n c mode).Writes fun sql => IsEnclosed ctx.dialect commas sql.toList := by
  -- the operands of a grouping key are written in another mode, so the induction is over all modes
  induction n using Node.induction generalizing c mode with
  | step n ih =>
    by_cases hconst : ∃ v, n.expr = .const v
    · obtain ⟨v, hn⟩ := hconst
      have hemit : ctx.emit [] n c mode = emitConstant ctx.dialect mode v := by
        rw [emit, Node.fold_eq, hn]
        rfl
      rw [hemit]
      exact writes_emitConstant mode v
    by_cases hfield : ∃ path, n.expr = .field path
    · obtain ⟨path, hn⟩ := hfield
      have hemit : ctx.emit [] n c mode = Emit.inline (ctx.fieldSql [] path) := by
        rw [emit, Node.fold_eq, hn, ← emitField_inline]
        rfl
      rw [hemit]
      cases hsql : ctx.fieldSql [] path with
      | error fault => exact Emit.writes_fail fault
      | ok sql => exact Emit.writes_pure (isEnclosed_fieldSql hschema hsql)
    rw [not_exists] at hconst hfield
    rw [ctx.emit_of_rule [] hconst hfield, emitRule]
    split
    · rename_i r hr
      refine Template.writes_expand (isSound_rule? hrules hcheck hr)
        (isEnclosing_rule? hrules hcheck hr commas) fun operand hoperand => ?_
      obtain ⟨m, hm, d, -, hmd, rfl⟩ := exists_of_mem_zipWith (check_children hcheck) hoperand
      exact ih m hm hmd _
    · exact Emit.writes_fail _

/-- Every fragment that an expression compiles to by the rules of a dialect is enclosed, with
literals inline or bound, if the SQL that the schema gives for its fields is; commas may be counted
among the operators or not. So it is a primary too: it can be put in place of an operand, and
neither it nor what stands around it is read differently. -/
theorem compile_isEnclosed {n : Node} {f : Fragment}
    (hrules : registry ctx.dialect = .ok ctx.rules)
    (hschema : ctx.schema.IsEnclosed ctx.dialect commas) (h : ctx.compile n = .ok f) :
    IsEnclosed ctx.dialect commas f.sql.toList ∧ IsPrimary ctx.dialect f.sql.toList := by
  obtain ⟨c, hcheck, hgenerate⟩ := bind_eq_ok_iff.1 h
  have hwrites : (ctx.emitValue [] n c).Writes fun sql =>
      IsEnclosed ctx.dialect commas sql.toList :=
    Emit.Writes.bind fun _ => writes_emit hrules hschema hcheck ctx.literals
  have henclosed : IsEnclosed ctx.dialect commas f.sql.toList :=
    hwrites [] f.sql f.params (Emit.run_of_toFragment hgenerate)
  exact ⟨henclosed, henclosed.isPrimary⟩

/-- The two texts in `lower(name) || text` are put in parentheses. -/
theorem compile_isEnclosed_nameWith :
    ∃ rules f, registry .postgres = .ok rules ∧ nameSchema.IsEnclosed .postgres true ∧
      (⟨nameSchema, rules, .inline⟩ : Context).compile (nameWith "' -- ") = .ok f ∧
      IsEnclosed .postgres true f.sql.toList ∧ IsPrimary .postgres f.sql.toList := by
  obtain ⟨rules, hrules⟩ := exists_registry .postgres
  have hdialect : rules.dialect = .postgres := (rules_of_registry hrules).2
  have hschema : nameSchema.IsEnclosed .postgres true := by
    intro f hf sql hsql
    cases List.mem_singleton.1 hf
    cases hsql
    decide +kernel
  obtain ⟨f, hf⟩ := exists_compile_nameWith hrules "' -- "
  have hctx : (⟨nameSchema, rules, .inline⟩ : Context).dialect = .postgres := hdialect
  have henclosed := compile_isEnclosed (by rw [hctx]; exact hrules) (by rw [hctx]; exact hschema) hf
  rw [hctx] at henclosed
  exact ⟨rules, f, hrules, hschema, hf, henclosed⟩

end Context

end TypedSql
