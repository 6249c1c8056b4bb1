import TypedSql.Proofs.Enclosure
import TypedSql.Proofs.Paths
import TypedSql.Proofs.ReadBack

/-!
# The leaves of an expression

Constants are written as enclosed texts: numbers are put in parentheses if they are negative, and
texts, dates and moments are quoted. Fields are primaries if the SQL that the schema gives for them
is closed, that is, if it leaves the lexer between tokens, and they are enclosed if that SQL is.
-/

namespace TypedSql

open Lexer (IsPrimary IsEnclosed isHarmless isOrdinary isSound isEnclosing)

variable {d : Dialect} {commas : Bool}

/-! ## Constants -/

theorem isHarmless_of_isDigit {c : Char} (h : c.isDigit = true) : isHarmless c = true := by
  have hblank : Text.isBlank c = false := Text.isBlank_eq_false_of_isDigit h
  have hordinary : isOrdinary c = true := by
    simp only [isOrdinary, Bool.and_eq_true, decide_eq_true_eq]
    and_intros <;> (rintro rfl; cases h)
  have hoperator : c ∉ Lexer.operatorChars true := by
    intro hmem
    simp only [Lexer.operatorChars, if_true, List.mem_append, List.mem_cons, List.not_mem_nil,
      or_false] at hmem
    rcases hmem with (rfl | rfl | rfl | rfl | rfl | rfl | rfl | rfl | rfl | rfl) | rfl <;> cases h
  have hopen : c ≠ '(' := by rintro rfl; cases h
  have hclose : c ≠ ')' := by rintro rfl; cases h
  simp [isHarmless, hordinary, hopen, hclose, hoperator, hblank]

theorem isHarmless_of_mem_toDigits {n : Nat} {c : Char} (h : c ∈ Nat.toDigits 10 n) :
    isHarmless c = true :=
  isHarmless_of_isDigit (Nat.isDigit_of_mem_toDigits (by omega) (by omega) h)

theorem isHarmless_of_mem_padded {width n : Nat} {c : Char} (h : c ∈ Text.padded width n) :
    isHarmless c = true :=
  isHarmless_of_isDigit (Text.isDigit_of_mem_padded h)

/-- A minus sign with an enclosed text behind it is enclosed if it is put in parentheses. -/
theorem isEnclosed_negative {cs : List Char} (hcs : IsEnclosed d commas cs) :
    IsEnclosed d commas ('(' :: '-' :: cs ++ [')']) := by
  let template : List (Char ⊕ Unit) := [.inl '(', .inl '-', .inr (), .inl ')']
  have hsound : isSound d template = true := by cases d <;> decide
  have henclosing : isEnclosing d commas template = true := by
    cases d <;> cases commas <;> decide
  exact Lexer.isEnclosed_fillWith hsound henclosing fun _ _ => hcs

/-- A number is enclosed if it consists of harmless characters apart from its sign. -/
theorem isEnclosed_numeral {text : String} {negative : Bool} {cs : List Char}
    (htext : text.toList = if negative then '-' :: cs else cs)
    (hcs : ∀ c ∈ cs, isHarmless c = true) :
    IsEnclosed d commas (numeral text negative).toList := by
  cases negative with
  | false =>
    have hchars : (numeral text false).toList = cs := htext
    rw [hchars]
    exact Lexer.isEnclosed_harmless hcs
  | true =>
    have hchars : (numeral text true).toList = '(' :: '-' :: cs ++ [')'] := by
      rw [numeral, if_pos rfl, String.toList_append, String.toList_append, htext]
      rfl
    rw [hchars]
    exact isEnclosed_negative (Lexer.isEnclosed_harmless hcs)

theorem isEnclosed_int (n : Int64) : IsEnclosed d commas (Constant.sql d (.int n)).toList := by
  have hsign : decide (n < 0) = decide (n.toInt < 0) := by
    rw [decide_eq_decide, Int64.lt_iff_toInt_lt, Int64.toInt_zero]
  have htext : (toString n.toInt).toList =
      if decide (n < 0) then '-' :: Nat.toDigits 10 n.toInt.natAbs
      else Nat.toDigits 10 n.toInt.natAbs := by
    rw [hsign, Int.toString_eq_repr, Int.repr_eq_if]
    by_cases hneg : n.toInt < 0
    · have hmagnitude : (-n.toInt).toNat = n.toInt.natAbs := by omega
      have hnot : ¬ 0 ≤ n.toInt := by omega
      rw [if_neg hnot, if_pos (decide_eq_true hneg), String.toList_append, Nat.toList_repr,
        hmagnitude]
      rfl
    · have hmagnitude : n.toInt.toNat = n.toInt.natAbs := by omega
      have hnonneg : 0 ≤ n.toInt := by omega
      have hsign : ¬ decide (n.toInt < 0) = true := by simpa using hnonneg
      rw [if_pos hnonneg, if_neg hsign, Nat.toList_repr, hmagnitude]
  exact isEnclosed_numeral htext fun c hc => isHarmless_of_mem_toDigits hc

theorem isEnclosed_number (v : Decimal) :
    IsEnclosed d commas (Constant.sql d (.number v)).toList := by
  have htext : v.text.toList =
      if v.negative then '-' :: v.magnitudeChars else v.magnitudeChars := by
    rw [Decimal.text, String.toList_ofList, Decimal.chars]
  refine isEnclosed_numeral htext fun c hc => ?_
  unfold Decimal.magnitudeChars at hc
  split at hc
  · exact isHarmless_of_mem_toDigits hc
  · rcases List.mem_append.1 hc with hc | hc
    · exact isHarmless_of_mem_toDigits hc
    · rcases List.mem_cons.1 hc with rfl | hc
      · decide
      · exact isHarmless_of_mem_padded hc

/-- A quoted text with fixed texts around it is enclosed if any other literal in its place is. -/
theorem isEnclosed_quoteText_between {front back : String} (text : String)
    (hsound : isSound d (front.toList.map .inl ++ .inr () :: back.toList.map .inl) = true)
    (h : ∀ literal, Lexer.encloses d commas 0 []
      (Lexer.fillWith (fun _ => [⟨.string, literal⟩])
        (Lexer.weave d (.plain false)
          (front.toList.map .inl ++ .inr () :: back.toList.map .inl))) = true) :
    IsEnclosed d commas (front ++ d.quoteText text ++ back).toList := by
  have hchars : (front ++ d.quoteText text ++ back).toList =
      Lexer.fillWith (fun _ => d.quoteChars text.toList)
        (front.toList.map .inl ++ .inr () :: back.toList.map .inl) := by
    simp [Dialect.quoteText]
  have hliteral : IsEnclosed d commas (d.quoteChars text.toList) :=
    Lexer.isEnclosed_quoteChars text.toList
  rw [hchars, Lexer.isEnclosed_iff, Lexer.tokens_fillWith hsound fun _ _ => hliteral.isPrimary,
    Lexer.tokens_quoteChars]
  exact h _

theorem isEnclosed_dateLiteral (date : Date) :
    IsEnclosed d commas (d.dateLiteral date).toList := by
  cases d with
  | oracle =>
    refine isEnclosed_quoteText_between date.text ?_ fun literal => ?_
    · repeat rw [String.toList_ofList]
      decide
    · repeat rw [String.toList_ofList]
      cases commas <;> rfl
  | postgres =>
    rw [Dialect.dateLiteral, ← String.append_empty (s := "date " ++ _)]
    refine isEnclosed_quoteText_between date.text ?_ fun literal => ?_
    · repeat rw [String.toList_ofList]
      decide
    · repeat rw [String.toList_ofList]
      cases commas <;> rfl

theorem isEnclosed_dateTimeLiteral (moment : DateTime) :
    IsEnclosed d commas (d.dateTimeLiteral moment).toList := by
  cases d with
  | oracle =>
    refine isEnclosed_quoteText_between moment.sqlText ?_ fun literal => ?_
    · repeat rw [String.toList_ofList]
      decide
    · repeat rw [String.toList_ofList]
      cases commas <;> rfl
  | postgres =>
    rw [Dialect.dateTimeLiteral, ← String.append_empty (s := "timestamp " ++ _)]
    refine isEnclosed_quoteText_between moment.sqlText ?_ fun literal => ?_
    · repeat rw [String.toList_ofList]
      decide
    · repeat rw [String.toList_ofList]
      cases commas <;> rfl

theorem toList_sql_str (s : String) : (Constant.sql d (.str s)).toList = d.quoteChars s.toList := by
  rw [Constant.sql, Dialect.quoteText, String.toList_ofList]

/-- Every constant is written as an enclosed text. -/
theorem isEnclosed_constant (v : Constant) : IsEnclosed d commas (v.sql d).toList := by
  cases v with
  | null =>
    have hchars : "null".toList = ['n', 'u', 'l', 'l'] := by rw [String.toList_ofList]
    rw [Constant.sql, hchars]
    exact Lexer.isEnclosed_harmless (List.all_eq_true.1 rfl)
  | bool b =>
    have hchars : (Constant.sql d (.bool b)).toList = [if b then '1' else '0'] := by
      cases b <;> simp [Constant.sql]
    rw [hchars]
    refine Lexer.isEnclosed_harmless (List.all_eq_true.1 ?_)
    cases b <;> rfl
  | int n => exact isEnclosed_int n
  | number v => exact isEnclosed_number v
  | str s =>
    rw [toList_sql_str]
    exact Lexer.isEnclosed_quoteChars s.toList
  | date v => exact isEnclosed_dateLiteral v
  | dateTime t => exact isEnclosed_dateTimeLiteral t

theorem isPrimary_constant (v : Constant) : IsPrimary d (v.sql d).toList := by
  have henclosed : IsEnclosed d false (v.sql d).toList := isEnclosed_constant v
  exact henclosed.isPrimary

/-- The mark of a parameter is enclosed. -/
theorem isEnclosed_placeholder (k : Nat) : IsEnclosed d commas (d.placeholder k).toList := by
  obtain ⟨mark, hmark, hchars⟩ : ∃ mark, isHarmless mark = true ∧
      (d.placeholder k).toList = mark :: Nat.toDigits 10 k := by
    cases d with
    | oracle => exact ⟨':', rfl, by simp [Dialect.placeholder, Nat.toList_repr]⟩
    | postgres => exact ⟨'$', rfl, by simp [Dialect.placeholder, Nat.toList_repr]⟩
  rw [hchars]
  refine Lexer.isEnclosed_harmless fun c hc => ?_
  rcases List.mem_cons.1 hc with rfl | hc
  · exact hmark
  · exact isHarmless_of_mem_toDigits hc

/-! ## Fields -/

/-- Whether a text leaves the lexer between tokens and does not begin with a minus sign. Nothing
else matters for the tokens around it: not its parentheses, nor the operators in it. -/
def Lexer.IsClosed (d : Dialect) (text : String) : Prop :=
  text.toList.head? ≠ some '-' ∧ (Lexer.run d (.plain false) text.toList).2.isSettled = true

/-- Whether the SQL of all fields of a schema is closed. The fields of groups do not matter, as an
expression by itself cannot reach them. -/
def Schema.IsClosed (d : Dialect) (s : Schema) : Prop :=
  ∀ f ∈ s.fields, ∀ sql ∈ f.sql, Lexer.IsClosed d sql

/-- Without joins, only the fields of the schema itself have SQL. -/
theorem Context.fieldSql_eq_ok {ctx : Context} {path sql : String}
    (h : ctx.fieldSql [] path = .ok sql) :
    ∃ f ∈ ctx.schema.fields, sql = f.sqlAs path none := by
  unfold fieldSql emitField at h
  split at h
  · cases h
  · rename_i f hf
    split at h
    · rename_i hpath
      cases h
      exact ⟨f, Schema.mem_fields_of_resolve? hpath hf, rfl⟩
    · cases h

/-- Whether the SQL of all fields of a schema is enclosed. -/
def Schema.IsEnclosed (d : Dialect) (commas : Bool) (s : Schema) : Prop :=
  ∀ f ∈ s.fields, ∀ sql ∈ f.sql, Lexer.IsEnclosed d commas sql.toList

theorem isEnclosed_quoteIdentifier (name : String) :
    IsEnclosed d commas (quoteIdentifier name).toList := by
  rw [quoteIdentifier, String.toList_ofList]
  exact Lexer.isEnclosed_identifierChars name.toList

theorem isEnclosed_fieldSql {ctx : Context} {path sql : String}
    (hschema : ctx.schema.IsEnclosed d commas) (h : ctx.fieldSql [] path = .ok sql) :
    IsEnclosed d commas sql.toList := by
  obtain ⟨f, hf, rfl⟩ := Context.fieldSql_eq_ok h
  unfold Field.sqlAs
  cases hsql : f.sql with
  | some sql => exact hschema f hf sql hsql
  | none => exact isEnclosed_quoteIdentifier path

theorem isPrimary_fieldSql {ctx : Context} {path sql : String} (hclosed : ctx.schema.IsClosed d)
    (h : ctx.fieldSql [] path = .ok sql) : IsPrimary d sql.toList := by
  obtain ⟨f, hf, rfl⟩ := Context.fieldSql_eq_ok h
  unfold Field.sqlAs
  cases hsql : f.sql with
  | some sql =>
    obtain ⟨hhead, hsettled⟩ := hclosed f hf sql hsql
    exact Lexer.isPrimary_of_settled hhead hsettled
  | none =>
    have henclosed : IsEnclosed d false (quoteIdentifier path).toList :=
      isEnclosed_quoteIdentifier path
    exact henclosed.isPrimary

end TypedSql
