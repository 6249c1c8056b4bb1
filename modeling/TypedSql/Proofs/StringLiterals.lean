import TypedSql.Expr.Source
import TypedSql.Json.Reader

/-!
# String literals

A string literal of the expression language stands between two quotes. Behind a backslash, a
backslash, a quote and the letters `n`, `r` and `t` stand for one character, and so does the letter
`x` with two hexadecimal digits. Every text that is written as a literal is read back, up to the
closing quote and no further, and what is written contains no control characters.
-/

namespace TypedSql

namespace Text

/-! ## Reading -/

/-- Reads a string literal behind its opening quote: gives the text that it stands for, and what
comes after the closing quote, the first one without a backslash. -/
def unquote (quote : Char) : List Char → Option (List Char × List Char)
  | [] => none
  | '\\' :: 'n' :: cs => (unquote quote cs).map (Prod.map ('\n' :: ·) id)
  | '\\' :: 'r' :: cs => (unquote quote cs).map (Prod.map ('\r' :: ·) id)
  | '\\' :: 't' :: cs => (unquote quote cs).map (Prod.map ('\t' :: ·) id)
  | '\\' :: 'x' :: high :: low :: cs =>
    match Json.hexValue? high, Json.hexValue? low with
    | some h, some l => (unquote quote cs).map (Prod.map (Char.ofNat (16 * h + l) :: ·) id)
    | _, _ => none
  | '\\' :: c :: cs =>
    if c = '\\' ∨ c = '\'' ∨ c = '"' then (unquote quote cs).map (Prod.map (c :: ·) id) else none
  | c :: cs => if c = quote then some ([], cs) else (unquote quote cs).map (Prod.map (c :: ·) id)

/-- Reads a string literal, whose quote is the first character of the text: gives what the literal
stands for, and what comes after it. -/
def literalValue? : List Char → Option (List Char × List Char)
  | [] => none
  | quote :: cs => if quote = '\'' ∨ quote = '"' then unquote quote cs else none

/-! ## How a character is written -/

theorem literalQuote_eq (cs : List Char) : literalQuote cs = '\'' ∨ literalQuote cs = '"' := by
  unfold literalQuote
  split
  · exact Or.inr rfl
  · exact Or.inl rfl

/-- A character is written with an escape of its own, by its code if it is another control
character, and otherwise as itself. -/
theorem literalChar_cases (quote c : Char) :
    (∃ e, (e, c) ∈ [('\\', '\\'), ('n', '\n'), ('r', '\r'), ('t', '\t'), (quote, quote)] ∧
      literalChar quote c = ['\\', e]) ∨
    (isControl c = true ∧ literalChar quote c =
      ['\\', 'x', Nat.digitChar (c.toNat / 16), Nat.digitChar (c.toNat % 16)]) ∨
    (c ≠ '\\' ∧ c ≠ quote ∧ isControl c = false ∧ literalChar quote c = [c]) := by
  unfold literalChar
  by_cases hescape : c = '\\'
  · exact Or.inl ⟨'\\', by simp [hescape], if_pos hescape⟩
  by_cases hfeed : c = '\n'
  · exact Or.inl ⟨'n', by simp [hfeed], by rw [if_neg hescape, if_pos hfeed]⟩
  by_cases hreturn : c = '\r'
  · exact Or.inl ⟨'r', by simp [hreturn], by rw [if_neg hescape, if_neg hfeed, if_pos hreturn]⟩
  by_cases htab : c = '\t'
  · refine Or.inl ⟨'t', by simp [htab], ?_⟩
    rw [if_neg hescape, if_neg hfeed, if_neg hreturn, if_pos htab]
  rw [if_neg hescape, if_neg hfeed, if_neg hreturn, if_neg htab]
  by_cases hc : c = quote
  · exact Or.inl ⟨c, by simp [hc], if_pos hc⟩
  rw [if_neg hc]
  cases hcontrol : isControl c with
  | true => exact Or.inr (Or.inl ⟨rfl, if_pos rfl⟩)
  | false => exact Or.inr (Or.inr ⟨hescape, hc, rfl, if_neg Bool.false_ne_true⟩)

/-- The code of a control character has two hexadecimal digits. -/
theorem div_lt_of_isControl {c : Char} (h : isControl c = true) : c.toNat / 16 < 16 := by
  simp only [isControl, Bool.or_eq_true, Bool.and_eq_true, decide_eq_true_eq] at h
  omega

/-! ## Reading what was written -/

theorem hexValue?_digitChar {k : Nat} (h : k < 16) : Json.hexValue? (Nat.digitChar k) = some k := by
  have hall : ∀ k < 16, Json.hexValue? (Nat.digitChar k) = some k := by decide
  exact hall k h

theorem unquote_cons {quote c : Char} (hquote : c ≠ quote) (hescape : c ≠ '\\') (cs : List Char) :
    unquote quote (c :: cs) = (unquote quote cs).map (Prod.map (c :: ·) id) := by
  rw [unquote, if_neg hquote]
  -- the other equations of `unquote` are about escapes
  all_goals
    intros
    simp_all

theorem unquote_control {c : Char} (h : isControl c = true) (quote : Char) (cs : List Char) :
    unquote quote ('\\' :: 'x' :: Nat.digitChar (c.toNat / 16) :: Nat.digitChar (c.toNat % 16) ::
      cs) = (unquote quote cs).map (Prod.map (c :: ·) id) := by
  have hvalue : 16 * (c.toNat / 16) + c.toNat % 16 = c.toNat := Nat.div_add_mod c.toNat 16
  simp only [unquote, hexValue?_digitChar (div_lt_of_isControl h),
    hexValue?_digitChar (Nat.mod_lt _ (by omega)), hvalue, Char.ofNat_toNat]

theorem unquote_literalChar {quote : Char} (hquote : quote = '\'' ∨ quote = '"') (c : Char)
    (cs : List Char) :
    unquote quote (literalChar quote c ++ cs) = (unquote quote cs).map (Prod.map (c :: ·) id) := by
  rcases literalChar_cases quote c with
    ⟨e, he, hchars⟩ | ⟨hcontrol, hchars⟩ | ⟨hescape, hc, -, hchars⟩ <;> rw [hchars]
  · simp only [List.mem_cons, Prod.mk.injEq, List.not_mem_nil, or_false] at he
    rcases he with ⟨rfl, rfl⟩ | ⟨rfl, rfl⟩ | ⟨rfl, rfl⟩ | ⟨rfl, rfl⟩ | ⟨rfl, rfl⟩
    case inr.inr.inr.inr => rcases hquote with rfl | rfl <;> rfl
    all_goals rfl
  · exact unquote_control hcontrol quote cs
  · exact unquote_cons hc hescape cs

theorem unquote_flatMap {quote : Char} (hquote : quote = '\'' ∨ quote = '"')
    (cs rest : List Char) :
    unquote quote (cs.flatMap (literalChar quote) ++ quote :: rest) = some (cs, rest) := by
  induction cs with
  | nil => rcases hquote with rfl | rfl <;> simp [unquote]
  | cons c cs ih =>
    rw [List.flatMap_cons, List.append_assoc, unquote_literalChar hquote, ih]
    rfl

/-- A text in quotes is read back behind its opening quote, whatever comes after it. -/
theorem exists_unquote_literal (text : String) (rest : List Char) :
    ∃ quote more, (quote = '\'' ∨ quote = '"') ∧ (literal text).toList ++ rest = quote :: more ∧
      unquote quote more = some (text.toList, rest) := by
  have hquote := literalQuote_eq text.toList
  refine ⟨_, _, hquote, ?_, unquote_flatMap hquote text.toList rest⟩
  rw [literal, String.toList_ofList, literalChars, List.cons_append, List.cons_append,
    List.append_assoc, List.singleton_append]

/-! ## Control characters -/

theorem isControl_eq_false_iff {c : Char} :
    isControl c = false ↔ 0x20 ≤ c.toNat ∧ (c.toNat < 0x7F ∨ 0xA0 ≤ c.toNat) := by
  simp only [isControl, Bool.or_eq_false_iff, Bool.and_eq_false_iff, decide_eq_false_iff_not]
  omega

theorem isControl_digitChar {k : Nat} (h : k < 16) : isControl (Nat.digitChar k) = false := by
  have hall : ∀ k < 16, isControl (Nat.digitChar k) = false := by decide
  exact hall k h

/-- No character is written with control characters. -/
theorem isControl_of_mem_literalChar {quote c d : Char} (hquote : quote = '\'' ∨ quote = '"')
    (h : d ∈ literalChar quote c) : isControl d = false := by
  rcases literalChar_cases quote c with
    ⟨e, he, hchars⟩ | ⟨hcontrol, hchars⟩ | ⟨-, -, hcontrol, hchars⟩ <;> rw [hchars] at h
  · have hescape : isControl e = false := by
      simp only [List.mem_cons, Prod.mk.injEq, List.not_mem_nil, or_false] at he
      rcases he with ⟨rfl, -⟩ | ⟨rfl, -⟩ | ⟨rfl, -⟩ | ⟨rfl, -⟩ | ⟨rfl, -⟩
      case inr.inr.inr.inr => rcases hquote with rfl | rfl <;> rfl
      all_goals rfl
    simp only [List.mem_cons, List.not_mem_nil, or_false] at h
    rcases h with rfl | rfl
    · rfl
    · exact hescape
  · simp only [List.mem_cons, List.not_mem_nil, or_false] at h
    rcases h with rfl | rfl | rfl | rfl
    · rfl
    · rfl
    · exact isControl_digitChar (div_lt_of_isControl hcontrol)
    · exact isControl_digitChar (Nat.mod_lt _ (by omega))
  · rw [List.mem_singleton.1 h]
    exact hcontrol

theorem isControl_of_mem_literal {text : String} {c : Char} (h : c ∈ (literal text).toList) :
    isControl c = false := by
  have hquote := literalQuote_eq text.toList
  have hquoteControl : isControl (literalQuote text.toList) = false := by
    rcases hquote with hquote | hquote <;> rw [hquote] <;> rfl
  rw [literal, String.toList_ofList, literalChars, List.cons_append, List.mem_cons,
    List.mem_append, List.mem_flatMap, List.mem_singleton] at h
  rcases h with rfl | ⟨d, -, hd⟩ | rfl
  · exact hquoteControl
  · exact isControl_of_mem_literalChar hquote hd
  · exact hquoteControl

/-- A string literal is read back as the text that it was written for. The literal ends where it was
written to end, whatever comes after it, and none of its characters is a control character. -/
theorem literal_read_back (text : String) (rest : List Char) :
    literalValue? ((literal text).toList ++ rest) = some (text.toList, rest) ∧
      ∀ c ∈ (literal text).toList, 0x20 ≤ c.toNat ∧ (c.toNat < 0x7F ∨ 0xA0 ≤ c.toNat) := by
  constructor
  · obtain ⟨quote, more, hquote, hchars, hread⟩ := exists_unquote_literal text rest
    rw [hchars, literalValue?, if_pos hquote, hread]
  · intro c hc
    exact isControl_eq_false_iff.1 (isControl_of_mem_literal hc)

/-- The digit behind the code of a control character is not read as part of the code. -/
theorem literal_read_back_delete :
    literal "it's\u007f0" = "\"it's\\x7f0\"" ∧
      literalValue? ("\"it's\\x7f0\"".toList ++ " + a".toList) =
        some ("it's\u007f0".toList, " + a".toList) ∧
      'f' ∈ "\"it's\\x7f0\"".toList ∧
      0x20 ≤ 'f'.toNat ∧ ('f'.toNat < 0x7F ∨ 0xA0 ≤ 'f'.toNat) := by
  have hliteral : literal "it's\u007f0" = "\"it's\\x7f0\"" := by decide +kernel
  have hmem : 'f' ∈ "\"it's\\x7f0\"".toList := by decide +kernel
  obtain ⟨hread, hcontrol⟩ := literal_read_back "it's\u007f0" " + a".toList
  rw [hliteral] at hread hcontrol
  exact ⟨hliteral, hread, hmem, hcontrol 'f' hmem⟩

end Text

end TypedSql
