import TypedSql.Proofs.Templates
import TypedSql.Text.Blank

/-!
# Enclosed SQL

A text is enclosed if nothing in it can group with what stands around it: all its parentheses match,
it has no comments, and outside its parentheses there are neither operators nor blanks. The one
blank that is allowed there is that of a literal of Postgres with its type in front.

Enclosed texts are primaries. A template makes an enclosed text from enclosed texts if it is enclosed
itself even with an operator in place of each reference, so that all of them stand in parentheses.
-/

namespace TypedSql.Lexer

/-! ## Parentheses -/

/-- By how much a token changes the depth of parentheses. -/
def Token.turn (t : Token) : Int :=
  match t.kind, t.text with
  | .char, ['('] => 1
  | .char, [')'] => -1
  | _, _ => 0

/-- The depth of parentheses behind tokens. -/
def depth : List Token → Int
  | [] => 0
  | t :: ts => t.turn + depth ts

theorem depth_cons (t : Token) (ts : List Token) : depth (t :: ts) = t.turn + depth ts := rfl

/-- The word that a token leaves behind, given the word before it. -/
def Token.extend (word : List Char) (t : Token) : List Char :=
  if t.kind = .char && t.text.all isWord then word ++ t.text else []

/-- The word at the end of tokens; it is empty behind anything but the characters of a word. -/
def wordBehind (ts : List Token) : List Char := ts.foldl Token.extend []

theorem Token.extend_of_turn_neg {t : Token} (h : t.turn < 0) (word : List Char) :
    t.extend word = [] := by
  unfold turn at h
  split at h
  · omega
  · rename_i hkind htext
    simp [extend, hkind, htext, isWord]
  · omega

/-! ## Enclosed texts -/

/-- Whether a token is complete and not a comment. -/
def Token.isClosed (t : Token) : Bool := t.kind ≠ .comment && t.kind ≠ .unclosed

/-- The characters that operators consist of; commas are counted among them if asked for. -/
def operatorChars (commas : Bool) : List Char :=
  ['+', '-', '*', '/', '|', '&', '#', '<', '>', '='] ++ if commas then [','] else []

/-- The types that Postgres has in front of literals. -/
def literalTypes : List (List Char) :=
  [['d', 'a', 't', 'e'], ['t', 'i', 'm', 'e', 's', 't', 'a', 'm', 'p']]

/-- Whether a token is the blank between the type and the text of a literal. -/
def isTyping (d : Dialect) (word : List Char) (t : Token) (after : List Token) : Bool :=
  d = .postgres && t.text = [' '] && literalTypes.contains word &&
    after.head?.any (·.kind = .string)

/-- Whether a token may stand outside parentheses, behind a word and in front of other tokens. -/
def isBare (d : Dialect) (commas : Bool) (word : List Char) (t : Token) (after : List Token) :
    Bool :=
  t.kind ≠ .char || !t.text.any (operatorChars commas).contains &&
    (!t.text.any Text.isBlank || isTyping d word t after)

/-- Whether nothing in a text can group with what stands around it. -/
structure IsEnclosed (d : Dialect) (commas : Bool) (text : List Char) : Prop where
  closed : ∀ t ∈ tokens d text, t.isClosed = true
  nonneg : ∀ before, before <+: tokens d text → 0 ≤ depth before
  balanced : depth (tokens d text) = 0
  bare : ∀ before t after, tokens d text = before ++ t :: after → depth before = 0 →
    isBare d commas (wordBehind before) t after = true

/-- Whether tokens are enclosed if they are read at the given depth and behind a word. -/
def encloses (d : Dialect) (commas : Bool) : Int → List Char → List Token → Bool
  | k, _, [] => k = 0
  | k, word, t :: ts => 0 ≤ k && t.isClosed && (k ≠ 0 || isBare d commas word t ts) &&
    encloses d commas (k + t.turn) (t.extend word) ts

variable {α β : Type} {d : Dialect} {commas : Bool} {m : Mode} {k j : Int} {word : List Char}
  {t : Token} {ts : List Token} {text : List Char}

theorem mem_operatorChars {c : Char} (h : c ∈ operatorChars commas) : c ∈ operatorChars true := by
  unfold operatorChars at h ⊢
  rcases List.mem_append.1 h with h | h
  · exact List.mem_append_left _ h
  · cases commas with
    | true => exact List.mem_append_right _ h
    | false => cases h

theorem encloses_nil_iff : encloses d commas k word [] = true ↔ k = 0 := by simp [encloses]

theorem encloses_cons_iff :
    encloses d commas k word (t :: ts) = true ↔
      0 ≤ k ∧ t.isClosed = true ∧ (k = 0 → isBare d commas word t ts = true) ∧
        encloses d commas (k + t.turn) (t.extend word) ts = true := by
  by_cases hk : k = 0
  · simp [encloses, hk, and_assoc]
  · simp [encloses, hk, and_assoc]

/-- What reading tokens one by one finds out about all of them. -/
theorem encloses_iff :
    encloses d commas k word ts = true ↔
      (∀ t ∈ ts, t.isClosed = true) ∧ (∀ before, before <+: ts → 0 ≤ k + depth before) ∧
      k + depth ts = 0 ∧
      ∀ before t after, ts = before ++ t :: after → k + depth before = 0 →
        isBare d commas (before.foldl Token.extend word) t after = true := by
  induction ts generalizing k word with
  | nil =>
    rw [encloses_nil_iff]
    constructor
    · rintro rfl
      simp [depth]
    · rintro ⟨-, -, hk, -⟩
      simpa [depth] using hk
  | cons t ts ih =>
    rw [encloses_cons_iff, ih, depth_cons]
    constructor
    · rintro ⟨hk, hclosed, hbare, hkinds, hnonneg, hzero, hrest⟩
      refine ⟨List.forall_mem_cons.2 ⟨hclosed, hkinds⟩, ?_, by omega, ?_⟩
      · intro before hbefore
        rcases List.prefix_cons_iff.1 hbefore with rfl | ⟨behind, rfl, hbehind⟩
        · simpa [depth] using hk
        · have hdepth := hnonneg behind hbehind
          rw [depth_cons]
          omega
      · intro before u after hsplit hdepth
        cases before with
        | nil =>
          cases hsplit
          exact hbare (by simpa [depth] using hdepth)
        | cons v before =>
          cases hsplit
          rw [depth_cons] at hdepth
          exact hrest before u after rfl (by omega)
    · rintro ⟨hkinds, hnonneg, hzero, hrest⟩
      refine ⟨?_, hkinds t List.mem_cons_self, ?_, ?_, ?_, by omega, ?_⟩
      · simpa [depth] using hnonneg [] List.nil_prefix
      · intro hk
        exact hrest [] t ts rfl (by simpa [depth] using hk)
      · exact fun u hu => hkinds u (List.mem_cons_of_mem _ hu)
      · intro before hbefore
        have hdepth := hnonneg (t :: before) (List.cons_prefix_cons.2 ⟨rfl, hbefore⟩)
        rw [depth_cons] at hdepth
        omega
      · intro before u after hsplit hdepth
        refine hrest (t :: before) u after (by rw [hsplit]; rfl) ?_
        rw [depth_cons]
        omega

theorem isEnclosed_iff :
    IsEnclosed d commas text ↔ encloses d commas 0 [] (tokens d text) = true := by
  rw [encloses_iff]
  simp only [Int.zero_add]
  constructor
  · intro h
    exact ⟨h.closed, h.nonneg, h.balanced, h.bare⟩
  · rintro ⟨hclosed, hnonneg, hbalanced, hbare⟩
    exact ⟨hclosed, hnonneg, hbalanced, hbare⟩

instance : Decidable (IsEnclosed d commas text) := decidable_of_iff _ isEnclosed_iff.symm

/-! ## Enclosed texts are primaries -/

theorem exists_comment_of_line (text cs : List Char) :
    ∃ t ∈ scan d (.line text) cs, t.kind = .comment := by
  induction cs generalizing text with
  | nil => exact ⟨⟨.comment, text⟩, List.mem_singleton.2 rfl, rfl⟩
  | cons c cs ih =>
    rw [scan_cons]
    by_cases hc : c = '\n'
    · refine ⟨⟨.comment, text⟩, List.mem_append_left _ ?_, rfl⟩
      simp [step, hc, resume]
    · obtain ⟨t, ht, hkind⟩ := ih (text ++ [c])
      refine ⟨t, List.mem_append_right _ ?_, hkind⟩
      simpa [step, hc] using ht

/-- A minus sign at the start is a token of its own, unless it begins a comment. -/
theorem tokens_minus (cs : List Char) :
    (∃ t ∈ tokens d ('-' :: cs), t.kind = .comment) ∨
      ∃ after, tokens d ('-' :: cs) = ⟨.char, ['-']⟩ :: after := by
  have hmark : tokens d ('-' :: cs) = scan d (.mark '-') cs := by
    rw [tokens, scan_cons]
    simp [step, start]
  rw [hmark]
  cases cs with
  | nil => exact Or.inr ⟨[], rfl⟩
  | cons c cs =>
    rw [scan_cons]
    by_cases hc : c = '-'
    · left
      simpa [step, hc] using exists_comment_of_line ['-', '-'] cs
    · right
      simp [step, hc, resume]

theorem exists_mem_flush_of_not_settled (hm : m.isSettled = false) :
    ∃ t ∈ flush m, t.isClosed = false := by
  cases m with
  | line text => exact ⟨⟨.comment, text⟩, List.mem_singleton.2 rfl, rfl⟩
  | literal escapes text => exact ⟨⟨.unclosed, text⟩, List.mem_singleton.2 rfl, rfl⟩
  | backslash text => exact ⟨⟨.unclosed, text⟩, List.mem_singleton.2 rfl, rfl⟩
  | name text => exact ⟨⟨.unclosed, text⟩, List.mem_singleton.2 rfl, rfl⟩
  | block text => exact ⟨⟨.unclosed, text⟩, List.mem_singleton.2 rfl, rfl⟩
  | star text => exact ⟨⟨.unclosed, text⟩, List.mem_singleton.2 rfl, rfl⟩
  | _ => cases hm

theorem IsEnclosed.isPrimary (h : IsEnclosed d commas text) : IsPrimary d text := by
  refine isPrimary_of_settled ?_ ?_
  · intro hhead
    cases text with
    | nil => cases hhead
    | cons c cs =>
      cases hhead
      rcases tokens_minus cs with ⟨t, ht, hkind⟩ | ⟨after, hafter⟩
      · have hclosed := h.closed t ht
        simp [Token.isClosed, hkind] at hclosed
      · have hbare := h.bare [] _ after hafter rfl
        simp [isBare, operatorChars] at hbare
  · by_contra hsettled
    obtain ⟨t, ht, hopen⟩ := exists_mem_flush_of_not_settled (Bool.eq_false_iff.2 hsettled)
    have hclosed := h.closed t (List.mem_append_right _ ht)
    rw [hopen] at hclosed
    cases hclosed

/-! ## Literals, names and plain text -/

theorem Token.turn_of_kind_ne (h : t.kind ≠ .char) : t.turn = 0 := by
  unfold turn
  split
  · rename_i hkind _
    exact absurd hkind h
  · rename_i hkind _
    exact absurd hkind h
  · rfl

theorem isEnclosed_of_tokens_eq (htokens : tokens d text = [t])
    (hkind : t.kind = .string ∨ t.kind = .identifier) : IsEnclosed d commas text := by
  have hne : t.kind ≠ .char := by
    rcases hkind with hkind | hkind <;> simp [hkind]
  have hclosed : t.isClosed = true := by
    rcases hkind with hkind | hkind <;> simp [Token.isClosed, hkind]
  rw [isEnclosed_iff, htokens, encloses_cons_iff, encloses_nil_iff, t.turn_of_kind_ne hne]
  exact ⟨Int.le_refl 0, hclosed, fun _ => by simp [isBare, hne], rfl⟩

theorem isEnclosed_quoteChars (cs : List Char) : IsEnclosed d commas (d.quoteChars cs) :=
  isEnclosed_of_tokens_eq (tokens_quoteChars d cs) (Or.inl rfl)

theorem isEnclosed_identifierChars (cs : List Char) :
    IsEnclosed d commas (identifierChars cs) :=
  isEnclosed_of_tokens_eq (tokens_identifierChars cs) (Or.inr rfl)

/-- Whether a character is a token of its own that may stand anywhere. -/
def isHarmless (c : Char) : Bool :=
  isOrdinary c && c ≠ '(' && c ≠ ')' && !(operatorChars true).contains c && !Text.isBlank c

theorem encloses_harmless {cs : List Char} (hcs : ∀ c ∈ cs, isHarmless c = true) :
    encloses d commas 0 word (cs.map fun c => ⟨.char, [c]⟩) = true := by
  induction cs generalizing word with
  | nil => rfl
  | cons c cs ih =>
    have hc := hcs c List.mem_cons_self
    simp only [isHarmless, Bool.and_eq_true, decide_eq_true_eq, Bool.not_eq_true',
      List.contains_eq_mem, decide_eq_false_iff_not] at hc
    obtain ⟨⟨⟨⟨-, hopen⟩, hclose⟩, hoperator⟩, hblank⟩ := hc
    have hturn : Token.turn ⟨.char, [c]⟩ = 0 := by
      unfold Token.turn
      split <;> simp_all
    have hbare : ∀ ts, isBare d commas word ⟨.char, [c]⟩ ts = true := by
      intro ts
      have hmem : c ∉ operatorChars commas := fun hmem => hoperator (mem_operatorChars hmem)
      simp [isBare, hblank, hmem]
    rw [List.map_cons, encloses_cons_iff, hturn]
    exact ⟨Int.le_refl 0, rfl, fun _ => hbare _, ih fun c hc => hcs c (List.mem_cons_of_mem _ hc)⟩

theorem isEnclosed_harmless {cs : List Char} (hcs : ∀ c ∈ cs, isHarmless c = true) :
    IsEnclosed d commas cs := by
  have hordinary : ∀ c ∈ cs, isOrdinary c = true := by
    intro c hc
    have hharmless := hcs c hc
    simp only [isHarmless, Bool.and_eq_true] at hharmless
    exact hharmless.1.1.1.1
  rw [isEnclosed_iff, tokens, scan_ordinary hordinary]
  exact encloses_harmless hcs

/-! ## Inside parentheses -/

/-- In parentheses it does not matter which word stands before. -/
theorem encloses_of_pos (hk : 0 < k) (word' : List Char)
    (h : encloses d commas k word ts = true) : encloses d commas k word' ts = true := by
  induction ts generalizing k word word' with
  | nil => rwa [encloses_nil_iff] at h ⊢
  | cons t ts ih =>
    rw [encloses_cons_iff] at h ⊢
    obtain ⟨hnonneg, hclosed, -, htail⟩ := h
    refine ⟨hnonneg, hclosed, fun hzero => by omega, ?_⟩
    -- the parentheses are left by a closing one only, and that ends every word
    by_cases hturn : t.turn < 0
    · rw [t.extend_of_turn_neg hturn] at htail ⊢
      exact htail
    · exact ih (by omega) _ htail

/-- Enclosed tokens in parentheses do not matter for what follows. -/
theorem encloses_append {rest : List Token} (hts : encloses d commas k word ts = true) (hj : 0 < j)
    (word' : List Char) (hrest : encloses d commas j [] rest = true) :
    encloses d commas (k + j) word' (ts ++ rest) = true := by
  induction ts generalizing k word word' with
  | nil =>
    rw [encloses_nil_iff] at hts
    rw [hts, Int.zero_add]
    exact encloses_of_pos hj word' hrest
  | cons t ts ih =>
    rw [encloses_cons_iff] at hts
    obtain ⟨hnonneg, hclosed, -, htail⟩ := hts
    rw [List.cons_append, encloses_cons_iff]
    -- the depth stays positive, so no token has to be one that may stand outside
    refine ⟨by omega, hclosed, fun hzero => by omega, ?_⟩
    have hdepth : k + j + t.turn = k + t.turn + j := by omega
    rw [hdepth]
    exact ih htail _

/-! ## Templates -/

/-- A token that may stand in parentheses only. -/
def plus : Token := ⟨.char, ['+']⟩

theorem encloses_plus_iff :
    encloses d commas k word (plus :: ts) = true ↔ 0 < k ∧ encloses d commas k [] ts = true := by
  have hbare : isBare d commas word plus ts = false := by simp [isBare, plus, operatorChars]
  have hextend : plus.extend word = [] := by simp [Token.extend, plus, isWord]
  have hturn : plus.turn = 0 := rfl
  rw [encloses_cons_iff, hbare, hextend, hturn, Int.add_zero]
  constructor
  · rintro ⟨hnonneg, -, hzero, htail⟩
    have hne : k ≠ 0 := fun hk => Bool.false_ne_true (hzero hk)
    exact ⟨by omega, htail⟩
  · rintro ⟨hpos, htail⟩
    exact ⟨by omega, rfl, fun hk => by omega, htail⟩

/-- The tokens of a template, with an operator in place of each reference. -/
def operatorTokens (d : Dialect) (m : Mode) (xs : List (Char ⊕ α)) : List Token :=
  fillWith (fun _ => [plus]) (weave d m xs)

/-- Whether a template is nothing but a reference. -/
def isReference : List (Char ⊕ α) → Bool
  | [.inr _] => true
  | _ => false

theorem exists_eq_of_isReference {xs : List (Char ⊕ α)} (h : isReference xs = true) :
    ∃ a, xs = [.inr a] := by
  unfold isReference at h
  split at h
  · exact ⟨_, rfl⟩
  · cases h

/-- Whether enclosed texts that are filled into a template make an enclosed text. -/
def isEnclosing (d : Dialect) (commas : Bool) (xs : List (Char ⊕ α)) : Bool :=
  isReference xs || encloses d commas 0 [] (operatorTokens d (.plain false) xs)

/-- A literal that follows a blank does so whatever is filled in. -/
theorem isBare_fillWith {xs : List (Token ⊕ α)} {f : α → List Token}
    (h : isBare d commas word t (fillWith (fun _ => [plus]) xs) = true) :
    isBare d commas word t (fillWith f xs) = true := by
  cases xs with
  | nil => exact h
  | cons x xs =>
    cases x with
    | inl u => exact h
    | inr a =>
      have htyping : isTyping d word t (fillWith (fun _ => [plus]) (.inr a :: xs)) = false := by
        simp [isTyping, plus]
      rw [isBare, htyping, Bool.or_false] at h
      simp only [isBare, Bool.or_eq_true, Bool.and_eq_true] at h ⊢
      rcases h with hkind | ⟨hoperator, hblank⟩
      · exact Or.inl hkind
      · exact Or.inr ⟨hoperator, Or.inl hblank⟩

theorem encloses_fillWith {xs : List (Token ⊕ α)} {f : α → List Token}
    (hxs : encloses d commas k word (fillWith (fun _ => [plus]) xs) = true)
    (hf : ∀ a, .inr a ∈ xs → encloses d commas 0 [] (f a) = true) :
    encloses d commas k word (fillWith f xs) = true := by
  induction xs generalizing k word with
  | nil => exact hxs
  | cons x xs ih =>
    have hrest : ∀ a, .inr a ∈ xs → encloses d commas 0 [] (f a) = true :=
      fun a ha => hf a (List.mem_cons_of_mem _ ha)
    cases x with
    | inl t =>
      rw [fillWith_inl, encloses_cons_iff] at hxs ⊢
      obtain ⟨hnonneg, hclosed, hbare, htail⟩ := hxs
      exact ⟨hnonneg, hclosed, fun hk => isBare_fillWith (hbare hk), ih htail hrest⟩
    | inr a =>
      -- an operator was accepted here, so the operand is read in parentheses
      rw [fillWith_inr, List.singleton_append, encloses_plus_iff] at hxs
      obtain ⟨hpos, htail⟩ := hxs
      have hoperand := encloses_append (hf a List.mem_cons_self) hpos word (ih htail hrest)
      rwa [Int.zero_add] at hoperand

/-- Enclosed texts that are filled into an enclosing template make an enclosed text. -/
theorem isEnclosed_fillWith {xs : List (Char ⊕ α)} {texts : α → List Char}
    (hsound : isSound d xs = true) (hxs : isEnclosing d commas xs = true)
    (htexts : ∀ a, .inr a ∈ xs → IsEnclosed d commas (texts a)) :
    IsEnclosed d commas (fillWith texts xs) := by
  rw [isEnclosing, Bool.or_eq_true] at hxs
  rcases hxs with hreference | hencloses
  · obtain ⟨a, rfl⟩ := exists_eq_of_isReference hreference
    simpa using htexts a List.mem_cons_self
  · rw [isEnclosed_iff, tokens_fillWith hsound fun a ha => (htexts a ha).isPrimary]
    refine encloses_fillWith hencloses fun a ha => ?_
    exact isEnclosed_iff.1 (htexts a (mem_of_inr_mem_weave ha))

/-! ## Putting templates together -/

theorem weave_map (f : α → β) (m : Mode) (xs : List (Char ⊕ α)) :
    weave d m (xs.map (Sum.map id f)) = (weave d m xs).map (Sum.map id f) := by
  induction xs generalizing m with
  | nil => simp [weave]
  | cons x xs ih => cases x <;> simp [weave, ih]

theorem operatorTokens_map (f : α → β) (m : Mode) (xs : List (Char ⊕ α)) :
    operatorTokens d m (xs.map (Sum.map id f)) = operatorTokens d m xs := by
  rw [operatorTokens, operatorTokens, weave_map]
  induction weave d m xs with
  | nil => rfl
  | cons x xs ih => cases x <;> simpa using ih

/-- Whether a template is enclosing does not depend on what its references refer to. -/
theorem isEnclosing_map (f : α → β) (xs : List (Char ⊕ α)) :
    isEnclosing d commas (xs.map (Sum.map id f)) = isEnclosing d commas xs := by
  have hreference : isReference (xs.map (Sum.map id f)) = isReference xs := by
    match xs with
    | [] => rfl
    | [.inl _] => rfl
    | [.inr _] => rfl
    | .inl _ :: _ :: _ => rfl
    | .inr _ :: _ :: _ => rfl
  rw [isEnclosing, isEnclosing, hreference, operatorTokens_map]

theorem operatorTokens_map_inl (m : Mode) (cs : List Char) (xs : List (Char ⊕ α)) :
    operatorTokens d m (cs.map .inl ++ xs) =
      (run d m cs).1 ++ operatorTokens d (run d m cs).2 xs := by
  unfold operatorTokens
  induction cs generalizing m with
  | nil => rfl
  | cons c cs ih => simp [weave, run, ih]

/-- The tokens of a template that fits do not depend on what follows, if it begins with a character
that may follow an operand. -/
theorem operatorTokens_append {xs ys : List (Char ⊕ α)} {c : Char} (hxs : fits d m xs = true)
    (hc : isStop c = true) :
    operatorTokens d m (xs ++ .inl c :: ys) =
      operatorTokens d m xs ++ operatorTokens d (.plain false) (.inl c :: ys) := by
  unfold operatorTokens
  induction xs generalizing m with
  | nil =>
    have hstart : step d (.plain false) c = ([⟨.char, [c]⟩], .plain false) := step_stop rfl hc
    rw [fits] at hxs
    simp [weave, step_stop hxs hc, hstart]
  | cons x xs ih =>
    cases x with
    | inl x =>
      have hrest := ih hxs
      simp only [List.cons_append, weave, fillWith_append] at hrest ⊢
      rw [hrest, List.append_assoc]
    | inr a =>
      simp only [fits, Bool.and_eq_true] at hxs
      have hrest := ih hxs.2
      simp only [List.cons_append, weave, fillWith_append, fillWith_inr] at hrest ⊢
      rw [hrest]
      simp

theorem encloses_operatorTokens_append {xs : List (Char ⊕ α)} {rest : List Token}
    (hxs : isEnclosing d commas xs = true) (hk : 0 < k) (word : List Char)
    (hrest : encloses d commas k [] rest = true) :
    encloses d commas k word (operatorTokens d (.plain false) xs ++ rest) = true := by
  rw [isEnclosing, Bool.or_eq_true] at hxs
  rcases hxs with hreference | hencloses
  · obtain ⟨a, rfl⟩ := exists_eq_of_isReference hreference
    exact encloses_plus_iff.2 ⟨hk, hrest⟩
  · have happend := encloses_append hencloses hk word hrest
    rwa [Int.zero_add] at happend

/-- Texts that are enclosed with commas among the operators are enclosed without. -/
theorem encloses_of_commas (h : encloses d true k word ts = true) :
    encloses d commas k word ts = true := by
  induction ts generalizing k word with
  | nil => exact h
  | cons t ts ih =>
    rw [encloses_cons_iff] at h ⊢
    obtain ⟨hnonneg, hclosed, hbare, htail⟩ := h
    refine ⟨hnonneg, hclosed, fun hk => ?_, ih htail⟩
    have hbare := hbare hk
    simp only [isBare, Bool.or_eq_true, Bool.and_eq_true, Bool.not_eq_true',
      List.any_eq_false, List.contains_iff_mem] at hbare ⊢
    rcases hbare with hkind | ⟨hoperator, hblank⟩
    · exact Or.inl hkind
    · exact Or.inr ⟨fun c hc hmem => hoperator c hc (mem_operatorChars hmem), hblank⟩

theorem isEnclosing_of_commas {xs : List (Char ⊕ α)} (h : isEnclosing d true xs = true) :
    isEnclosing d commas xs = true := by
  rw [isEnclosing, Bool.or_eq_true] at h ⊢
  exact h.imp_right encloses_of_commas

end TypedSql.Lexer
