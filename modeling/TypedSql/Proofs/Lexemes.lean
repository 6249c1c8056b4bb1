import TypedSql.Expr.Equality
import TypedSql.Expr.Source
import TypedSql.Proofs.ReadBack
import TypedSql.Proofs.StringLiterals

/-!
# The lexemes of source text

Source text consists of lexemes: the marks around and between operands, words, numerals, string
literals and moments in time. `next` splits off the first lexeme of a text. Every lexeme that is
written in front of a text that does not go on with it is split off again, and constants that show
their value and are written as the same lexeme have the same value.
-/

namespace TypedSql

/-! ## Marks -/

/-- The characters of an operator's symbol, listed so that texts compute. -/
def UnaryOp.symbolChars : UnaryOp → List Char
  | not => ['n', 'o', 't', ' ']
  | neg => ['-']
  | bitNot => ['~']

/-- The characters of an operator's symbol, listed so that texts compute. -/
def BinaryOp.symbolChars : BinaryOp → List Char
  | add => ['+']
  | sub => ['-']
  | mul => ['*']
  | trueDiv => ['/']
  | floorDiv => ['/', '/']
  | mod => ['%']
  | eq => ['=', '=']
  | ne => ['!', '=']
  | lt => ['<']
  | le => ['<', '=']
  | gt => ['>']
  | ge => ['>', '=']
  | and => ['a', 'n', 'd']
  | or => ['o', 'r']
  | contains => ['i', 'n']
  | notContains => ['n', 'o', 't', ' ', 'i', 'n']
  | is => ['i', 's']
  | isNot => ['i', 's', ' ', 'n', 'o', 't']
  | item => ['[', ']']
  | bitAnd => ['&']
  | bitOr => ['|']
  | bitXor => ['^']
  | shiftLeft => ['<', '<']
  | shiftRight => ['>', '>']

@[simp] theorem UnaryOp.toList_symbol (op : UnaryOp) : op.symbol.toList = op.symbolChars := by
  cases op <;> exact String.toList_ofList

@[simp] theorem BinaryOp.toList_symbol (op : BinaryOp) : op.symbol.toList = op.symbolChars := by
  cases op <;> exact String.toList_ofList

namespace Source

/-- A lexeme of fixed spelling. Item access is written with two marks, and the inverted identity
test as the identity test followed by a negation. -/
inductive Mark where
  | unary (op : UnaryOp)
  | binary (op : BinaryOp)
  | when
  | otherwise
  | opening
  | closing
  | openItem
  | closeItem
  | comma
  | dot
  deriving DecidableEq

namespace Mark

/-- The spelling of a mark, with the blanks around it. -/
def chars : Mark → List Char
  | unary op => op.symbolChars
  | binary op => ' ' :: op.symbolChars ++ [' ']
  | when => [' ', 'i', 'f', ' ']
  | otherwise => [' ', 'e', 'l', 's', 'e', ' ']
  | opening => ['(']
  | closing => [')']
  | openItem => ['[']
  | closeItem => [']']
  | comma => [',', ' ']
  | dot => ['.']

/-- All marks. -/
def all : List Mark :=
  UnaryOp.all.map unary ++ (BinaryOp.all.filter fun op => op ≠ .item ∧ op ≠ .isNot).map binary ++
    [when, otherwise, opening, closing, openItem, closeItem, comma, dot]

/-- The mark that a text begins with. -/
def first? (cs : List Char) : Option Mark := all.find? fun m => m.chars.isPrefixOf cs

theorem unary_mem_all (op : UnaryOp) : unary op ∈ all := by
  cases op <;> decide

theorem binary_mem_all {op : BinaryOp} (hitem : op ≠ .item) (hnot : op ≠ .isNot) :
    binary op ∈ all := by
  cases op <;> first | decide | contradiction

/-- No mark begins with another one. -/
theorem eq_of_isPrefixOf :
    ∀ k ∈ all, ∀ m ∈ all, k.chars.isPrefixOf m.chars = true → k = m := by
  decide +kernel

theorem first?_chars {m : Mark} (hm : m ∈ all) (rest : List Char) :
    first? (m.chars ++ rest) = some m := by
  have hfront : m.chars.isPrefixOf (m.chars ++ rest) = true :=
    List.isPrefixOf_iff_prefix.2 (List.prefix_append _ _)
  cases hfirst : first? (m.chars ++ rest) with
  | none => exact absurd hfront (List.find?_eq_none.1 hfirst m hm)
  | some k =>
    have hk : k ∈ all := List.mem_of_find?_eq_some hfirst
    have hkfront := List.isPrefixOf_iff_prefix.1 (List.find?_eq_some_iff_append.1 hfirst).1
    rcases List.prefix_or_prefix_of_prefix hkfront (List.prefix_append m.chars rest) with h | h
    · rw [eq_of_isPrefixOf k hk m hm (List.isPrefixOf_iff_prefix.2 h)]
    · rw [eq_of_isPrefixOf m hm k hk (List.isPrefixOf_iff_prefix.2 h)]

end Mark

/-! ## Splitting off lexemes -/

/-- Whether a character can begin a word. -/
def isWordStart (c : Char) : Bool := c.isAlpha || c = '_'

/-- Whether a character can be part of a word. -/
def isWordChar (c : Char) : Bool := c.isAlphanum || c = '_'

/-- Whether a character can begin a constant that is not a word. -/
def isConstantStart (c : Char) : Bool := c.isDigit || c = '\'' || c = '"' || c = '@'

/-- A lexeme of source text. -/
inductive Lexeme where
  | mark (m : Mark)
  | word (text : String)
  | numeral (text : String)
  /-- A string literal, given as the text that it stands for. -/
  | string (value : String)
  /-- A date or a moment, given as the text in its parentheses. -/
  | moment (text : String)
  deriving DecidableEq

/-- Splits off the leading characters with a property. -/
def splitWhile (p : Char → Bool) (cs : List Char) : List Char × List Char :=
  (cs.takeWhile p, cs.dropWhile p)

/-- Splits off a numeral. A point belongs to it if a digit follows. -/
def splitNumeral (cs : List Char) : List Char × List Char :=
  let (whole, rest) := splitWhile Char.isDigit cs
  match rest with
  | '.' :: d :: more =>
    if d.isDigit then
      let (places, rest) := splitWhile Char.isDigit (d :: more)
      (whole ++ '.' :: places, rest)
    else (whole, rest)
  | _ => (whole, rest)

/-- Splits off a lexeme that begins with a character and is not a mark. -/
def nextUnmarked (c : Char) (rest : List Char) : Option (Lexeme × List Char) :=
  if isWordStart c then
    let (word, rest) := splitWhile isWordChar (c :: rest)
    some (.word (String.ofList word), rest)
  else if c.isDigit then
    let (numeral, rest) := splitNumeral (c :: rest)
    some (.numeral (String.ofList numeral), rest)
  else if c = '@' then
    let (moment, rest) := splitWhile (· != ')') rest.tail
    some (.moment (String.ofList moment), rest.tail)
  else if c = '\'' ∨ c = '"' then
    (Text.unquote c rest).map (Prod.map (fun value => .string (String.ofList value)) id)
  else none

/-- Splits off the first lexeme of a text. -/
def next (cs : List Char) : Option (Lexeme × List Char) :=
  match Mark.first? cs, cs with
  | some m, _ => some (.mark m, cs.drop m.chars.length)
  | none, [] => none
  | none, c :: rest => nextUnmarked c rest

theorem next_mark {m : Mark} (hm : m ∈ Mark.all) (rest : List Char) :
    next (m.chars ++ rest) = some (.mark m, rest) := by
  simp [next, Mark.first?_chars hm]

/-- How marks begin: a negation is the only one that looks like a word, and none looks like a
constant. -/
theorem Mark.head_chars : ∀ m ∈ Mark.all, m.chars.head?.any (fun c =>
    !isConstantStart c && (!isWordStart c || m = .unary .not)) = true := by
  decide +kernel

theorem Mark.of_first?_cons {c : Char} {cs : List Char} {m : Mark}
    (h : Mark.first? (c :: cs) = some m) :
    isConstantStart c = false ∧ (isWordStart c = true → m = .unary .not) := by
  have hany := head_chars m (List.mem_of_find?_eq_some h)
  have hfront := List.isPrefixOf_iff_prefix.1 (List.find?_eq_some_iff_append.1 h).1
  cases hchars : m.chars with
  | nil =>
    rw [hchars] at hany
    cases hany
  | cons k ks =>
    rw [hchars] at hany hfront
    have hk : k = c := (List.cons_prefix_cons.1 hfront).1
    subst hk
    simpa [imp_iff_not_or] using hany

theorem next_cons_of_isConstantStart {c : Char} (h : isConstantStart c = true) (rest : List Char) :
    next (c :: rest) = nextUnmarked c rest := by
  have hfirst : Mark.first? (c :: rest) = none := by
    cases hfirst : Mark.first? (c :: rest) with
    | none => rfl
    | some m =>
      have hstart := (Mark.of_first?_cons hfirst).1
      rw [h] at hstart
      cases hstart
  simp [next, hfirst]

/-! ## Words -/

theorem splitWhile_append {p : Char → Bool} {body rest : List Char}
    (hbody : ∀ c ∈ body, p c = true) (hrest : ∀ c ∈ rest.head?, p c = false) :
    splitWhile p (body ++ rest) = (body, rest) := by
  have hstop : rest.takeWhile p = [] ∧ rest.dropWhile p = rest := by
    cases rest with
    | nil => exact ⟨rfl, rfl⟩
    | cons c rest => simp [hrest c rfl]
  rw [splitWhile, List.takeWhile_append_of_pos hbody, List.dropWhile_append_of_pos hbody, hstop.1,
    hstop.2, List.append_nil]

/-- Whether a text is an identifier. -/
def isIdentifier : List Char → Bool
  | [] => false
  | c :: cs => isWordStart c && cs.all isWordChar

theorem isWordChar_of_isWordStart {c : Char} (h : isWordStart c = true) : isWordChar c = true := by
  simp only [isWordStart, isWordChar, Char.isAlphanum, Bool.or_eq_true] at h ⊢
  tauto

/-- Whether a text does not go on with a word that stands in front of it. -/
def EndsWord (cs : List Char) : Prop := ∀ c ∈ cs.head?, isWordChar c = false

/-- Only a negation is not read as the word that it begins with. -/
theorem next_word {word : String} {rest : List Char} (hword : isIdentifier word.toList = true)
    (hnot : word ≠ "not") (hrest : EndsWord rest) :
    next (word.toList ++ rest) = some (.word word, rest) := by
  cases hchars : word.toList with
  | nil =>
    rw [hchars] at hword
    cases hword
  | cons c cs =>
    rw [hchars, isIdentifier, Bool.and_eq_true, List.all_eq_true] at hword
    have hall : ∀ k ∈ c :: cs, isWordChar k = true := by
      simpa [isWordChar_of_isWordStart hword.1] using hword.2
    have hsplit : splitWhile isWordChar (c :: cs ++ rest) = (c :: cs, rest) :=
      splitWhile_append hall hrest
    have hfirst : Mark.first? (c :: cs ++ rest) = none := by
      cases hfirst : Mark.first? (c :: cs ++ rest) with
      | none => rfl
      | some m =>
        have hm : m = .unary .not := (Mark.of_first?_cons hfirst).2 hword.1
        subst hm
        obtain ⟨more, hmore⟩ :=
          List.isPrefixOf_iff_prefix.1 (List.find?_eq_some_iff_append.1 hfirst).1
        have hspelling : (Mark.unary .not).chars = ['n', 'o', 't'] ++ [' '] := rfl
        have hnotSplit : splitWhile isWordChar (['n', 'o', 't'] ++ ' ' :: more) =
            (['n', 'o', 't'], ' ' :: more) :=
          splitWhile_append (List.all_eq_true.1 rfl) (by simp [isWordChar])
        rw [hspelling, List.append_assoc, List.singleton_append] at hmore
        rw [hmore, hsplit] at hnotSplit
        have hword : word.toList = "not".toList := by
          rw [hchars, String.toList_ofList]
          exact congrArg Prod.fst hnotSplit
        exact absurd (String.toList_injective hword) hnot
    rw [List.cons_append] at hfirst hsplit ⊢
    simp [next, hfirst, nextUnmarked, hword.1, hsplit, ← hchars]

/-! ## Numerals -/

/-- Whether a text does not go on with a word or a numeral that stands in front of it. -/
def Ends (cs : List Char) : Prop :=
  ∀ c ∈ cs.head?, isWordChar c = false ∧ (c = '.' → ∀ d ∈ cs.tail.head?, d.isDigit = false)

theorem Ends.endsWord {cs : List Char} (h : Ends cs) : EndsWord cs := fun c hc => (h c hc).1

theorem isWordStart_of_isDigit {c : Char} (h : c.isDigit = true) : isWordStart c = false := by
  have hdigit : c.toNat ≤ 57 := UInt32.le_iff_toNat_le.1 (of_decide_eq_true
    (Bool.and_eq_true_iff.1 h).2)
  rw [← Bool.not_eq_true, isWordStart, Bool.or_eq_true]
  rintro (halpha | hunderscore)
  · rcases Bool.or_eq_true_iff.1 halpha with hupper | hlower
    · have hlow : 65 ≤ c.toNat := UInt32.le_iff_toNat_le.1 (of_decide_eq_true hupper).1
      omega
    · have hlow : 97 ≤ c.toNat := UInt32.le_iff_toNat_le.1 (of_decide_eq_true
        (Bool.and_eq_true_iff.1 hlower).1)
      omega
  · cases of_decide_eq_true hunderscore
    cases h

theorem isWordChar_of_isDigit {c : Char} (h : c.isDigit = true) : isWordChar c = true := by
  simp [isWordChar, Char.isAlphanum, h]

theorem Ends.endsDigits {rest : List Char} (h : Ends rest) :
    ∀ c ∈ rest.head?, c.isDigit = false := by
  intro c hc
  rw [← Bool.not_eq_true]
  intro hdigit
  have hchar := (h c hc).1
  rw [isWordChar_of_isDigit hdigit] at hchar
  cases hchar

theorem splitNumeral_whole {digits rest : List Char} (hdigits : ∀ c ∈ digits, c.isDigit = true)
    (hrest : Ends rest) : splitNumeral (digits ++ rest) = (digits, rest) := by
  rw [splitNumeral, splitWhile_append hdigits hrest.endsDigits]
  match rest, hrest with
  | [], _ => rfl
  | [c], _ => simp
  | c :: d :: more, hrest =>
    by_cases hc : c = '.'
    · subst hc
      have hd : d.isDigit = false := (hrest '.' rfl).2 rfl d rfl
      simp [hd]
    · simp [hc]

theorem splitNumeral_places {digits places rest : List Char}
    (hdigits : ∀ c ∈ digits, c.isDigit = true) (hplaces : ∀ c ∈ places, c.isDigit = true)
    (hne : places ≠ []) (hrest : Ends rest) :
    splitNumeral (digits ++ '.' :: places ++ rest) = (digits ++ '.' :: places, rest) := by
  rw [List.append_assoc, List.cons_append, splitNumeral, splitWhile_append hdigits (by simp)]
  cases places with
  | nil => exact absurd rfl hne
  | cons d places =>
    have hd : d.isDigit = true := hplaces d List.mem_cons_self
    have hsplit := splitWhile_append hplaces hrest.endsDigits
    rw [List.cons_append] at hsplit
    simp [hd, hsplit]

theorem next_numeral {numeral : String} {rest : List Char}
    (hhead : ∃ c ∈ numeral.toList.head?, c.isDigit = true)
    (hsplit : splitNumeral (numeral.toList ++ rest) = (numeral.toList, rest)) :
    next (numeral.toList ++ rest) = some (.numeral numeral, rest) := by
  cases hchars : numeral.toList with
  | nil => simp [hchars] at hhead
  | cons c cs =>
    have hc : c.isDigit = true := by simpa [hchars] using hhead
    rw [hchars, List.cons_append] at hsplit
    rw [List.cons_append, next_cons_of_isConstantStart (by simp [isConstantStart, hc])]
    simp [nextUnmarked, isWordStart_of_isDigit hc, hc, hsplit, ← hchars]

/-! ## Moments and strings -/

theorem next_moment {moment : String} (h : ')' ∉ moment.toList) (rest : List Char) :
    next ('@' :: '(' :: moment.toList ++ ')' :: rest) = some (.moment moment, rest) := by
  have hsplit : splitWhile (· != ')') (moment.toList ++ ')' :: rest) =
      (moment.toList, ')' :: rest) := by
    refine splitWhile_append (fun c hc => ?_) (by simp)
    rw [bne_iff_ne]
    rintro rfl
    exact h hc
  rw [List.cons_append, List.cons_append, next_cons_of_isConstantStart rfl]
  simp [nextUnmarked, isWordStart, hsplit]

theorem next_string (text : String) (rest : List Char) :
    next ((Text.literal text).toList ++ rest) = some (.string text, rest) := by
  obtain ⟨quote, more, hquote, hchars, hread⟩ := Text.exists_unquote_literal text rest
  have hstart : isConstantStart quote = true := by rcases hquote with rfl | rfl <;> rfl
  have hunmarked : nextUnmarked quote more = (Text.unquote quote more).map
      (Prod.map (fun value => .string (String.ofList value)) id) := by
    rcases hquote with rfl | rfl <;> rfl
  rw [hchars, next_cons_of_isConstantStart hstart, hunmarked, hread]
  simp

end Source

namespace Constant

/-! ## Constants -/

/-- Whether a constant can be told from its text: a number has no sign, as a zero may have it too,
and a moment is one at which a second begins. -/
def IsLegible : Constant → Prop
  | int n => 0 ≤ n.toInt
  | number d => d.negative = false
  | dateTime t => t.IsWhole
  | _ => True

/-- The lexeme that a legible constant is written as. -/
def lexeme (c : Constant) : Source.Lexeme :=
  match c with
  | null => .word c.source
  | bool _ => .word c.source
  | int _ => .numeral c.source
  | number _ => .numeral c.source
  | str s => .string s
  | date d => .moment d.text
  | dateTime t => .moment t.text

theorem toList_source_int {n : Int64} (h : 0 ≤ n.toInt) :
    (int n).source.toList = Nat.toDigits 10 n.toInt.toNat := by
  obtain ⟨k, hk⟩ := Int.eq_ofNat_of_zero_le h
  rw [source, hk]
  exact Nat.toList_repr

theorem toList_source_number {d : Decimal} (h : d.negative = false) :
    (number d).source.toList = Nat.toDigits 10 (d.coefficient / tenTo d.scale) ++
      '.' :: Text.padded (max d.scale 1) (d.coefficient % tenTo d.scale) := by
  have hchars : d.text.toList = d.magnitudeChars := by
    simp [Decimal.text, Decimal.chars, h]
  rw [source]
  split
  case isTrue hscale =>
    rw [String.toList_append, hchars, Decimal.magnitudeChars, if_pos hscale, hscale]
    have hzero : Text.padded 1 0 = ['0'] := rfl
    simp [tenTo, Nat.mod_one, hzero]
  case isFalse hscale =>
    rw [hchars, Decimal.magnitudeChars, if_neg hscale, Nat.max_eq_left (by omega)]

theorem next_source {c : Constant} (h : c.IsLegible) {rest : List Char}
    (hrest : Source.Ends rest) :
    Source.next (c.source.toList ++ rest) = some (c.lexeme, rest) := by
  have hdigits : ∀ n, ∀ k ∈ Nat.toDigits 10 n, k.isDigit = true :=
    fun _ _ => Nat.isDigit_of_mem_toDigits (by omega) (by omega)
  have hfirst : ∀ n more, ∃ k ∈ (Nat.toDigits 10 n ++ more).head?, k.isDigit = true := by
    intro n more
    cases hn : Nat.toDigits 10 n with
    | nil => exact absurd hn Nat.toDigits_ne_nil
    | cons k ks => exact ⟨k, rfl, hdigits n k (by simp [hn])⟩
  cases c with
  | null => exact Source.next_word (by decide) (by decide) hrest.endsWord
  | bool b => cases b <;> exact Source.next_word (by decide) (by decide) hrest.endsWord
  | int n =>
    have hchars := toList_source_int h
    refine Source.next_numeral ?_ ?_
    · simpa [hchars] using hfirst n.toInt.toNat []
    · rw [hchars]
      exact Source.splitNumeral_whole (hdigits _) hrest
  | number d =>
    have hchars := toList_source_number h
    refine Source.next_numeral ?_ ?_
    · rw [hchars]
      exact hfirst _ _
    · rw [hchars]
      exact Source.splitNumeral_places (hdigits _) (fun _ => Text.isDigit_of_mem_padded)
        (Text.padded_ne_nil _ _) hrest
  | str s => exact Source.next_string s rest
  | date d =>
    have hclosing : ')' ∉ d.text.toList := by
      rw [Date.text, String.toList_ofList]
      exact Date.notMem_chars rfl (by decide) (by decide) d
    simpa [source, lexeme] using Source.next_moment hclosing rest
  | dateTime t =>
    have hclosing : ')' ∉ t.text.toList := by
      rw [DateTime.text, String.toList_ofList]
      exact DateTime.notMem_chars rfl (by decide) (by decide) (by decide) (by decide) t
    simpa [source, lexeme] using Source.next_moment hclosing rest

/-- Decimals without sign that are written alike have the same value: they have the same digits
before and behind the point, and differ at most in that one of them is given a place it lacks. -/
theorem sameValue_of_source_eq {a b : Decimal} (ha : a.negative = false) (hb : b.negative = false)
    (h : (number a).source = (number b).source) : a.SameValue b := by
  have hlt : ∀ d : Decimal, d.coefficient % tenTo d.scale < tenTo (max d.scale 1) := by
    intro d
    have hpos : 0 < tenTo d.scale := Nat.pow_pos (by omega)
    have hle : tenTo d.scale ≤ tenTo (max d.scale 1) := Nat.pow_le_pow_right (by omega) (by omega)
    have hmod := Nat.mod_lt d.coefficient hpos
    omega
  have hchars := congrArg String.toList h
  rw [toList_source_number ha, toList_source_number hb,
    List.append_cons_inj_of_notMem (Text.notMem_toDigits rfl _)
      (Text.notMem_padded rfl _ _)] at hchars
  have hwhole := Text.toDigits_injective hchars.1
  have hplaces := Text.padded_inj (by omega) (by omega) (hlt a) (hlt b) hchars.2.2
  have hsigned : a.coefficient * tenTo b.scale = b.coefficient * tenTo a.scale := by
    have hadd := fun d : Decimal => Nat.div_add_mod d.coefficient (tenTo d.scale)
    have hcases : a.scale = b.scale ∨ (a.scale = 0 ∧ b.scale = 1) ∨ a.scale = 1 ∧ b.scale = 0 := by
      omega
    rcases hcases with hab | ⟨hzero, hone⟩ | ⟨hone, hzero⟩
    · have hcoefficient : a.coefficient = b.coefficient := by
        rw [← hadd a, ← hadd b, hwhole, hplaces.2, hab]
      rw [hcoefficient, hab]
    · have hzeroth : tenTo a.scale = 1 := by rw [hzero]; rfl
      have hfirst : tenTo b.scale = 10 := by rw [hone]; rfl
      rw [hzeroth, hfirst] at hwhole hplaces ⊢
      omega
    · have hzeroth : tenTo b.scale = 1 := by rw [hzero]; rfl
      have hfirst : tenTo a.scale = 10 := by rw [hone]; rfl
      rw [hzeroth, hfirst] at hwhole hplaces ⊢
      omega
  simpa [Decimal.SameValue, Decimal.signed, ha, hb] using congrArg Int.ofNat hsigned

theorem int_eq_of_source_eq {m n : Int64} (hm : 0 ≤ m.toInt) (hn : 0 ≤ n.toInt)
    (h : (int m).source = (int n).source) : m = n := by
  have hdigits := congrArg String.toList h
  rw [toList_source_int hm, toList_source_int hn] at hdigits
  have hnat := Text.toDigits_injective hdigits
  exact Int64.toInt_inj.1 (by omega)

theorem int_source_ne_number_source {n : Int64} {d : Decimal} (hn : 0 ≤ n.toInt)
    (hd : d.negative = false) : (int n).source ≠ (number d).source := by
  intro h
  have hpoint : '.' ∈ (int n).source.toList := by
    rw [h, toList_source_number hd]
    simp
  rw [toList_source_int hn] at hpoint
  exact Text.notMem_toDigits rfl _ hpoint

theorem date_text_ne_dateTime_text (d : Date) (t : DateTime) : d.text ≠ t.text := by
  intro h
  have hmem : 'T' ∈ d.text.toList := by
    rw [h, DateTime.text, String.toList_ofList]
    simp [DateTime.chars]
  rw [Date.text, String.toList_ofList] at hmem
  exact Date.notMem_chars rfl (by decide) (by decide) d hmem

/-- Legible constants that are written as the same lexeme have the same value. -/
theorem same_of_lexeme_eq {c c' : Constant} (h : c.IsLegible) (h' : c'.IsLegible)
    (heq : c.lexeme = c'.lexeme) : c.same c' = true := by
  cases c with
  | null =>
    cases c' with
    | null => rfl
    | bool b => cases b <;> simp [lexeme, source] at heq
    | _ => cases heq
  | bool a =>
    cases c' with
    | null => cases a <;> simp [lexeme, source] at heq
    | bool b => cases a <;> cases b <;> simp [lexeme, source, same] at heq ⊢
    | _ => cases heq
  | int m =>
    cases c' with
    | int n =>
      have hvalue := int_eq_of_source_eq h h' (Source.Lexeme.numeral.inj heq)
      simp [same, hvalue]
    | number d => exact absurd (Source.Lexeme.numeral.inj heq) (int_source_ne_number_source h h')
    | _ => cases heq
  | number a =>
    cases c' with
    | int n =>
      exact absurd (Source.Lexeme.numeral.inj heq).symm (int_source_ne_number_source h' h)
    | number b =>
      exact decide_eq_true (sameValue_of_source_eq h h' (Source.Lexeme.numeral.inj heq))
    | _ => cases heq
  | str s =>
    cases c' with
    | str s' =>
      cases heq
      simp [same]
    | _ => cases heq
  | date d =>
    cases c' with
    | date d' =>
      have hread := congrArg Calendar.readDate (Source.Lexeme.moment.inj heq)
      rw [Calendar.readDate_text, Calendar.readDate_text] at hread
      cases hread
      simp [same]
    | dateTime t => exact absurd (Source.Lexeme.moment.inj heq) (date_text_ne_dateTime_text d t)
    | _ => cases heq
  | dateTime t =>
    cases c' with
    | date d => exact absurd (Source.Lexeme.moment.inj heq).symm (date_text_ne_dateTime_text d t)
    | dateTime t' =>
      have hread := congrArg Calendar.readDateTime (Source.Lexeme.moment.inj heq)
      rw [Calendar.readDateTime_text, Calendar.readDateTime_text,
        DateTime.startOfSecond_eq_self_iff.2 h, DateTime.startOfSecond_eq_self_iff.2 h'] at hread
      cases hread
      simp [same]
    | _ => cases heq

end Constant

end TypedSql
