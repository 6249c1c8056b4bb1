import TypedSql.Dialect

/-!
# The lexical structure of SQL

A lexer that knows as much of a dialect as is needed to tell literals, quoted names and comments
from everything else. It reads one character at a time, and its mode says what it is in the middle
of; every character that belongs to none of these is a token of its own.

A text is a primary if it keeps to itself: wherever it stands before a blank, a comma or a closing
parenthesis, its tokens are the same and the lexer is as good as new behind it. Quoted texts and
names are single tokens, and a literal decodes to the text that was quoted.
-/

namespace TypedSql.Lexer

/-- What a token is; `unclosed` is a literal, a name or a comment that does not end. -/
inductive Kind where
  | string
  | identifier
  | comment
  | char
  | unclosed
  deriving DecidableEq

/-- A token: what it is, and its characters. -/
structure Token where
  kind : Kind
  text : List Char
  deriving DecidableEq

/-- What the lexer is in the middle of, with the characters that it has read of it. -/
inductive Mode where
  /-- Between tokens; `word` says whether the last character could be part of a word. -/
  | plain (word : Bool)
  /-- Behind a minus sign or a slash, which may begin a comment. -/
  | mark (c : Char)
  /-- Behind an `E` that may begin a literal with escapes. -/
  | escape (c : Char)
  | literal (escapes : Bool) (text : List Char)
  | backslash (text : List Char)
  /-- Behind a quote, which ends the literal unless another one follows. -/
  | quote (escapes : Bool) (text : List Char)
  | name (text : List Char)
  | nameQuote (text : List Char)
  | line (text : List Char)
  | block (text : List Char)
  | star (text : List Char)
  deriving DecidableEq

/-- Whether a character can be part of a word. -/
def isWord (c : Char) : Bool := c.isAlphanum || c = '_' || c = '$' || 128 ≤ c.toNat

/-- Reads a character between tokens. -/
def start (d : Dialect) (word : Bool) (c : Char) : List Token × Mode :=
  if c = '\'' then ([], .literal false [c])
  else if c = '"' then ([], .name [c])
  else if c = '-' || c = '/' then ([], .mark c)
  else if d = .postgres && !word && (c = 'E' || c = 'e') then ([], .escape c)
  else ([⟨.char, [c]⟩], .plain (isWord c))

/-- Reads a character behind a token that is complete. -/
def resume (d : Dialect) (word : Bool) (t : Token) (c : Char) : List Token × Mode :=
  (t :: (start d word c).1, (start d word c).2)

/-- Reads a character. -/
def step (d : Dialect) (m : Mode) (c : Char) : List Token × Mode :=
  match m with
  | .plain word => start d word c
  | .mark k =>
    if k = '-' && c = '-' then ([], .line [k, c])
    else if k = '/' && c = '*' then ([], .block [k, c])
    else resume d false ⟨.char, [k]⟩ c
  | .escape k => if c = '\'' then ([], .literal true [k, c]) else resume d true ⟨.char, [k]⟩ c
  | .literal escapes text =>
    if c = '\'' then ([], .quote escapes (text ++ [c]))
    else if escapes && c = '\\' then ([], .backslash (text ++ [c]))
    else ([], .literal escapes (text ++ [c]))
  | .backslash text => ([], .literal true (text ++ [c]))
  | .quote escapes text =>
    if c = '\'' then ([], .literal escapes (text ++ [c])) else resume d false ⟨.string, text⟩ c
  | .name text => if c = '"' then ([], .nameQuote (text ++ [c])) else ([], .name (text ++ [c]))
  | .nameQuote text =>
    if c = '"' then ([], .name (text ++ [c])) else resume d false ⟨.identifier, text⟩ c
  | .line text => if c = '\n' then resume d false ⟨.comment, text⟩ c else ([], .line (text ++ [c]))
  | .block text => if c = '*' then ([], .star (text ++ [c])) else ([], .block (text ++ [c]))
  | .star text =>
    if c = '/' then ([⟨.comment, text ++ [c]⟩], .plain false)
    else if c = '*' then ([], .star (text ++ [c]))
    else ([], .block (text ++ [c]))

/-- The token that the end of the text completes. -/
def flush : Mode → List Token
  | .plain _ => []
  | .mark c => [⟨.char, [c]⟩]
  | .escape c => [⟨.char, [c]⟩]
  | .quote _ text => [⟨.string, text⟩]
  | .nameQuote text => [⟨.identifier, text⟩]
  | .line text => [⟨.comment, text⟩]
  | .literal _ text | .backslash text | .name text | .block text | .star text =>
    [⟨.unclosed, text⟩]

/-- Reads a text: the tokens that are complete, and the mode behind the text. -/
def run (d : Dialect) : Mode → List Char → List Token × Mode
  | m, [] => ([], m)
  | m, c :: cs =>
    ((step d m c).1 ++ (run d (step d m c).2 cs).1, (run d (step d m c).2 cs).2)

/-- The tokens of a text that is read from the given mode on. -/
def scan (d : Dialect) (m : Mode) (cs : List Char) : List Token :=
  (run d m cs).1 ++ flush (run d m cs).2

/-- The tokens of a text. -/
def tokens (d : Dialect) (cs : List Char) : List Token := scan d (.plain false) cs

/-- What stands in a literal between its opening quote and the closing one, which ends the list. -/
def decodeBody (escapes : Bool) : List Char → Option (List Char)
  | [] => none
  | c :: cs =>
    if c = '\'' then
      match cs with
      | [] => some []
      | k :: cs => if k = '\'' then (decodeBody escapes cs).map (c :: ·) else none
    else if escapes && c = '\\' then
      match cs with
      | [] => none
      | k :: cs => if k = '\\' then (decodeBody escapes cs).map (c :: ·) else none
    else (decodeBody escapes cs).map (c :: ·)

/-- The text that a string literal stands for. -/
def Token.decode? (t : Token) : Option (List Char) :=
  if t.kind ≠ .string then none
  else
    match t.text with
    | '\'' :: cs => decodeBody false cs
    | k :: '\'' :: cs => if k = 'E' || k = 'e' then decodeBody true cs else none
    | _ => none

/-! ## Texts one after the other -/

variable {d : Dialect} {m : Mode}

theorem run_append (m : Mode) (xs ys : List Char) :
    run d m (xs ++ ys) =
      ((run d m xs).1 ++ (run d (run d m xs).2 ys).1, (run d (run d m xs).2 ys).2) := by
  induction xs generalizing m with
  | nil => rfl
  | cons x xs ih => simp [run, ih]

theorem scan_append (m : Mode) (xs ys : List Char) :
    scan d m (xs ++ ys) = (run d m xs).1 ++ scan d (run d m xs).2 ys := by
  simp [scan, run_append]

theorem scan_cons (m : Mode) (x : Char) (xs : List Char) :
    scan d m (x :: xs) = (step d m x).1 ++ scan d (step d m x).2 xs := by
  simp [scan, run]

/-- Whether the lexer is not inside a literal, a name or a comment. -/
def Mode.isSettled : Mode → Bool
  | plain _ | mark _ | escape _ | quote _ _ | nameQuote _ => true
  | _ => false

/-- Whether a character may follow an operand. -/
def isStop (c : Char) : Bool := c = ' ' || c = ')' || c = ','

/-- Whether a text may follow an operand: it is empty, or a blank, a comma or a closing parenthesis
comes first. -/
def Stops (cs : List Char) : Prop := ∀ c ∈ cs.head?, isStop c = true

theorem start_stop {word : Bool} {c : Char} (hc : isStop c = true) :
    start d word c = ([⟨.char, [c]⟩], .plain false) := by
  have hcases : c = ' ' ∨ c = ')' ∨ c = ',' := by simpa [isStop, or_assoc] using hc
  rcases hcases with rfl | rfl | rfl <;> cases d <;> cases word <;> decide

/-- A character that may follow an operand completes what the lexer is in the middle of. -/
theorem step_stop {c : Char} (hm : m.isSettled = true) (hc : isStop c = true) :
    step d m c = (flush m ++ [⟨.char, [c]⟩], .plain false) := by
  have hquote : c ≠ '\'' := by rintro rfl; cases hc
  have hdouble : c ≠ '"' := by rintro rfl; cases hc
  have hminus : c ≠ '-' := by rintro rfl; cases hc
  have hstar : c ≠ '*' := by rintro rfl; cases hc
  cases m with
  | plain word => exact start_stop hc
  | mark k => simp [step, resume, flush, start_stop hc, hminus, hstar]
  | escape k => simp [step, resume, flush, start_stop hc, hquote]
  | quote escapes text => simp [step, resume, flush, start_stop hc, hquote]
  | nameQuote text => simp [step, resume, flush, start_stop hc, hdouble]
  | _ => cases hm

theorem scan_of_stops {ys : List Char} (hm : m.isSettled = true) (hys : Stops ys) :
    scan d m ys = flush m ++ tokens d ys := by
  cases ys with
  | nil => simp [scan, tokens, run, flush]
  | cons y ys =>
    have hy : isStop y = true := hys y rfl
    rw [tokens, scan_cons, scan_cons, step_stop hm hy, step_stop rfl hy]
    simp [flush]

/-! ## Primaries -/

/-- Whether a text keeps to itself, so that it can stand for an operand. A minus sign at its start
could make a comment together with one before it. -/
structure IsPrimary (d : Dialect) (xs : List Char) : Prop where
  head : xs.head? ≠ some '-'
  closed : ∀ ys, Stops ys → tokens d (xs ++ ys) = tokens d xs ++ tokens d ys

theorem isPrimary_of_settled {xs : List Char} (hhead : xs.head? ≠ some '-')
    (hsettled : (run d (.plain false) xs).2.isSettled = true) : IsPrimary d xs := by
  refine ⟨hhead, fun ys hys => ?_⟩
  rw [tokens, scan_append, scan_of_stops hsettled hys, ← List.append_assoc]
  rfl

/-! ## Literals and names -/

open Text (doubled)

theorem run_literal (text cs : List Char) :
    run d (.literal false text) (doubled '\'' cs) =
      ([], .literal false (text ++ doubled '\'' cs)) := by
  induction cs generalizing text with
  | nil => simp [doubled, run]
  | cons c cs ih =>
    by_cases hc : c = '\''
    · simp [doubled, hc, run, step, ih]
    · simp [doubled, hc, run, step, ih]

theorem run_literal_escapes (text cs : List Char) :
    run d (.literal true text) (doubled '\\' (doubled '\'' cs)) =
      ([], .literal true (text ++ doubled '\\' (doubled '\'' cs))) := by
  induction cs generalizing text with
  | nil => simp [doubled, run]
  | cons c cs ih =>
    by_cases hc : c = '\''
    · simp [doubled, hc, run, step, ih]
    · by_cases hb : c = '\\'
      · simp [doubled, hb, run, step, ih]
      · simp [doubled, hc, hb, run, step, ih]

/-- Reading a quoted text from the start, the lexer ends behind a quote that may close it. -/
theorem run_quoteChars (d : Dialect) (cs : List Char) :
    ∃ escapes, run d (.plain false) (d.quoteChars cs) = ([], .quote escapes (d.quoteChars cs)) := by
  by_cases hescapes : (d = .postgres && cs.contains '\\') = true
  · refine ⟨true, ?_⟩
    have hd : d = .postgres := by
      rw [Bool.and_eq_true] at hescapes
      simpa using hescapes.1
    rw [Dialect.quoteChars, if_pos hescapes, List.cons_append, List.cons_append]
    simp [run, step, start, hd, run_append, run_literal_escapes]
  · refine ⟨false, ?_⟩
    rw [Dialect.quoteChars, if_neg hescapes, List.cons_append]
    simp [run, step, start, run_append, run_literal]

theorem tokens_quoteChars (d : Dialect) (cs : List Char) :
    tokens d (d.quoteChars cs) = [⟨.string, d.quoteChars cs⟩] := by
  obtain ⟨escapes, h⟩ := run_quoteChars d cs
  simp [tokens, scan, h, flush]

theorem decodeBody_cons {escapes : Bool} {c : Char} (hquote : c ≠ '\'')
    (hescape : (escapes && c = '\\') = false) (cs : List Char) :
    decodeBody escapes (c :: cs) = (decodeBody escapes cs).map (c :: ·) := by
  rw [decodeBody.eq_def]
  simp [hquote, hescape]

theorem decodeBody_doubled (cs : List Char) :
    decodeBody false (doubled '\'' cs ++ ['\'']) = some cs := by
  induction cs with
  | nil => simp [doubled, decodeBody]
  | cons c cs ih =>
    by_cases hc : c = '\''
    · simp [doubled, hc, decodeBody, ih]
    · rw [doubled, if_neg hc, List.cons_append, decodeBody_cons hc rfl, ih]
      rfl

theorem decodeBody_doubled_escapes (cs : List Char) :
    decodeBody true (doubled '\\' (doubled '\'' cs) ++ ['\'']) = some cs := by
  induction cs with
  | nil => simp [doubled, decodeBody]
  | cons c cs ih =>
    by_cases hc : c = '\''
    · simp [doubled, hc, decodeBody, ih]
    · by_cases hb : c = '\\'
      · simp [doubled, hb, decodeBody, ih]
      · have hescape : (true && decide (c = '\\')) = false := by simp [hb]
        rw [doubled, if_neg hc, doubled, if_neg hb, List.cons_append,
          decodeBody_cons hc hescape, ih]
        rfl

/-- A literal stands for the text that was quoted. -/
theorem decode?_quoteChars (d : Dialect) (cs : List Char) :
    Token.decode? ⟨.string, d.quoteChars cs⟩ = some cs := by
  rw [Dialect.quoteChars]
  split
  · simp [Token.decode?, decodeBody_doubled_escapes]
  · simp [Token.decode?, decodeBody_doubled]

theorem run_name (text cs : List Char) :
    run d (.name text) (doubled '"' cs) = ([], .name (text ++ doubled '"' cs)) := by
  induction cs generalizing text with
  | nil => simp [doubled, run]
  | cons c cs ih =>
    by_cases hc : c = '"'
    · simp [doubled, hc, run, step, ih]
    · simp [doubled, hc, run, step, ih]

theorem tokens_identifierChars (cs : List Char) :
    tokens d (identifierChars cs) = [⟨.identifier, identifierChars cs⟩] := by
  have hrun : run d (.plain false) (identifierChars cs) = ([], .nameQuote (identifierChars cs)) := by
    rw [identifierChars, List.cons_append]
    simp [run, step, start, run_append, run_name]
  simp [tokens, scan, hrun, flush]

/-! ## Plain text -/

/-- Whether a character is a token of its own wherever it stands outside literals. -/
def isOrdinary (c : Char) : Bool :=
  c ≠ '\'' && c ≠ '"' && c ≠ '-' && c ≠ '/' && c ≠ '*' && c ≠ 'E' && c ≠ 'e'

theorem start_ordinary {word : Bool} {c : Char} (hc : isOrdinary c = true) :
    start d word c = ([⟨.char, [c]⟩], .plain (isWord c)) := by
  simp only [isOrdinary, Bool.and_eq_true, decide_eq_true_eq] at hc
  simp [start, hc]

theorem scan_ordinary {word : Bool} {cs : List Char} (hcs : ∀ c ∈ cs, isOrdinary c = true) :
    scan d (.plain word) cs = cs.map fun c => ⟨.char, [c]⟩ := by
  induction cs generalizing word with
  | nil => rfl
  | cons c cs ih =>
    have hstep : step d (.plain word) c = ([⟨.char, [c]⟩], .plain (isWord c)) :=
      start_ordinary (hcs c List.mem_cons_self)
    rw [scan_cons, hstep, ih fun c hc => hcs c (List.mem_cons_of_mem _ hc)]
    rfl

end TypedSql.Lexer
