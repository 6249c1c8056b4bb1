import Mathlib.Data.List.Chain
import TypedSql.Dialect

/-!
# Where quoted texts end

A text from outside goes into SQL as a literal, as a quoted name or as a comment. Each of these has
a reader that knows nothing but the rules of SQL. Whatever the text is and whatever follows, the
reader stops exactly where the quoted text ends, and what it has read is the text that was quoted.
-/

namespace TypedSql

open Text (doubled replaceFrom)

/-! ## Literals and names -/

/-- Reads behind the opening `mark` up to the closing one. A doubled mark stands for itself, and so
does any character behind a backslash, if there are escapes. Gives the value and what is left. -/
def readQuoted (mark : Char) (escapes : Bool) : List Char → Option (List Char × List Char)
  | [] => none
  | c :: cs =>
    if c = mark then
      match cs with
      | [] => some ([], [])
      | k :: rest =>
        if k = mark then (readQuoted mark escapes rest).map (Prod.map (k :: ·) id)
        else some ([], k :: rest)
    else if escapes && c = '\\' then
      match cs with
      | [] => none
      | k :: rest => (readQuoted mark escapes rest).map (Prod.map (k :: ·) id)
    else (readQuoted mark escapes cs).map (Prod.map (c :: ·) id)

/-- Reads a string literal. Postgres has literals with escapes, which begin with an `E`; there,
backslashes are escapes in plain literals too unless these are `conforming` to the standard. -/
def readLiteral (d : Dialect) (conforming : Bool) : List Char → Option (List Char × List Char)
  | [] => none
  | c :: cs =>
    if c = '\'' then readQuoted '\'' (d = .postgres && !conforming) cs
    else if d = .postgres && (c = 'E' || c = 'e') && cs.head? = some '\'' then
      readQuoted '\'' true cs.tail
    else none

/-- Reads a quoted name. -/
def readName : List Char → Option (List Char × List Char)
  | [] => none
  | c :: cs => if c = '"' then readQuoted '"' false cs else none

section Quoted

variable {mark : Char} {escapes : Bool} {rest : List Char}

theorem readQuoted_mark (hrest : rest.head? ≠ some mark) :
    readQuoted mark escapes (mark :: rest) = some ([], rest) := by
  cases rest with
  | nil => simp [readQuoted]
  | cons k rest =>
    have hk : k ≠ mark := fun h => hrest (by rw [h]; rfl)
    simp [readQuoted, hk]

theorem readQuoted_mark_mark (cs : List Char) :
    readQuoted mark escapes (mark :: mark :: cs) =
      (readQuoted mark escapes cs).map (Prod.map (mark :: ·) id) := by
  rw [readQuoted.eq_def]
  simp

theorem readQuoted_backslash {c : Char} (hmark : mark ≠ '\\') (cs : List Char) :
    readQuoted mark true ('\\' :: c :: cs) =
      (readQuoted mark true cs).map (Prod.map (c :: ·) id) := by
  rw [readQuoted.eq_def]
  simp [hmark.symm]

theorem readQuoted_cons {c : Char} (hc : c ≠ mark) (hescape : escapes = true → c ≠ '\\')
    (cs : List Char) :
    readQuoted mark escapes (c :: cs) =
      (readQuoted mark escapes cs).map (Prod.map (c :: ·) id) := by
  have hplain : (escapes && decide (c = '\\')) = false := by
    cases escapes with
    | false => rfl
    | true => simpa using hescape rfl
  rw [readQuoted.eq_def]
  simp [hc, hplain]

/-- A text with its marks doubled is read back, if it has no backslash or there are no escapes. -/
theorem readQuoted_doubled {cs : List Char} (hrest : rest.head? ≠ some mark)
    (hescapes : escapes = true → '\\' ∉ cs) :
    readQuoted mark escapes (doubled mark cs ++ mark :: rest) = some (cs, rest) := by
  induction cs with
  | nil => exact readQuoted_mark hrest
  | cons c cs ih =>
    have hplain : escapes = true → '\\' ≠ c ∧ '\\' ∉ cs := by
      simpa only [List.mem_cons, not_or] using hescapes
    have htail := ih fun h => (hplain h).2
    by_cases hc : c = mark
    · rw [doubled, if_pos hc, List.cons_append, List.cons_append, readQuoted_mark_mark, htail, hc]
      rfl
    · rw [doubled, if_neg hc, List.cons_append, readQuoted_cons hc fun h => (hplain h).1.symm,
        htail]
      rfl

/-- A text is read back with escapes if first its quotes and then its backslashes are doubled. The
backslashes that this puts in front of backslashes never meet a quote. -/
theorem readQuoted_doubled_escapes (cs : List Char) (hrest : rest.head? ≠ some '\'') :
    readQuoted '\'' true (doubled '\\' (doubled '\'' cs) ++ '\'' :: rest) = some (cs, rest) := by
  induction cs with
  | nil => exact readQuoted_mark hrest
  | cons c cs ih =>
    by_cases hc : c = '\''
    · simp only [doubled, hc, if_true]
      rw [if_neg (by decide), if_neg (by decide), List.cons_append, List.cons_append,
        readQuoted_mark_mark, ih]
      rfl
    by_cases hb : c = '\\'
    · rw [doubled, if_neg hc, doubled, if_pos hb, List.cons_append, List.cons_append,
        readQuoted_backslash (by decide), ih, hb]
      rfl
    · rw [doubled, if_neg hc, doubled, if_neg hb, List.cons_append,
        readQuoted_cons hc fun _ => hb, ih]
      rfl

end Quoted

theorem readLiteral_quoteChars (d : Dialect) (conforming : Bool) (cs : List Char) {rest : List Char}
    (hrest : rest.head? ≠ some '\'') :
    readLiteral d conforming (d.quoteChars cs ++ rest) = some (cs, rest) := by
  by_cases hescapes : (d = .postgres && cs.contains '\\') = true
  · have hd : d = .postgres := by simpa using (Bool.and_eq_true_iff.1 hescapes).1
    rw [Dialect.quoteChars, if_pos hescapes]
    simpa [readLiteral, hd] using readQuoted_doubled_escapes cs hrest
  · rw [Dialect.quoteChars, if_neg hescapes]
    -- on Postgres a literal without an `E` has no backslash, so that the setting does not matter
    have hplain : (d = .postgres && !conforming) = true → '\\' ∉ cs := by
      intro h hmem
      have hd : d = .postgres := by simpa using (Bool.and_eq_true_iff.1 h).1
      exact hescapes (by simpa [hd] using hmem)
    simpa [readLiteral] using readQuoted_doubled hrest hplain

theorem readName_identifierChars (cs : List Char) {rest : List Char}
    (hrest : rest.head? ≠ some '"') :
    readName (identifierChars cs ++ rest) = some (cs, rest) := by
  have hescapes : false = true → '\\' ∉ cs := by simp
  simpa [readName, identifierChars] using readQuoted_doubled hrest hescapes

/-- A string literal is read back as the text that was quoted, up to where it ends, in front of any
text that does not begin with a quote; on Postgres also if plain literals do not conform to the
standard. So is a quoted name in front of any text that does not begin with a double quote. -/
theorem quoted_read_back :
    (∀ (d : Dialect) (conforming : Bool) (text following : String),
      following.toList.head? ≠ some '\'' →
      readLiteral d conforming (d.quoteText text ++ following).toList =
        some (text.toList, following.toList)) ∧
    ∀ name following : String, following.toList.head? ≠ some '"' →
      readName (quoteIdentifier name ++ following).toList =
        some (name.toList, following.toList) := by
  refine ⟨fun d conforming text following hfollowing => ?_, fun name following hfollowing => ?_⟩
  · rw [String.toList_append, Dialect.quoteText, String.toList_ofList]
    exact readLiteral_quoteChars d conforming text.toList hfollowing
  · rw [String.toList_append, quoteIdentifier, String.toList_ofList]
    exact readName_identifierChars name.toList hfollowing

/-- A text that ends with an escaped quote and a backslash, and a name with a quote at its end. -/
theorem quoted_read_back_backslash :
    Dialect.quoteText .postgres "it\\'\\" = "E'it\\\\''\\\\'" ∧
    readLiteral .postgres false (Dialect.quoteText .postgres "it\\'\\" ++ " or 1").toList =
      some ("it\\'\\".toList, " or 1".toList) ∧
    readName (quoteIdentifier "a\"" ++ "'").toList = some ("a\"".toList, "'".toList) := by
  refine ⟨by decide, quoted_read_back.1 .postgres false _ _ ?_, quoted_read_back.2 _ _ ?_⟩
  · decide
  · decide

/-! ## Comments -/

/-- Whether `a` is nowhere followed by `b`. -/
def Apart (a b : Char) (cs : List Char) : Prop := cs.IsChain fun x y => ¬ (x = a ∧ y = b)

/-- The text with a blank put into every occurrence of `a` followed by `b`. -/
def pulledApart (a b : Char) (cs : List Char) : List Char := replaceFrom [a, b] [a, ' ', b] 0 cs

section Apart

variable {a b : Char}

theorem pulledApart_pair (cs : List Char) :
    pulledApart a b (a :: b :: cs) = a :: ' ' :: b :: pulledApart a b cs := by
  simp [pulledApart, replaceFrom]

theorem pulledApart_cons {c : Char} {cs : List Char} (h : ¬ (c = a ∧ cs.head? = some b)) :
    pulledApart a b (c :: cs) = c :: pulledApart a b cs := by
  have hfront : [a, b].isPrefixOf (c :: cs) = false := by
    rw [Bool.eq_false_iff]
    intro hfront
    rw [List.isPrefixOf_iff_prefix] at hfront
    obtain ⟨rest, hrest⟩ := hfront
    cases hrest
    exact h ⟨rfl, rfl⟩
  rw [pulledApart, replaceFrom, if_neg (by simp [hfront])]
  rfl

/-- Pulling a text apart goes from left to right, and over two characters at once where they are
`a` and `b`. -/
theorem pulledApart_induction {P : List Char → Prop} (nil : P [])
    (pair : ∀ cs, P cs → P (a :: b :: cs))
    (cons : ∀ c cs, ¬ (c = a ∧ cs.head? = some b) → P cs → P (c :: cs)) (cs : List Char) :
    P cs := by
  suffices hlength : ∀ k, ∀ cs : List Char, cs.length ≤ k → P cs from hlength _ cs le_rfl
  intro k
  induction k with
  | zero =>
    intro cs hcs
    rw [List.eq_nil_of_length_eq_zero (Nat.le_zero.1 hcs)]
    exact nil
  | succ k ih =>
    intro cs hcs
    cases cs with
    | nil => exact nil
    | cons c cs =>
      rw [List.length_cons] at hcs
      by_cases hpair : c = a ∧ cs.head? = some b
      · obtain ⟨rfl, hhead⟩ := hpair
        obtain ⟨rest, rfl⟩ := List.head?_eq_some_iff.1 hhead
        rw [List.length_cons] at hcs
        exact pair rest (ih rest (by omega))
      · exact cons c cs hpair (ih cs (by omega))

theorem head?_pulledApart (cs : List Char) : (pulledApart a b cs).head? = cs.head? := by
  cases cs with
  | nil => rfl
  | cons c cs =>
    by_cases hpair : c = a ∧ cs.head? = some b
    · obtain ⟨rfl, hhead⟩ := hpair
      obtain ⟨rest, rfl⟩ := List.head?_eq_some_iff.1 hhead
      rw [pulledApart_pair]
      rfl
    · rw [pulledApart_cons hpair]
      rfl

theorem apart_pulledApart (hab : a ≠ b) (ha : a ≠ ' ') (hb : b ≠ ' ') (cs : List Char) :
    Apart a b (pulledApart a b cs) := by
  induction cs using pulledApart_induction (a := a) (b := b) with
  | nil => exact .nil
  | pair cs ih =>
    rw [pulledApart_pair]
    refine .cons_cons (fun h => hb h.2.symm) (.cons_cons (fun h => ha h.1.symm) ?_)
    exact List.isChain_cons.2 ⟨fun y _ h => hab h.1.symm, ih⟩
  | cons c cs hpair ih =>
    rw [pulledApart_cons hpair]
    refine List.isChain_cons.2 ⟨fun y hy h => hpair ⟨h.1, ?_⟩, ih⟩
    rw [← head?_pulledApart (a := a) (b := b), hy, h.2]

/-- Pulling `a` and `b` apart does not bring `b` and `a` together. -/
theorem Apart.pulledApart {cs : List Char} (h : Apart b a cs) (ha : a ≠ ' ') (hb : b ≠ ' ') :
    Apart b a (pulledApart a b cs) := by
  induction cs using pulledApart_induction (a := a) (b := b) with
  | nil => exact .nil
  | pair cs ih =>
    have hcs := List.isChain_cons.1 (List.isChain_cons.1 h).2
    rw [pulledApart_pair]
    refine .cons_cons (fun h => ha h.2.symm) (.cons_cons (fun h => hb h.1.symm) ?_)
    refine List.isChain_cons.2 ⟨fun y hy => ?_, ih hcs.2⟩
    rw [head?_pulledApart] at hy
    exact hcs.1 y hy
  | cons c cs hpair ih =>
    have hcs := List.isChain_cons.1 h
    rw [pulledApart_cons hpair]
    refine List.isChain_cons.2 ⟨fun y hy => ?_, ih hcs.2⟩
    rw [head?_pulledApart] at hy
    exact hcs.1 y hy

/-- A text between two blanks keeps to itself. -/
theorem Apart.between {cs tail : List Char} (h : Apart a b cs) (htail : Apart a b (' ' :: tail))
    (ha : a ≠ ' ') (hb : b ≠ ' ') : Apart a b (' ' :: cs ++ ' ' :: tail) := by
  refine List.isChain_append.2 ⟨List.isChain_cons.2 ⟨fun y _ h => ha h.1.symm, h⟩, htail, ?_⟩
  rintro x - y hy ⟨-, rfl⟩
  exact hb (Option.some.inj hy).symm

theorem Apart.not_getElem? {cs : List Char} (h : Apart a b cs) (i : Nat) :
    ¬ (cs[i]? = some a ∧ cs[i + 1]? = some b) := by
  rintro ⟨ha, hb⟩
  obtain ⟨hi, rfl⟩ := List.getElem?_eq_some_iff.1 ha
  obtain ⟨hi', rfl⟩ := List.getElem?_eq_some_iff.1 hb
  exact List.isChain_iff_getElem.1 h i hi' ⟨rfl, rfl⟩

end Apart

/-- Skips the rest of a comment, where `depth` comments have been opened inside it and `last` is the
character in front, and gives what is left. A blank takes the place of a delimiter. -/
def skipComment (nested : Bool) : Nat → Char → List Char → Option (List Char)
  | _, _, [] => none
  | depth, last, c :: cs =>
    if last = '*' ∧ c = '/' then
      match depth with
      | 0 => some cs
      | depth + 1 => skipComment nested depth ' ' cs
    else if nested ∧ last = '/' ∧ c = '*' then skipComment nested (depth + 1) ' ' cs
    else skipComment nested depth c cs

/-- Reads a comment, with or without comments nested in it, and gives what is left behind it. -/
def readComment (nested : Bool) : List Char → Option (List Char)
  | '/' :: '*' :: cs => skipComment nested 0 ' ' cs
  | _ => none

theorem skipComment_of_apart (nested : Bool) {last : Char} {body : List Char}
    (hopen : Apart '/' '*' (last :: body)) (hclose : Apart '*' '/' (last :: body))
    (rest : List Char) :
    skipComment nested 0 last (body ++ ' ' :: '*' :: '/' :: rest) = some rest := by
  induction body generalizing last with
  | nil => simp [skipComment]
  | cons c body ih =>
    obtain ⟨hopen, hopen'⟩ := List.isChain_cons.1 hopen
    obtain ⟨hclose, hclose'⟩ := List.isChain_cons.1 hclose
    rw [List.cons_append, skipComment, if_neg (hclose c rfl), if_neg fun h => hopen c rfl h.2]
    exact ih hopen' hclose'

/-- What stands in a comment between its first two characters and its last one. -/
def commentFront (cs : List Char) : List Char :=
  ' ' :: pulledApart '*' '/' (pulledApart '/' '*' cs) ++ [' ', '*']

theorem commentChars_eq (cs : List Char) :
    commentChars cs = ['/', '*'] ++ commentFront cs ++ ['/'] := by
  simp [commentChars, commentFront, pulledApart]

theorem apart_commentBody (cs : List Char) :
    Apart '/' '*' (pulledApart '*' '/' (pulledApart '/' '*' cs)) ∧
      Apart '*' '/' (pulledApart '*' '/' (pulledApart '/' '*' cs)) :=
  ⟨(apart_pulledApart (by decide) (by decide) (by decide) cs).pulledApart (by decide) (by decide),
    apart_pulledApart (by decide) (by decide) (by decide) _⟩

theorem readComment_commentChars (nested : Bool) (cs rest : List Char) :
    readComment nested (commentChars cs ++ rest) = some rest := by
  obtain ⟨hopen, hclose⟩ := apart_commentBody cs
  have hblank : ∀ {a b : Char} {cs : List Char}, a ≠ ' ' → Apart a b cs → Apart a b (' ' :: cs) :=
    fun ha h => List.isChain_cons.2 ⟨fun y _ hy => ha hy.1.symm, h⟩
  have hskip := skipComment_of_apart nested (hblank (by decide) (hblank (by decide) hopen))
    (hblank (by decide) (hblank (by decide) hclose)) rest
  simpa [commentChars_eq, commentFront, readComment] using hskip

/-- A comment begins with a delimiter. Behind that, no comment is opened, and the only delimiter
that closes one is at the very end. So a reader of comments ends where the text behind the comment
begins, whether comments can be nested or not. -/
theorem comment_closes_at_end (text : String) :
    let chars := (comment text).toList
    ['/', '*'] <+: chars ∧
      (∀ i, 2 ≤ i → ¬ (chars[i]? = some '/' ∧ chars[i + 1]? = some '*')) ∧
      (∀ i, 2 ≤ i → (chars[i]? = some '*' ∧ chars[i + 1]? = some '/' ↔ i + 2 = chars.length)) ∧
      ∀ (nested : Bool) (following : String),
        readComment nested (comment text ++ following).toList = some following.toList := by
  intro chars
  obtain ⟨hopen, hclose⟩ := apart_commentBody text.toList
  have hchars : chars = ['/', '*'] ++ (commentFront text.toList ++ ['/']) := by
    rw [← List.append_assoc, ← commentChars_eq]
    exact String.toList_ofList
  -- from the third character on, positions count from the front of the comment
  have hget : ∀ i, chars[i + 2]? = (commentFront text.toList ++ ['/'])[i]? := by
    intro i
    rw [hchars, List.getElem?_append_right (by simp)]
    rfl
  refine ⟨⟨_, hchars.symm⟩, fun i hi => ?_, fun i hi => ?_, fun nested following => ?_⟩
  · obtain ⟨j, rfl⟩ : ∃ j, i = j + 2 := ⟨i - 2, by omega⟩
    have happart : Apart '/' '*' (commentFront text.toList ++ ['/']) := by
      rw [commentFront, List.append_assoc]
      exact hopen.between (by simp [Apart]) (by decide) (by decide)
    rw [hget, Nat.add_right_comm, hget]
    exact happart.not_getElem? j
  · obtain ⟨j, rfl⟩ : ∃ j, i = j + 2 := ⟨i - 2, by omega⟩
    have happart : Apart '*' '/' (commentFront text.toList) :=
      hclose.between (by simp [Apart]) (by decide) (by decide)
    have hlength : chars.length = (commentFront text.toList).length + 3 := by simp [hchars]
    rw [hget, Nat.add_right_comm, hget, hlength]
    constructor
    · rintro ⟨hstar, hslash⟩
      obtain ⟨hj, -⟩ := List.getElem?_eq_some_iff.1 hslash
      rw [List.length_append, List.length_singleton] at hj
      by_contra hne
      -- anywhere else, both characters would be in front of the last one
      rw [List.getElem?_append_left (by omega)] at hstar hslash
      exact happart.not_getElem? j ⟨hstar, hslash⟩
    · intro hend
      obtain ⟨init, hinit⟩ : ∃ init, commentFront text.toList = init ++ ['*'] :=
        ⟨_, (List.append_assoc _ [' '] ['*']).symm⟩
      obtain rfl : j = init.length := by
        rw [hinit, List.length_append, List.length_singleton] at hend
        omega
      simp [hinit]
  · rw [String.toList_append, comment, String.toList_ofList]
    exact readComment_commentChars nested text.toList following.toList

end TypedSql
