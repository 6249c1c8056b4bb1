import Mathlib.Data.List.TakeWhile
import TypedSql.Proofs.ReadBack
import TypedSql.Rule.Template

/-!
# Reading the text of a template

A template is the list of its pieces: texts without references, no two of them in a row, and
operands. Its text has each operand as a reference, and the same number can be written with leading
zeros. A text is read as the only template that it is a text of, so nothing is lost in reading but
the way in which numbers are written, and what is printed is read as the same template again.
-/

namespace TypedSql

namespace Template

/-! ## References -/

/-- Whether a reference can have the given digits. -/
def IsDigits (digits : List Char) : Prop :=
  digits ≠ [] ∧ ∀ c ∈ digits, Text.isDecimalDigit c = true

/-- Whether a text has a reference with the given digits. Since a brace is no digit, no reference is
part of another one. -/
def HasReference (cs digits : List Char) : Prop :=
  IsDigits digits ∧ ∃ before after, cs = before ++ '\x7b' :: (digits ++ '\x7d' :: after)

theorem referenceDigits?_eq_some_iff {cs digits : List Char} :
    referenceDigits? cs = some digits ↔
      IsDigits digits ∧ ∃ rest, cs = digits ++ '\x7d' :: rest := by
  unfold referenceDigits?
  constructor
  · intro h
    simp only at h
    split at h
    · cases h
    · rename_i hne
      split at h
      · rename_i rest hrest
        cases h
        refine ⟨⟨by simpa using hne, fun c hc => List.mem_takeWhile_imp hc⟩, rest, ?_⟩
        rw [← hrest, List.takeWhile_append_dropWhile]
      · cases h
  · rintro ⟨⟨hne, hdigits⟩, rest, rfl⟩
    have hbrace : ¬ Text.isDecimalDigit '\x7d' = true := by decide
    rw [List.takeWhile_append_of_pos hdigits, List.dropWhile_append_of_pos hdigits,
      List.takeWhile_cons_of_neg hbrace, List.dropWhile_cons_of_neg hbrace, List.append_nil]
    simp [hne]

theorem IsDigits.ne_brace {digits : List Char} (h : IsDigits digits) {c : Char} (hc : c ∈ digits) :
    c ≠ '\x7b' := by
  rintro rfl
  exact absurd (h.2 _ hc) (by decide)

/-- A reference ends before the next brace that opens. -/
theorem referenceDigits?_append (cs rest : List Char) :
    referenceDigits? (cs ++ '\x7b' :: rest) = referenceDigits? cs := by
  refine Option.ext fun digits => ?_
  rw [referenceDigits?_eq_some_iff, referenceDigits?_eq_some_iff]
  refine and_congr_right fun hdigits => ⟨?_, ?_⟩
  · rintro ⟨after, h⟩
    rcases List.append_eq_append_iff.1 h with ⟨more, rfl, hmore⟩ | ⟨more, rfl, hmore⟩
    · cases more with
      | nil => cases hmore
      | cons c more =>
        obtain ⟨rfl, -⟩ := List.cons.inj hmore
        exact absurd rfl (hdigits.ne_brace (List.mem_append_right _ List.mem_cons_self))
    · cases more with
      | nil => cases hmore
      | cons c more =>
        obtain ⟨rfl, -⟩ := List.cons.inj hmore
        exact ⟨more, rfl⟩
  · rintro ⟨after, rfl⟩
    exact ⟨after ++ '\x7b' :: rest, by simp⟩

/-! ## Tokens -/

theorem tokensFrom_skip (skip : Nat) (cs : List Char) :
    tokensFrom skip cs = tokensFrom 0 (cs.drop skip) := by
  induction cs generalizing skip with
  | nil => cases skip <;> rfl
  | cons c cs ih =>
    cases skip with
    | zero => rfl
    | succ skip => exact ih skip

theorem tokensFrom_char {c : Char} {cs : List Char}
    (h : c = '\x7b' → referenceDigits? cs = none) :
    tokensFrom 0 (c :: cs) = .char c :: tokensFrom 0 cs := by
  rw [tokensFrom]
  split
  · rename_i hc
    rw [h hc]
  · rfl

theorem tokensFrom_reference {digits : List Char} (h : IsDigits digits) (rest : List Char) :
    tokensFrom 0 ('\x7b' :: (digits ++ '\x7d' :: rest)) =
      .reference digits :: tokensFrom 0 rest := by
  have hdigits : referenceDigits? (digits ++ '\x7d' :: rest) = some digits :=
    referenceDigits?_eq_some_iff.2 ⟨h, rest, rfl⟩
  have hdrop : (digits ++ '\x7d' :: rest).drop (digits.length + 1) = rest := by simp
  rw [tokensFrom, if_pos rfl, hdigits]
  simp only [tokensFrom_skip (digits.length + 1), hdrop]

/-- What holds for a text holds with one more character, or with one more reference, in front. -/
theorem tokensFrom_induction {P : List Char → List Token → Prop} (nil : P [] [])
    (char : ∀ c cs, (c = '\x7b' → referenceDigits? cs = none) → P cs (tokensFrom 0 cs) →
      P (c :: cs) (.char c :: tokensFrom 0 cs))
    (reference : ∀ digits rest, IsDigits digits → P rest (tokensFrom 0 rest) →
      P ('\x7b' :: (digits ++ '\x7d' :: rest)) (.reference digits :: tokensFrom 0 rest))
    (cs : List Char) : P cs (tokensFrom 0 cs) := by
  induction hlength : cs.length using Nat.strongRecOn generalizing cs with
  | _ length ih =>
    cases cs with
    | nil => exact nil
    | cons c cs =>
      by_cases hc : c = '\x7b' → referenceDigits? cs = none
      · rw [tokensFrom_char hc]
        refine char c cs hc (ih cs.length ?_ cs rfl)
        simp [← hlength]
      · obtain ⟨rfl, hsome⟩ := Classical.not_imp.1 hc
        obtain ⟨digits, hdigits⟩ := Option.ne_none_iff_exists'.1 hsome
        obtain ⟨hvalid, rest, rfl⟩ := referenceDigits?_eq_some_iff.1 hdigits
        rw [tokensFrom_reference hvalid]
        refine reference digits rest hvalid (ih rest.length ?_ rest rfl)
        simp [← hlength]
        omega

/-- The text of a token. -/
def tokenText : Token → List Char
  | .char c => [c]
  | .reference digits => '\x7b' :: (digits ++ ['\x7d'])

theorem flatMap_map_char (cs : List Char) : (cs.map Token.char).flatMap tokenText = cs := by
  rw [List.flatMap_map]
  exact List.flatMap_singleton' cs

/-- The tokens of a text have together the same text. -/
theorem flatMap_tokensFrom (cs : List Char) : (tokensFrom 0 cs).flatMap tokenText = cs := by
  induction cs using tokensFrom_induction with
  | nil => rfl
  | char c cs _ ih => rw [List.flatMap_cons, ih]; rfl
  | reference digits rest _ ih => rw [List.flatMap_cons, ih]; simp [tokenText]

theorem isDigits_of_mem {cs digits : List Char} (h : .reference digits ∈ tokensFrom 0 cs) :
    IsDigits digits := by
  induction cs using tokensFrom_induction with
  | nil => cases h
  | char c cs _ ih =>
    rcases List.mem_cons.1 h with h | h
    · cases h
    · exact ih h
  | reference digits' rest hdigits ih =>
    rcases List.mem_cons.1 h with h | h
    · cases h
      exact hdigits
    · exact ih h

/-- A brace that opens begins a new token, whatever stands before it. -/
theorem tokensFrom_append (before rest : List Char) :
    tokensFrom 0 (before ++ '\x7b' :: rest) =
      tokensFrom 0 before ++ tokensFrom 0 ('\x7b' :: rest) := by
  induction before using tokensFrom_induction with
  | nil => rfl
  | char c cs hc ih =>
    have hc' : c = '\x7b' → referenceDigits? (cs ++ '\x7b' :: rest) = none := by
      rwa [referenceDigits?_append]
    rw [List.cons_append, tokensFrom_char hc', ih]
    rfl
  | reference digits more hdigits ih =>
    have htext : '\x7b' :: (digits ++ '\x7d' :: more) ++ '\x7b' :: rest =
        '\x7b' :: (digits ++ '\x7d' :: (more ++ '\x7b' :: rest)) := by simp
    rw [htext, tokensFrom_reference hdigits, ih]
    rfl

/-- The references among the tokens of a text are those of the text. -/
theorem mem_tokensFrom_iff {cs digits : List Char} :
    .reference digits ∈ tokensFrom 0 cs ↔ HasReference cs digits := by
  constructor
  · intro h
    refine ⟨isDigits_of_mem h, ?_⟩
    obtain ⟨before, after, hsplit⟩ := List.append_of_mem h
    refine ⟨before.flatMap tokenText, after.flatMap tokenText, ?_⟩
    have hcs := flatMap_tokensFrom cs
    rw [hsplit, List.flatMap_append, List.flatMap_cons] at hcs
    simpa [tokenText] using hcs.symm
  · rintro ⟨hdigits, before, after, rfl⟩
    rw [tokensFrom_append, tokensFrom_reference hdigits]
    exact List.mem_append_right _ List.mem_cons_self

/-- Reading on behind a token gives the same tokens as reading anew. -/
theorem tokensFrom_of_append_eq {cs : List Char} {before after : List Token}
    (h : tokensFrom 0 cs = before ++ after) : tokensFrom 0 (after.flatMap tokenText) = after := by
  induction cs using tokensFrom_induction generalizing before with
  | nil =>
    obtain ⟨-, rfl⟩ := List.append_eq_nil_iff.1 h.symm
    rfl
  | char c cs hc ih =>
    cases before with
    | nil =>
      rw [List.nil_append] at h
      rw [← h, List.flatMap_cons, flatMap_tokensFrom]
      exact tokensFrom_char hc
    | cons token before => exact ih (List.cons.inj h).2
  | reference digits rest hdigits ih =>
    cases before with
    | nil =>
      rw [List.nil_append] at h
      rw [← h, List.flatMap_cons, flatMap_tokensFrom]
      simpa [tokenText] using tokensFrom_reference hdigits rest
    | cons token before => exact ih (List.cons.inj h).2

/-- Characters in a row that are tokens by themselves have no reference. -/
theorem not_hasReference_of_run {cs run digits : List Char} {before after : List Token}
    (h : tokensFrom 0 cs = before ++ (run.map .char ++ after)) : ¬ HasReference run digits := by
  rintro ⟨hdigits, front, rest, rfl⟩
  rw [List.map_append, List.append_assoc, ← List.append_assoc] at h
  have hread := tokensFrom_of_append_eq h
  rw [List.flatMap_append, flatMap_map_char, List.cons_append, List.append_assoc, List.cons_append,
    tokensFrom_reference hdigits] at hread
  cases hread

theorem tokensFrom_of_not_hasReference {cs : List Char} (h : ∀ digits, ¬ HasReference cs digits) :
    tokensFrom 0 cs = cs.map .char := by
  induction cs using tokensFrom_induction with
  | nil => rfl
  | char c cs _ ih =>
    rw [List.map_cons, ih]
    rintro digits ⟨hdigits, before, after, rfl⟩
    exact h digits ⟨hdigits, c :: before, after, rfl⟩
  | reference digits rest hdigits _ => exact absurd ⟨hdigits, [], rest, rfl⟩ (h digits)

/-! ## Numbers of operands -/

/-- Whether digits are the number of an operand: digits of ASCII that make a number of 64 bits,
which counts the operands from one on. -/
def IsIndex (arity : Nat) (digits : List Char) : Prop :=
  (∀ c ∈ digits, c.isDigit = true) ∧ Text.valueOfDigits digits < UInt64.size ∧
    1 ≤ Text.valueOfDigits digits ∧ Text.valueOfDigits digits ≤ arity

theorem indexOf_eq_ok_iff {text : String} {arity index : Nat} {digits : List Char}
    (hne : digits ≠ []) :
    indexOf text arity digits = .ok index ↔
      IsIndex arity digits ∧ Text.valueOfDigits digits = index + 1 := by
  unfold indexOf Text.natOfDigits? IsIndex
  by_cases hdigits : ∀ c ∈ digits, c.isDigit = true
  · have hread : (digits.isEmpty || !digits.all Char.isDigit) = false := by
      simpa [hne] using hdigits
    rw [hread, if_neg Bool.false_ne_true]
    dsimp only
    split
    · simp only [reduceCtorEq, false_iff]
      omega
    · split
      · simp only [reduceCtorEq, false_iff]
        omega
      · rw [Except.ok.injEq]
        constructor
        · exact fun h => ⟨⟨hdigits, by omega, by omega, by omega⟩, by omega⟩
        · exact fun h => by omega
  · have hread : (digits.isEmpty || !digits.all Char.isDigit) = true := by
      simpa [hne] using hdigits
    rw [hread, if_pos rfl]
    simp [hdigits]

theorem isDecimalDigit_of_isDigit {c : Char} (h : c.isDigit = true) :
    Text.isDecimalDigit c = true := by
  have hrange : 48 ≤ c.toNat ∧ c.toNat ≤ 57 := by
    simpa [Char.isDigit, UInt32.le_iff_toNat_le] using h
  refine List.any_eq_true.2 ⟨0x0030, List.mem_cons_self, ?_⟩
  simp only [Bool.and_eq_true, decide_eq_true_eq]
  omega

theorem IsIndex.isDigits {arity : Nat} {digits : List Char} (h : IsIndex arity digits) :
    IsDigits digits := by
  obtain ⟨hascii, -, hpos, -⟩ := h
  refine ⟨?_, fun c hc => isDecimalDigit_of_isDigit (hascii c hc)⟩
  rintro rfl
  cases hpos

/-- The number of an operand can be written without leading zeros. -/
theorem IsIndex.toDigits {arity index : Nat} {digits : List Char} (h : IsIndex arity digits)
    (hvalue : Text.valueOfDigits digits = index + 1) :
    IsIndex arity (Nat.toDigits 10 (index + 1)) ∧
      Text.valueOfDigits (Nat.toDigits 10 (index + 1)) = index + 1 := by
  have hprinted : Text.valueOfDigits (Nat.toDigits 10 (index + 1)) = index + 1 :=
    Nat.ofDigitChars_ten_toDigits
  obtain ⟨-, hbounds⟩ := h
  rw [hvalue] at hbounds
  rw [IsIndex, hprinted]
  exact ⟨⟨fun c hc => Nat.isDigit_of_mem_toDigits (by omega) (by omega) hc, hbounds⟩, rfl⟩

/-! ## Pieces -/

/-- Whether pieces are what the tokens of a text are gathered to: no text is empty, and no two texts
stand in a row. -/
def IsGathered : List (List Char ⊕ Nat) → Prop
  | [] => True
  | .inr _ :: pieces => IsGathered pieces
  | .inl cs :: pieces => cs ≠ [] ∧ (∀ cs', .inl cs' ∉ pieces.head?) ∧ IsGathered pieces

theorem isGathered_consChar {pieces : List (List Char ⊕ Nat)} (h : IsGathered pieces) (c : Char) :
    IsGathered (consChar c pieces) := by
  cases pieces with
  | nil => exact ⟨by simp, by simp, trivial⟩
  | cons piece pieces =>
    cases piece with
    | inl cs =>
      obtain ⟨-, hnext, hrest⟩ := h
      exact ⟨by simp, hnext, hrest⟩
    | inr index => exact ⟨by simp, by simp, h⟩

/-- The tokens of a piece. -/
def Yields (arity : Nat) : List Char ⊕ Nat → List Token → Prop
  | .inl cs, tokens => tokens = cs.map .char
  | .inr index, tokens => ∃ digits, tokens = [.reference digits] ∧ IsIndex arity digits ∧
      Text.valueOfDigits digits = index + 1

/-- The tokens of pieces with one more character in front. -/
theorem exists_yields_consChar {arity : Nat} {pieces : List (List Char ⊕ Nat)}
    {runs : List (List Token)} (h : List.Forall₂ (Yields arity) pieces runs) (c : Char) :
    ∃ runs', List.Forall₂ (Yields arity) (consChar c pieces) runs' ∧
      runs'.flatten = .char c :: runs.flatten := by
  cases h with
  | nil => exact ⟨[[.char c]], .cons rfl .nil, rfl⟩
  | @cons piece run pieces runs hrun hrest =>
    cases piece with
    | inl cs =>
      refine ⟨(.char c :: run) :: runs, .cons ?_ hrest, rfl⟩
      rw [Yields] at hrun ⊢
      rw [hrun, List.map_cons]
    | inr index => exact ⟨[.char c] :: run :: runs, .cons rfl (.cons hrun hrest), rfl⟩

/-- Tokens are gathered to pieces that have these tokens. -/
theorem gather_eq_ok {text : String} {arity : Nat} {tokens : List Token}
    {pieces : List (List Char ⊕ Nat)} (h : gather text arity tokens = .ok pieces)
    (hdigits : ∀ digits, .reference digits ∈ tokens → IsDigits digits) :
    IsGathered pieces ∧
      ∃ runs, List.Forall₂ (Yields arity) pieces runs ∧ runs.flatten = tokens := by
  induction tokens generalizing pieces with
  | nil =>
    cases h
    exact ⟨trivial, [], .nil, rfl⟩
  | cons token tokens ih =>
    have hrest : ∀ digits, .reference digits ∈ tokens → IsDigits digits :=
      fun digits hmem => hdigits digits (List.mem_cons_of_mem _ hmem)
    cases token with
    | char c =>
      obtain ⟨pieces', hgather, h⟩ := bind_eq_ok_iff.1 h
      cases h
      obtain ⟨hgathered, runs, hruns, rfl⟩ := ih hgather hrest
      exact ⟨isGathered_consChar hgathered c, exists_yields_consChar hruns c⟩
    | reference digits =>
      obtain ⟨index, hindex, h⟩ := bind_eq_ok_iff.1 h
      obtain ⟨pieces', hgather, h⟩ := bind_eq_ok_iff.1 h
      cases h
      obtain ⟨hgathered, runs, hruns, rfl⟩ := ih hgather hrest
      obtain ⟨hnumber, hvalue⟩ := (indexOf_eq_ok_iff (hdigits digits List.mem_cons_self).1).1 hindex
      refine ⟨hgathered, [.reference digits] :: runs, ?_, rfl⟩
      exact .cons ⟨digits, rfl, hnumber, hvalue⟩ hruns

theorem gather_map_char {text : String} {arity : Nat} {tokens : List Token}
    {pieces : List (List Char ⊕ Nat)} (h : gather text arity tokens = .ok pieces)
    {cs : List Char} (hne : cs ≠ []) (hnext : ∀ cs', .inl cs' ∉ pieces.head?) :
    gather text arity (cs.map .char ++ tokens) = .ok (.inl cs :: pieces) := by
  induction cs with
  | nil => exact absurd rfl hne
  | cons c cs ih =>
    refine bind_eq_ok_iff.2 ?_
    by_cases hnil : cs = []
    · subst hnil
      refine ⟨pieces, h, ?_⟩
      cases pieces with
      | nil => rfl
      | cons piece pieces =>
        cases piece with
        | inl cs' => exact absurd rfl (hnext cs')
        | inr index => rfl
    · exact ⟨.inl cs :: pieces, ih hnil, rfl⟩

theorem ne_nil_of_isGathered {pieces : List (List Char ⊕ Nat)} (h : IsGathered pieces)
    {cs : List Char} (hcs : .inl cs ∈ pieces) : cs ≠ [] := by
  induction pieces with
  | nil => cases hcs
  | cons piece pieces ih =>
    cases piece with
    | inl cs' =>
      obtain ⟨hne, -, hrest⟩ := h
      rcases List.mem_cons.1 hcs with hcs | hcs
      · cases hcs
        exact hne
      · exact ih hrest hcs
    | inr index =>
      rcases List.mem_cons.1 hcs with hcs | hcs
      · cases hcs
      · exact ih h hcs

theorem apart_of_isGathered {pieces before after : List (List Char ⊕ Nat)} {cs cs' : List Char}
    (h : IsGathered pieces) : pieces ≠ before ++ .inl cs :: .inl cs' :: after := by
  rintro rfl
  induction before with
  | nil => exact h.2.1 cs' rfl
  | cons piece before ih =>
    cases piece with
    | inl cs'' => exact ih h.2.2
    | inr index => exact ih h

/-! ## Templates and their texts -/

/-- Whether the pieces of a template are those that its text is split into. -/
structure IsCanonical (pieces : List Piece) : Prop where
  ne_empty : ∀ s, .text s ∈ pieces → s ≠ ""
  /-- No two texts stand in a row. -/
  apart : ∀ before s s' after, pieces ≠ before ++ .text s :: .text s' :: after
  free : ∀ s, .text s ∈ pieces → ∀ digits, ¬ HasReference s.toList digits

/-- The characters or the index of a piece. -/
def contentsOf : Piece → List Char ⊕ Nat
  | .text s => .inl s.toList
  | .child index => .inr index

theorem map_contentsOf_map_pieceOf (pieces : List (List Char ⊕ Nat)) :
    (pieces.map pieceOf).map contentsOf = pieces := by
  refine (List.map_map ..).trans (List.map_id'' (fun piece => ?_) pieces)
  cases piece with
  | inl cs => simp [pieceOf, contentsOf]
  | inr index => rfl

theorem map_pieceOf_map_contentsOf (pieces : List Piece) :
    (pieces.map contentsOf).map pieceOf = pieces := by
  refine (List.map_map ..).trans (List.map_id'' (fun piece => ?_) pieces)
  cases piece with
  | text s => simp [pieceOf, contentsOf]
  | child index => rfl

theorem inl_mem_of_text_mem {pieces : List (List Char ⊕ Nat)} {s : String}
    (h : .text s ∈ pieces.map pieceOf) : .inl s.toList ∈ pieces := by
  have hmem := List.mem_map_of_mem (f := contentsOf) h
  rwa [map_contentsOf_map_pieceOf] at hmem

/-- Whether a part of a text stands for a piece: a text for itself, and a reference for the operand
with its number. -/
def Spells (arity : Nat) : Piece → String → Prop
  | .text s, part => part = s
  | .child index, part => ∃ digits, part = referenceText digits ∧ IsIndex arity digits ∧
      Text.valueOfDigits digits = index + 1

theorem toList_referenceText (digits : List Char) :
    (referenceText digits).toList = '\x7b' :: (digits ++ ['\x7d']) := by
  simp [referenceText]

theorem spells_of_yields {arity : Nat} {piece : List Char ⊕ Nat} {run : List Token}
    (h : Yields arity piece run) :
    Spells arity (pieceOf piece) (String.ofList (run.flatMap tokenText)) := by
  cases piece with
  | inl cs =>
    obtain rfl : run = cs.map .char := h
    exact congrArg String.ofList (flatMap_map_char cs)
  | inr index =>
    obtain ⟨digits, rfl, hindex⟩ := h
    refine ⟨digits, ?_, hindex⟩
    rw [← String.toList_inj, toList_referenceText]
    simp [tokenText]

/-- A text is read as a template of which it is a text. -/
theorem spells_of_parse {text : String} {arity : Nat} {t : Template}
    (h : parse text arity = .ok t) :
    IsCanonical t.pieces ∧
      ∃ parts, List.Forall₂ (Spells arity) t.pieces parts ∧ text = String.join parts := by
  obtain ⟨pieces, hgather, ht⟩ := bind_eq_ok_iff.1 h
  cases ht
  obtain ⟨hgathered, runs, hruns, hflatten⟩ := gather_eq_ok hgather fun _ => isDigits_of_mem
  refine ⟨⟨fun s hs => ?_, fun before s s' after heq => ?_, fun s hs digits => ?_⟩, ?_⟩
  · have hne := ne_nil_of_isGathered hgathered (inl_mem_of_text_mem hs)
    rintro rfl
    exact hne rfl
  · have hpieces := congrArg (List.map contentsOf) heq
    simp only [map_contentsOf_map_pieceOf, List.map_append, List.map_cons, contentsOf] at hpieces
    exact apart_of_isGathered hgathered hpieces
  · obtain ⟨run, hrun, hyields⟩ := exists_of_forall₂_of_mem hruns (inl_mem_of_text_mem hs)
    obtain rfl : run = s.toList.map .char := hyields
    obtain ⟨before, after, rfl⟩ := List.append_of_mem hrun
    rw [List.flatten_append, List.flatten_cons] at hflatten
    exact not_hasReference_of_run hflatten.symm
  · refine ⟨runs.map fun run => String.ofList (run.flatMap tokenText), ?_, ?_⟩
    · rw [List.forall₂_map_left_iff, List.forall₂_map_right_iff]
      exact hruns.imp fun _ _ => spells_of_yields
    · have htext := flatMap_tokensFrom text.toList
      rw [← hflatten] at htext
      rw [← String.toList_inj, ← htext, String.toList_join, List.flatten_eq_flatMap,
        List.flatMap_assoc, List.flatMap_map]
      simp only [String.toList_ofList, id_eq]

theorem IsCanonical.tail {piece : Piece} {pieces : List Piece} (h : IsCanonical (piece :: pieces)) :
    IsCanonical pieces where
  ne_empty s hs := h.ne_empty s (List.mem_cons_of_mem _ hs)
  apart before s s' after heq :=
    h.apart (piece :: before) s s' after (by rw [heq, List.cons_append])
  free s hs := h.free s (List.mem_cons_of_mem _ hs)

/-- Behind a text there is nothing, or a reference. -/
theorem tokensFrom_text_append {arity : Nat} {s : String} {pieces : List Piece}
    {parts : List String} (h : IsCanonical (.text s :: pieces))
    (hparts : List.Forall₂ (Spells arity) pieces parts) :
    tokensFrom 0 (s.toList ++ (String.join parts).toList) =
      s.toList.map .char ++ tokensFrom 0 (String.join parts).toList := by
  have hrun := tokensFrom_of_not_hasReference (h.free s List.mem_cons_self)
  cases hparts with
  | nil => simpa [tokensFrom] using hrun
  | @cons piece part pieces parts hpart hrest =>
    cases piece with
    | text s' => exact absurd rfl (h.apart [] s s' pieces)
    | child index =>
      obtain ⟨digits, rfl, -⟩ := hpart
      rw [String.toList_join, List.flatMap_cons, toList_referenceText, List.cons_append,
        tokensFrom_append, hrun]

theorem gather_of_spells {text : String} {arity : Nat} {pieces : List Piece} {parts : List String}
    (h : IsCanonical pieces) (hparts : List.Forall₂ (Spells arity) pieces parts) :
    gather text arity (tokensFrom 0 (String.join parts).toList) = .ok (pieces.map contentsOf) := by
  induction hparts with
  | nil => rfl
  | @cons piece part pieces parts hpart hrest ih =>
    have hgather := ih h.tail
    rw [String.toList_join, List.flatMap_cons, ← String.toList_join]
    cases piece with
    | text s =>
      obtain rfl : part = s := hpart
      rw [tokensFrom_text_append h hrest]
      refine gather_map_char hgather ?_ fun cs' hnext => ?_
      · simpa using h.ne_empty part List.mem_cons_self
      · cases pieces with
        | nil => cases hnext
        | cons piece pieces =>
          cases piece with
          | text s' => exact h.apart [] part s' pieces rfl
          | child index => cases hnext
    | child index =>
      obtain ⟨digits, rfl, hindex, hvalue⟩ := hpart
      rw [toList_referenceText, List.cons_append, List.append_assoc, List.singleton_append,
        tokensFrom_reference hindex.isDigits]
      refine bind_eq_ok_iff.2 ⟨index, ?_, bind_eq_ok_iff.2 ⟨_, hgather, rfl⟩⟩
      exact (indexOf_eq_ok_iff hindex.isDigits.1).2 ⟨hindex, hvalue⟩

/-- A text is read as the template of which it is a text, and can be read only if there is one. -/
theorem parse_eq_ok_iff {text : String} {arity : Nat} {t : Template} :
    parse text arity = .ok t ↔
      IsCanonical t.pieces ∧
        ∃ parts, List.Forall₂ (Spells arity) t.pieces parts ∧ text = String.join parts := by
  constructor
  · exact spells_of_parse
  · rintro ⟨ht, parts, hparts, rfl⟩
    refine bind_eq_ok_iff.2 ⟨_, gather_of_spells ht hparts, ?_⟩
    rw [map_pieceOf_map_contentsOf]

/-- What is printed for a template is one of its texts. -/
theorem spells_pieceText {arity : Nat} {piece : Piece} {part : String}
    (h : Spells arity piece part) : Spells arity piece (pieceText piece) := by
  cases piece with
  | text s => rfl
  | child index =>
    obtain ⟨digits, -, hindex, hvalue⟩ := h
    exact ⟨_, rfl, hindex.toDigits hvalue⟩

theorem parse_text {text : String} {arity : Nat} {t : Template} (h : parse text arity = .ok t) :
    parse t.text arity = .ok t := by
  obtain ⟨ht, parts, hparts, -⟩ := parse_eq_ok_iff.1 h
  refine parse_eq_ok_iff.2 ⟨ht, t.pieces.map pieceText, ?_, rfl⟩
  rw [List.forall₂_map_right_iff, List.forall₂_same]
  intro piece hpiece
  obtain ⟨part, -, hpart⟩ := exists_of_forall₂_of_mem hparts hpiece
  exact spells_pieceText hpart

/-! ## Texts that cannot be read -/

theorem exists_gather_iff {text : String} {arity : Nat} {tokens : List Token} :
    (∃ pieces, gather text arity tokens = .ok pieces) ↔
      ∀ digits, .reference digits ∈ tokens → ∃ index, indexOf text arity digits = .ok index := by
  induction tokens with
  | nil => simp [gather]
  | cons token tokens ih =>
    cases token with
    | char c =>
      have hrest : (∃ pieces, gather text arity (.char c :: tokens) = .ok pieces) ↔
          ∃ pieces, gather text arity tokens = .ok pieces := by
        simp [gather, bind_eq_ok_iff]
      rw [hrest, ih]
      simp
    | reference digits =>
      have hrest : (∃ pieces, gather text arity (.reference digits :: tokens) = .ok pieces) ↔
          (∃ index, indexOf text arity digits = .ok index) ∧
            ∃ pieces, gather text arity tokens = .ok pieces := by
        simp [gather, bind_eq_ok_iff]
      rw [hrest, ih]
      simp

/-- A text can be read if and only if all of its references are numbers of operands. -/
theorem exists_parse_iff {text : String} {arity : Nat} :
    (∃ t, parse text arity = .ok t) ↔
      ∀ digits, HasReference text.toList digits → IsIndex arity digits := by
  have hgather : (∃ t, parse text arity = .ok t) ↔
      ∃ pieces, gather text arity (tokensFrom 0 text.toList) = .ok pieces := by
    simp [parse, bind_eq_ok_iff]
  rw [hgather, exists_gather_iff]
  refine forall_congr' fun digits => ?_
  rw [mem_tokensFrom_iff]
  refine imp_congr_right fun href => ?_
  constructor
  · rintro ⟨index, hindex⟩
    exact ((indexOf_eq_ok_iff href.1.1).1 hindex).1
  · intro hindex
    refine ⟨Text.valueOfDigits digits - 1, (indexOf_eq_ok_iff href.1.1).2 ⟨hindex, ?_⟩⟩
    have hpos := hindex.2.2.1
    omega

/-- Reading a template fails if and only if one of the references in its text is not the number of
an operand. Otherwise the text is cut into operands and texts: no text is empty, contains a
reference or follows another text, and the pieces make up the text again if each operand is written
as the reference that was there. What is printed for the template is read as the same template. -/
theorem parse_cuts_text (text : String) (arity : Nat) :
    ((∃ fault, parse text arity = .error fault) ↔
      ∃ digits, HasReference text.toList digits ∧ ¬ IsIndex arity digits) ∧
    ∀ t, parse text arity = .ok t →
      (∀ index, .child index ∈ t.pieces → index < arity) ∧
      (∀ s, .text s ∈ t.pieces → s ≠ "" ∧ ∀ digits, ¬ HasReference s.toList digits) ∧
      (∀ before s s' after, t.pieces ≠ before ++ .text s :: .text s' :: after) ∧
      (∃ parts, List.Forall₂ (Spells arity) t.pieces parts ∧ text = String.join parts) ∧
      parse t.text arity = .ok t := by
  constructor
  · rw [exists_error_iff, exists_parse_iff]
    push Not
    rfl
  · intro t ht
    obtain ⟨hcanonical, parts, hparts, htext⟩ := spells_of_parse ht
    refine ⟨fun index hindex => ?_, fun s hs => ⟨hcanonical.ne_empty s hs, hcanonical.free s hs⟩,
      hcanonical.apart, ⟨parts, hparts, htext⟩, parse_text ht⟩
    obtain ⟨part, -, digits, -, hnumber, hvalue⟩ := exists_of_forall₂_of_mem hparts hindex
    have hle := hnumber.2.2.2
    omega

/-- Braces around a reference stay text, and its leading zeros are not printed. -/
theorem parse_cuts_text_braces :
    let t : Template := ⟨[.text "\x7b", .child 0, .text "2\x7d", .child 1, .text "\x7b\x7d"]⟩
    parse "\x7b\x7b01\x7d2\x7d\x7b2\x7d\x7b\x7d" 2 = .ok t ∧
      t.text = "\x7b\x7b1\x7d2\x7d\x7b2\x7d\x7b\x7d" ∧ parse t.text 2 = .ok t := by
  intro t
  have hparse : parse "\x7b\x7b01\x7d2\x7d\x7b2\x7d\x7b\x7d" 2 = .ok t := by decide +kernel
  obtain ⟨-, -, -, -, hprinted⟩ := (parse_cuts_text _ _).2 t hparse
  exact ⟨hparse, by decide +kernel, hprinted⟩

end Template

end TypedSql
