import TypedSql.Checked.Check
import TypedSql.Proofs.Emission
import TypedSql.Proofs.Lexing

/-!
# The tokens of a template

A template is laid out flat, as characters with references in between. It fits a dialect if each
reference stands between tokens and is followed by a character that may follow an operand. Whatever
primaries are filled into a template that fits, the result is a primary, and its tokens are those of
the template with the tokens of the operands in place of the references.
-/

namespace TypedSql

namespace Lexer

variable {α β : Type} {d : Dialect} {m : Mode}

/-! ## Filling in -/

/-- Puts lists in place of references. -/
def fillWith (f : α → List β) (xs : List (β ⊕ α)) : List β := xs.flatMap (Sum.elim (fun b => [b]) f)

@[simp] theorem fillWith_nil (f : α → List β) : fillWith f [] = [] := rfl

@[simp] theorem fillWith_inl (f : α → List β) (b : β) (xs : List (β ⊕ α)) :
    fillWith f (.inl b :: xs) = b :: fillWith f xs := rfl

@[simp] theorem fillWith_inr (f : α → List β) (a : α) (xs : List (β ⊕ α)) :
    fillWith f (.inr a :: xs) = f a ++ fillWith f xs := rfl

@[simp] theorem fillWith_append (f : α → List β) (xs ys : List (β ⊕ α)) :
    fillWith f (xs ++ ys) = fillWith f xs ++ fillWith f ys := List.flatMap_append

@[simp] theorem fillWith_map_inl (f : α → List β) (bs : List β) :
    fillWith f (bs.map .inl) = bs := by
  induction bs with
  | nil => rfl
  | cons b bs ih => simp [ih]

/-- Whether an operand may stand behind what the lexer has read: between tokens, or behind a minus
sign. -/
def isReady (m : Mode) : Bool := m = .plain false || m = .mark '-'

/-- Whether the rest of a template may follow an operand. -/
def stopsNext : List (Char ⊕ α) → Bool
  | [] => true
  | .inl c :: _ => isStop c
  | .inr _ :: _ => false

/-- Whether a template has each reference in a place for operands and ends in one as well. -/
def fits (d : Dialect) : Mode → List (Char ⊕ α) → Bool
  | m, [] => m.isSettled
  | m, .inl c :: xs => fits d (step d m c).2 xs
  | m, .inr _ :: xs => isReady m && stopsNext xs && fits d (.plain false) xs

/-- The tokens of a template that fits, with its references in between. -/
def weave (d : Dialect) : Mode → List (Char ⊕ α) → List (Token ⊕ α)
  | m, [] => (flush m).map .inl
  | m, .inl c :: xs => (step d m c).1.map .inl ++ weave d (step d m c).2 xs
  | m, .inr a :: xs => (flush m).map .inl ++ .inr a :: weave d (.plain false) xs

/-- Reading the characters of a template keeps its references and their order. -/
theorem filterMap_weave (m : Mode) (xs : List (Char ⊕ α)) :
    (weave d m xs).filterMap Sum.getRight? = xs.filterMap Sum.getRight? := by
  have htokens : ∀ ts : List Token,
      (ts.map .inl : List (Token ⊕ α)).filterMap Sum.getRight? = [] := by
    intro ts
    simp [List.filterMap_map, Function.comp_def]
  induction xs generalizing m with
  | nil => exact htokens _
  | cons x xs ih =>
    cases x with
    | inl c =>
      rw [weave, List.filterMap_append, htokens, ih]
      rfl
    | inr a =>
      rw [weave, List.filterMap_append, htokens, List.nil_append, List.filterMap_cons,
        List.filterMap_cons, ih]
      rfl

theorem mem_of_inr_mem_weave {xs : List (Char ⊕ α)} {a : α} (h : .inr a ∈ weave d m xs) :
    .inr a ∈ xs := by
  have hmem : a ∈ (weave d m xs).filterMap Sum.getRight? := List.mem_filterMap.2 ⟨_, h, rfl⟩
  rw [filterMap_weave] at hmem
  obtain ⟨x, hx, hxa⟩ := List.mem_filterMap.1 hmem
  rwa [Sum.getRight?_eq_some_iff.1 hxa] at hx

/-- Behind a minus sign, anything but another one begins a new token. -/
theorem scan_mark {zs : List Char} (h : zs.head? ≠ some '-') :
    scan d (.mark '-') zs = flush (.mark '-') ++ tokens d zs := by
  cases zs with
  | nil => simp [scan, tokens, run, flush]
  | cons z zs =>
    have hz : z ≠ '-' := fun hz => h (by rw [hz]; rfl)
    rw [tokens, scan_cons, scan_cons]
    simp [step, resume, flush, hz]

theorem Stops.head_ne {ys : List Char} (h : Stops ys) : ys.head? ≠ some '-' := by
  intro hhead
  cases h '-' hhead

/-- An operand behind which the lexer stops does not begin with a minus sign, even if it is
empty. -/
theorem IsPrimary.head_append {xs ys : List Char} (hxs : IsPrimary d xs) (hys : Stops ys) :
    (xs ++ ys).head? ≠ some '-' := by
  cases xs with
  | nil => exact hys.head_ne
  | cons x xs => exact hxs.head

theorem stops_fillWith {xs : List (Char ⊕ α)} {texts : α → List Char} {ys : List Char}
    (hxs : stopsNext xs = true) (hys : Stops ys) : Stops (fillWith texts xs ++ ys) := by
  cases xs with
  | nil => exact hys
  | cons x xs =>
    cases x with
    | inl c =>
      intro c' hc'
      cases hc'
      exact hxs
    | inr a => cases hxs

/-- Reading a template with primaries filled in gives its own tokens with theirs in between. -/
theorem scan_fillWith {xs : List (Char ⊕ α)} {texts : α → List Char} {ys : List Char}
    (hfits : fits d m xs = true) (htexts : ∀ a, .inr a ∈ xs → IsPrimary d (texts a))
    (hys : Stops ys) :
    scan d m (fillWith texts xs ++ ys) =
      fillWith (fun a => tokens d (texts a)) (weave d m xs) ++ tokens d ys := by
  induction xs generalizing m with
  | nil =>
    rw [weave, fillWith_map_inl]
    exact scan_of_stops hfits hys
  | cons x xs ih =>
    have hrest : ∀ a, .inr a ∈ xs → IsPrimary d (texts a) :=
      fun a ha => htexts a (List.mem_cons_of_mem _ ha)
    cases x with
    | inl c =>
      rw [fillWith_inl, List.cons_append, scan_cons, ih hfits hrest, weave, fillWith_append,
        fillWith_map_inl, List.append_assoc]
    | inr a =>
      simp only [fits, Bool.and_eq_true] at hfits
      obtain ⟨⟨hready, hstops⟩, hfits⟩ := hfits
      have ha : IsPrimary d (texts a) := htexts a List.mem_cons_self
      have hnext : Stops (fillWith texts xs ++ ys) := stops_fillWith hstops hys
      have hoperand : scan d m (texts a ++ (fillWith texts xs ++ ys)) =
          flush m ++ tokens d (texts a ++ (fillWith texts xs ++ ys)) := by
        simp only [isReady, Bool.or_eq_true, decide_eq_true_eq] at hready
        rcases hready with rfl | rfl
        · rfl
        · exact scan_mark (ha.head_append hnext)
      have hbehind : tokens d (fillWith texts xs ++ ys) =
          fillWith (fun a => tokens d (texts a)) (weave d (.plain false) xs) ++ tokens d ys :=
        ih hfits hrest
      rw [fillWith_inr, List.append_assoc, hoperand, ha.closed _ hnext, hbehind, weave,
        fillWith_append, fillWith_map_inl, fillWith_inr]
      simp only [List.append_assoc]

/-- Whether the first character of a template is not a minus sign. -/
def startsPlain : List (Char ⊕ α) → Bool
  | .inl c :: _ => c ≠ '-'
  | _ => true

/-- Whether primaries that are filled into a template make a primary again. -/
def isSound (d : Dialect) (xs : List (Char ⊕ α)) : Bool :=
  startsPlain xs && fits d (.plain false) xs

section Sound

variable {xs : List (Char ⊕ α)} {texts : α → List Char}

theorem tokens_fillWith (hxs : isSound d xs = true)
    (htexts : ∀ a, .inr a ∈ xs → IsPrimary d (texts a)) :
    tokens d (fillWith texts xs) =
      fillWith (fun a => tokens d (texts a)) (weave d (.plain false) xs) := by
  have hfits : fits d (.plain false) xs = true := (Bool.and_eq_true _ _ ▸ hxs).2
  have hnil : Stops [] := by simp [Stops]
  simpa [tokens, scan, run, flush] using scan_fillWith hfits htexts hnil

theorem isPrimary_fillWith (hxs : isSound d xs = true)
    (htexts : ∀ a, .inr a ∈ xs → IsPrimary d (texts a)) : IsPrimary d (fillWith texts xs) := by
  have htokens := tokens_fillWith hxs htexts
  rw [isSound, Bool.and_eq_true] at hxs
  refine ⟨?_, fun ys hys => ?_⟩
  · cases xs with
    | nil => simp
    | cons x xs =>
      cases x with
      | inl c => simpa [startsPlain] using hxs.1
      | inr a =>
        have hstops : stopsNext xs = true := by
          have hfits := hxs.2
          simp only [fits, Bool.and_eq_true] at hfits
          exact hfits.1.2
        have hnext : Stops (fillWith texts xs ++ []) := stops_fillWith hstops (by simp [Stops])
        rw [List.append_nil] at hnext
        exact (htexts a List.mem_cons_self).head_append hnext
  · rw [htokens]
    exact scan_fillWith hxs.2 htexts hys

end Sound

/-! ## Putting templates together -/

theorem stopsNext_map (f : α → β) (xs : List (Char ⊕ α)) :
    stopsNext (xs.map (Sum.map id f)) = stopsNext xs := by
  cases xs with
  | nil => rfl
  | cons x xs => cases x <;> rfl

/-- Whether a template fits does not depend on what its references refer to. -/
theorem fits_map (f : α → β) (m : Mode) (xs : List (Char ⊕ α)) :
    fits d m (xs.map (Sum.map id f)) = fits d m xs := by
  induction xs generalizing m with
  | nil => rfl
  | cons x xs ih =>
    cases x with
    | inl c => exact ih (step d m c).2
    | inr a => simp [fits, ih, stopsNext_map]

theorem isSound_map (f : α → β) (xs : List (Char ⊕ α)) :
    isSound d (xs.map (Sum.map id f)) = isSound d xs := by
  have hstarts : startsPlain (xs.map (Sum.map id f)) = startsPlain xs := by
    cases xs with
    | nil => rfl
    | cons x xs => cases x <;> rfl
  rw [isSound, isSound, hstarts, fits_map]

theorem fits_map_inl (m : Mode) (cs : List Char) (xs : List (Char ⊕ α)) :
    fits d m (cs.map .inl ++ xs) = fits d (run d m cs).2 xs := by
  induction cs generalizing m with
  | nil => rfl
  | cons c cs ih => exact ih (step d m c).2

/-- A template that fits can be followed by one that begins with a character that may follow an
operand. -/
theorem fits_append {xs ys : List (Char ⊕ α)} {c : Char} (hxs : fits d m xs = true)
    (hc : isStop c = true) (hys : fits d (.plain false) (.inl c :: ys) = true) :
    fits d m (xs ++ .inl c :: ys) = true := by
  induction xs generalizing m with
  | nil =>
    rw [fits, step_stop rfl hc] at hys
    rw [List.nil_append, fits, step_stop hxs hc]
    exact hys
  | cons x xs ih =>
    cases x with
    | inl x => exact ih hxs
    | inr a =>
      simp only [fits, Bool.and_eq_true] at hxs
      have hstops : stopsNext (xs ++ .inl c :: ys) = true := by
        cases xs with
        | nil => exact hc
        | cons x xs =>
          cases x with
          | inl x => exact hxs.1.2
          | inr a => exact absurd hxs.1.2 (by simp [stopsNext])
      simp only [List.cons_append, fits, Bool.and_eq_true]
      exact ⟨⟨hxs.1.1, hstops⟩, ih hxs.2⟩

end Lexer

/-! ## Templates of rules -/

open Lexer (fillWith isSound)

namespace Template

/-- A piece of a template, laid out flat. -/
def pieceItems : Piece → List (Char ⊕ Nat)
  | .text text => text.toList.map .inl
  | .child index => [.inr index]

/-- A template, laid out flat: its characters and its references. -/
def items (t : Template) : List (Char ⊕ Nat) := t.pieces.flatMap pieceItems

/-- The operands that a template refers to, in the order of the references. -/
def references (t : Template) : List Nat :=
  t.pieces.filterMap fun
    | .text _ => none
    | .child index => some index

theorem filterMap_items (t : Template) : t.items.filterMap Sum.getRight? = t.references := by
  obtain ⟨pieces⟩ := t
  induction pieces with
  | nil => rfl
  | cons piece pieces ih =>
    simp only [items, references, List.flatMap_cons, List.filterMap_append] at ih ⊢
    rw [ih]
    cases piece <;> simp [pieceItems, List.filterMap_map, Function.comp_def]

theorem mem_references {t : Template} {k : Nat} : k ∈ t.references ↔ .inr k ∈ t.items := by
  rw [← filterMap_items, List.mem_filterMap]
  constructor
  · rintro ⟨x, hx, hk⟩
    rwa [Sum.getRight?_eq_some_iff.1 hk] at hx
  · exact fun hk => ⟨_, hk, rfl⟩

/-- The characters of an operand. -/
def operandChars (operands : List (Except TypedSql.Fault String)) (index : Nat) : List Char :=
  match operands[index]? with
  | some (.ok text) => text.toList
  | _ => []

theorem fillPieces_eq_ok {t : Template} {operands : List (Except TypedSql.Fault String)}
    {pieces : List Piece} {sql : String} (h : t.fillPieces operands pieces = .ok sql) :
    sql.toList = fillWith (operandChars operands) (pieces.flatMap pieceItems) ∧
      ∀ index, .inr index ∈ pieces.flatMap pieceItems →
        ∃ text, operands[index]? = some (.ok text) := by
  induction pieces generalizing sql with
  | nil =>
    cases h
    exact ⟨rfl, by simp⟩
  | cons piece pieces ih =>
    obtain ⟨first, hfirst, h⟩ := bind_eq_ok_iff.1 h
    obtain ⟨rest, hrest, h⟩ := bind_eq_ok_iff.1 h
    cases h
    obtain ⟨hchars, hoperands⟩ := ih hrest
    rw [List.flatMap_cons, Lexer.fillWith_append, String.toList_append, hchars]
    cases piece with
    | text text =>
      cases hfirst
      refine ⟨by simp [pieceItems], fun index hindex => hoperands index ?_⟩
      simpa [pieceItems] using hindex
    | child index =>
      obtain ⟨text, htext⟩ : ∃ text, operands[index]? = some (.ok text) := by
        rw [fillPiece] at hfirst
        cases hindex : operands[index]? with
        | none =>
          rw [hindex] at hfirst
          cases hfirst
        | some operand =>
          rw [hindex] at hfirst
          cases operand with
          | error fault => cases hfirst
          | ok text => exact ⟨text, rfl⟩
      have hsame : first = text := by
        rw [fillPiece, htext] at hfirst
        exact (Except.ok.inj hfirst).symm
      refine ⟨by simp [pieceItems, operandChars, htext, hsame], fun i hi => ?_⟩
      simp only [pieceItems, List.mem_append, List.mem_singleton, Sum.inr.injEq] at hi
      rcases hi with rfl | hi
      · exact ⟨text, htext⟩
      · exact hoperands i hi

/-- The text of a template is made of its characters and those of its operands. -/
theorem fill_eq_ok {t : Template} {operands : List (Except TypedSql.Fault String)} {sql : String}
    (h : t.fill operands = .ok sql) :
    sql.toList = fillWith (operandChars operands) t.items ∧
      ∀ index, .inr index ∈ t.items → ∃ text, operands[index]? = some (.ok text) :=
  fillPieces_eq_ok h

/-- If pieces cannot be filled, then one of them refers to an operand that is not there, or to one
that has this fault. -/
theorem fillPieces_eq_error {t : Template} {operands : List (Except TypedSql.Fault String)}
    {pieces : List Piece} {fault : TypedSql.Fault}
    (h : t.fillPieces operands pieces = .error fault) :
    ∃ index, .inr index ∈ pieces.flatMap pieceItems ∧
      (operands[index]? = none ∨ operands[index]? = some (.error fault)) := by
  induction pieces with
  | nil => cases h
  | cons piece pieces ih =>
    rw [fillPieces] at h
    cases hfirst : t.fillPiece operands piece with
    | ok first =>
      have hrest : t.fillPieces operands pieces = .error fault := by
        rw [hfirst] at h
        cases hpieces : t.fillPieces operands pieces with
        | ok rest =>
          rw [hpieces] at h
          cases h
        | error fault' =>
          rw [hpieces] at h
          cases h
          rfl
      obtain ⟨index, hindex, hoperand⟩ := ih hrest
      exact ⟨index, List.mem_append_right _ hindex, hoperand⟩
    | error fault' =>
      rw [hfirst] at h
      cases h
      cases piece with
      | text text => cases hfirst
      | child index =>
        refine ⟨index, List.mem_append_left _ (List.mem_singleton.2 rfl), ?_⟩
        rw [fillPiece] at hfirst
        cases hindex : operands[index]? with
        | none => exact Or.inl rfl
        | some operand =>
          rw [hindex, Option.getD_some] at hfirst
          exact Or.inr (congrArg some hfirst)

theorem fill_eq_error {t : Template} {operands : List (Except TypedSql.Fault String)}
    {fault : TypedSql.Fault} (h : t.fill operands = .error fault) :
    ∃ index, .inr index ∈ t.items ∧
      (operands[index]? = none ∨ operands[index]? = some (.error fault)) :=
  fillPieces_eq_error h

/-- A template can be filled if all operands that it refers to are there. -/
theorem exists_fill {t : Template} {operands : List (Except TypedSql.Fault String)}
    (h : ∀ index, .inr index ∈ t.items → ∃ text, operands[index]? = some (.ok text)) :
    ∃ sql, t.fill operands = .ok sql := by
  cases hfill : t.fill operands with
  | ok sql => exact ⟨sql, rfl⟩
  | error fault =>
    obtain ⟨index, hindex, hoperand⟩ := fill_eq_error hfill
    obtain ⟨text, htext⟩ := h index hindex
    simp [htext] at hoperand

/-- A character or a reference of the text of a template. -/
def tokenItem : Token → Char ⊕ List Char
  | .char c => .inl c
  | .reference digits => .inr digits

/-- The text of a template, laid out flat, with the digits of its references. -/
def layout (text : List Char) : List (Char ⊕ List Char) := (tokensFrom 0 text).map tokenItem

/-- The index of the operand that the digits of a reference denote, if they do. -/
def indexD (text : String) (arity : Nat) (digits : List Char) : Nat :=
  (indexOf text arity digits).toOption.getD 0

theorem flatMap_consChar (c : Char) (pieces : List (List Char ⊕ Nat)) :
    ((consChar c pieces).map pieceOf).flatMap pieceItems =
      .inl c :: (pieces.map pieceOf).flatMap pieceItems := by
  cases pieces with
  | nil => simp [consChar, pieceOf, pieceItems]
  | cons piece pieces => cases piece <;> simp [consChar, pieceOf, pieceItems]

theorem flatMap_gather {text : String} {arity : Nat} {tokens : List Token}
    {pieces : List (List Char ⊕ Nat)} (h : gather text arity tokens = .ok pieces) :
    (pieces.map pieceOf).flatMap pieceItems =
      (tokens.map tokenItem).map (Sum.map id (indexD text arity)) := by
  induction tokens generalizing pieces with
  | nil =>
    cases h
    rfl
  | cons token tokens ih =>
    cases token with
    | char c =>
      obtain ⟨rest, hrest, h⟩ := bind_eq_ok_iff.1 h
      cases h
      rw [flatMap_consChar, ih hrest]
      rfl
    | reference digits =>
      obtain ⟨index, hindex, h⟩ := bind_eq_ok_iff.1 h
      obtain ⟨rest, hrest, h⟩ := bind_eq_ok_iff.1 h
      cases h
      have hitem : indexD text arity digits = index := by simp [indexD, hindex, Except.toOption]
      rw [List.map_cons, List.flatMap_cons, ih hrest, List.map_cons, List.map_cons, tokenItem]
      simp [pieceOf, pieceItems, hitem]

/-- Reading a template keeps its layout. -/
theorem items_of_parse {text : String} {arity : Nat} {t : Template}
    (h : parse text arity = .ok t) :
    t.items = (layout text.toList).map (Sum.map id (indexD text arity)) := by
  obtain ⟨pieces, hpieces, h⟩ := bind_eq_ok_iff.1 h
  cases h
  exact flatMap_gather hpieces

/-- Whether all references of a template are below the given number of operands. -/
def InRange (t : Template) (arity : Nat) : Prop := ∀ k, .inr k ∈ t.items → k < arity

theorem lt_of_indexOf {text : String} {arity index : Nat} {digits : List Char}
    (h : indexOf text arity digits = .ok index) : index < arity := by
  unfold indexOf at h
  split at h
  · cases h
  · split at h
    · cases h
    · split at h
      · cases h
      · cases h
        omega

theorem lt_of_gather {text : String} {arity : Nat} {tokens : List Token}
    {pieces : List (List Char ⊕ Nat)} (h : gather text arity tokens = .ok pieces) :
    ∀ k, .inr k ∈ (pieces.map pieceOf).flatMap pieceItems → k < arity := by
  induction tokens generalizing pieces with
  | nil =>
    cases h
    simp
  | cons token tokens ih =>
    cases token with
    | char c =>
      obtain ⟨rest, hrest, h⟩ := bind_eq_ok_iff.1 h
      cases h
      intro k hk
      rw [flatMap_consChar, List.mem_cons] at hk
      rcases hk with hk | hk
      · cases hk
      · exact ih hrest k hk
    | reference digits =>
      obtain ⟨index, hindex, h⟩ := bind_eq_ok_iff.1 h
      obtain ⟨rest, hrest, h⟩ := bind_eq_ok_iff.1 h
      cases h
      intro k hk
      rw [List.map_cons, List.flatMap_cons, List.mem_append] at hk
      rcases hk with hk | hk
      · cases List.mem_singleton.1 hk
        exact lt_of_indexOf hindex
      · exact ih hrest k hk

/-- A template that could be read refers to its operands only. -/
theorem inRange_of_parse {text : String} {arity : Nat} {t : Template}
    (h : parse text arity = .ok t) : t.InRange arity := by
  obtain ⟨pieces, hpieces, h⟩ := bind_eq_ok_iff.1 h
  cases h
  exact lt_of_gather hpieces

theorem items_remap (mapping : List Nat) (t : Template) :
    (t.remap mapping).items = t.items.map (Sum.map id fun index => mapping.getD index index) := by
  obtain ⟨pieces⟩ := t
  induction pieces with
  | nil => rfl
  | cons piece pieces ih =>
    simp only [remap, items, List.map_cons, List.flatMap_cons, List.map_append] at ih ⊢
    rw [ih]
    cases piece <;> simp [pieceItems]

/-- A template that refers to other operands has its references in the same places. -/
theorem fits_remap {d : Dialect} {t : Template} (h : isSound d t.items = true)
    (mapping : List Nat) : Lexer.fits d (.plain false) (t.remap mapping).items = true := by
  rw [items_remap, Lexer.fits_map]
  rw [isSound, Bool.and_eq_true] at h
  exact h.2

end Template

/-- The template of a conditional, laid out flat. -/
theorem items_conditionalTemplate (truth : Template) :
    (conditionalTemplate truth).items =
      ['(', 'c', 'a', 's', 'e', ' ', 'w', 'h', 'e', 'n', ' '].map .inl ++
        ((truth.remap [1]).items ++ .inl ' ' ::
          (['=', ' ', '1', ' ', 't', 'h', 'e', 'n', ' '].map .inl ++ .inr 0 ::
            ([' ', 'e', 'l', 's', 'e', ' '].map .inl ++ .inr 2 ::
              [' ', 'e', 'n', 'd', ')'].map .inl))) := by
  have hopening : "(case when ".toList =
      ['(', 'c', 'a', 's', 'e', ' ', 'w', 'h', 'e', 'n', ' '] := by
    rw [String.toList_ofList]
  have hthen : " = 1 then ".toList = [' ', '=', ' ', '1', ' ', 't', 'h', 'e', 'n', ' '] := by
    rw [String.toList_ofList]
  have helse : " else ".toList = [' ', 'e', 'l', 's', 'e', ' '] := by rw [String.toList_ofList]
  have hend : " end)".toList = [' ', 'e', 'n', 'd', ')'] := by rw [String.toList_ofList]
  simp [conditionalTemplate, Template.items, Template.pieceItems, hopening, hthen, helse, hend]

/-- The template of a conditional is sound if the truth template is. -/
theorem isSound_conditionalTemplate {d : Dialect} {truth : Template}
    (h : isSound d truth.items = true) : isSound d (conditionalTemplate truth).items = true := by
  have hmode : (Lexer.run d (.plain false)
      ['(', 'c', 'a', 's', 'e', ' ', 'w', 'h', 'e', 'n', ' ']).2 = .plain false := by
    cases d <;> decide
  rw [items_conditionalTemplate, isSound, Bool.and_eq_true, Lexer.fits_map_inl, hmode]
  refine ⟨rfl, Lexer.fits_append (Template.fits_remap h [1]) rfl ?_⟩
  cases d <;> decide

end TypedSql
