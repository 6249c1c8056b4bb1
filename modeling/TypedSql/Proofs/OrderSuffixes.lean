import Mathlib.Data.List.DropRight
import TypedSql.Query.Statement

/-!
# What stands behind the expression of an order

The direction and the place of nulls of an `order by` entry are read off the end of its text. What
is left is an expression without white space at its end, and a direction or a place of nulls that
could be read off it would have been read. Such an expression, written with its direction and its
place of nulls, is therefore split into the same parts again.
-/

namespace TypedSql

/-! ## White space at the end -/

namespace Text

/-- Whether a text consists of white space. -/
def IsBlank (cs : List Char) : Prop := ∀ c ∈ cs, isBlank c = true

/-- Whether a text has no white space at its end. -/
def IsTrimmed (cs : List Char) : Prop := ∀ c, cs.getLast? = some c → isBlank c = false

theorem trimEnd_eq_rdropWhile (cs : List Char) : trimEnd cs = cs.rdropWhile isBlank := by
  induction cs with
  | nil => rfl
  | cons c cs ih =>
    rw [trimEnd, ih, List.rdropWhile, List.rdropWhile, List.reverse_cons, List.dropWhile_append]
    cases hrest : cs.reverse.dropWhile isBlank with
    | nil =>
      cases hc : isBlank c <;> simp [hc]
    | cons d rest => simp

theorem trimEnd_of_isTrimmed {cs : List Char} (h : IsTrimmed cs) : trimEnd cs = cs := by
  rw [trimEnd_eq_rdropWhile, List.rdropWhile_eq_self_iff]
  intro hne
  rw [h _ (List.getLast?_eq_some_getLast hne)]
  exact Bool.false_ne_true

theorem isTrimmed_trimEnd (cs : List Char) : IsTrimmed (trimEnd cs) := by
  intro c hc
  rw [trimEnd_eq_rdropWhile] at hc
  have hne : cs.rdropWhile isBlank ≠ [] := by
    intro hnil
    rw [hnil] at hc
    cases hc
  rw [List.getLast?_eq_some_getLast hne] at hc
  cases hc
  exact Bool.eq_false_iff.2 (List.rdropWhile_last_not isBlank cs hne)

/-- Trimming takes white space off, and nothing else. -/
theorem exists_blank_of_trimEnd (cs : List Char) :
    ∃ blank, IsBlank blank ∧ cs = trimEnd cs ++ blank := by
  refine ⟨cs.rtakeWhile isBlank, fun c hc => List.mem_rtakeWhile_imp hc, ?_⟩
  rw [trimEnd_eq_rdropWhile, List.rdropWhile_append_rtakeWhile]

theorem trimEnd_append_of_isBlank {cs blank : List Char} (hcs : IsTrimmed cs)
    (hblank : IsBlank blank) : trimEnd (cs ++ blank) = cs := by
  induction blank using List.reverseRecOn with
  | nil => rw [List.append_nil, trimEnd_of_isTrimmed hcs]
  | append_singleton blank c ih =>
    have hc : isBlank c = true := hblank c (by simp)
    rw [trimEnd_eq_rdropWhile, ← List.append_assoc, List.rdropWhile_concat_pos _ _ _ hc,
      ← trimEnd_eq_rdropWhile]
    exact ih fun d hd => hblank d (by simp [hd])

/-- Lower case differs only for the capital letters, whose code points it moves by 32. -/
theorem toLower_cases (c : Char) :
    c.toLower = c ∨ 65 ≤ c.toNat ∧ c.toNat ≤ 90 ∧ c.toLower.toNat = c.toNat + 32 := by
  by_cases hupper : c.val ≥ 'A'.val ∧ c.val ≤ 'Z'.val
  · have hle : 65 ≤ c.toNat := UInt32.le_iff_toNat_le.1 hupper.1
    have hge : c.toNat ≤ 90 := UInt32.le_iff_toNat_le.1 hupper.2
    have hval : c.toLower.val = c.val + 32 := congrArg Char.val (dif_pos hupper)
    have hlower : c.toLower.toNat = (c.toNat + 32) % 4294967296 := congrArg UInt32.toNat hval
    exact Or.inr ⟨hle, hge, by omega⟩
  · exact Or.inl (dif_neg hupper)

/-- White space has no upper and lower case. -/
theorem toLower_eq_self_of_isBlank {c : Char} (h : isBlank c = true ∨ isBlank c.toLower = true) :
    c.toLower = c := by
  rcases toLower_cases c with heq | ⟨hle, hge, hlower⟩
  · exact heq
  · simp only [isBlank, blankRanges, List.any_cons, List.any_nil, Bool.or_eq_true, Bool.and_eq_true,
      decide_eq_true_eq, Bool.false_eq_true, or_false] at h
    omega

theorem isTrimmed_of_map_toLower {cs : List Char} (h : IsTrimmed (cs.map Char.toLower)) :
    IsTrimmed cs := by
  intro c hc
  refine Bool.eq_false_iff.2 fun hblank => ?_
  have hlower : isBlank c.toLower = false := h _ (by rw [List.getLast?_map, hc, Option.map_some])
  rw [toLower_eq_self_of_isBlank (Or.inl hblank), hblank] at hlower
  cases hlower

theorem IsTrimmed.append {front cs : List Char} (h : IsTrimmed cs) (hne : cs ≠ []) :
    IsTrimmed (front ++ cs) := by
  intro c hc
  rw [List.getLast?_append_of_ne_nil _ hne] at hc
  exact h c hc

end Text

namespace Order

open Text

/-! ## Endings -/

theorem dropEnding_eq_some_iff {ending cs rest : List Char} :
    dropEnding ending cs = some rest ↔
      ∃ word, cs = rest ++ word ∧ word.map Char.toLower = ending := by
  unfold dropEnding
  constructor
  · intro h
    split at h
    · rename_i hword
      cases h
      exact ⟨_, (List.take_append_drop _ cs).symm, hword.2⟩
    · cases h
  · rintro ⟨word, rfl, rfl⟩
    have hlength : (rest ++ word).length - (word.map Char.toLower).length = rest.length := by simp
    rw [hlength, List.drop_left, List.take_left, if_pos]
    simp

theorem dropEnding_eq_none_iff {ending cs : List Char} :
    dropEnding ending cs = none ↔ ¬ ending <:+ cs.map Char.toLower := by
  rw [List.suffix_map_iff, Option.eq_none_iff_forall_ne_some]
  constructor
  · rintro h ⟨word, ⟨rest, rfl⟩, rfl⟩
    exact h rest (dropEnding_eq_some_iff.2 ⟨word, rfl, rfl⟩)
  · intro h rest hrest
    obtain ⟨word, rfl, rfl⟩ := dropEnding_eq_some_iff.1 hrest
    exact h ⟨word, List.suffix_append rest word, rfl⟩

variable {α : Type}

/-- Either a text has none of the endings and is left as it is, or one of the endings is split off
together with the white space before it. -/
theorem splitEnding_cases (endings : List (List Char × α)) (cs : List Char) :
    (splitEnding endings cs = (cs, none) ∧ ∀ p ∈ endings, ¬ p.1 <:+ cs.map Char.toLower) ∨
      ∃ front word value, (word.map Char.toLower, value) ∈ endings ∧ cs = front ++ word ∧
        splitEnding endings cs = (trimEnd front, some value) := by
  induction endings with
  | nil => exact Or.inl ⟨rfl, by simp⟩
  | cons p endings ih =>
    obtain ⟨ending, value⟩ := p
    rw [splitEnding]
    cases hdrop : dropEnding ending cs with
    | some front =>
      obtain ⟨word, rfl, rfl⟩ := dropEnding_eq_some_iff.1 hdrop
      exact Or.inr ⟨front, word, value, List.mem_cons_self, rfl, rfl⟩
    | none =>
      rcases ih with ⟨hsplit, hnone⟩ | ⟨front, word, value', hmem, hcs, hsplit⟩
      · refine Or.inl ⟨hsplit, fun p hp => ?_⟩
        rcases List.mem_cons.1 hp with rfl | hp
        · exact dropEnding_eq_none_iff.1 hdrop
        · exact hnone p hp
      · exact Or.inr ⟨front, word, value', List.mem_cons_of_mem _ hmem, hcs, hsplit⟩

theorem splitEnding_of_forall_not {endings : List (List Char × α)} {cs : List Char}
    (h : ∀ p ∈ endings, ¬ p.1 <:+ cs.map Char.toLower) : splitEnding endings cs = (cs, none) := by
  rcases splitEnding_cases endings cs with ⟨hsplit, -⟩ | ⟨front, word, value, hmem, rfl, -⟩
  · exact hsplit
  · refine absurd ?_ (h _ hmem)
    rw [List.map_append]
    exact List.suffix_append _ _

/-- Whether no ending is the end of another one, so that a text has one of them at most. -/
def AreApart (endings : List (List Char × α)) : Prop :=
  ∀ p ∈ endings, ∀ p' ∈ endings, p.1 <:+ p'.1 → p = p'

theorem areApart_of_words {endings : List (List Char × α)} (words : α → String)
    (hwords : ∀ p ∈ endings, p.1 = ' ' :: (words p.2).toList)
    (h : ∀ a b, ' ' :: (words a).toList <:+ ' ' :: (words b).toList → a = b) :
    AreApart endings := by
  intro p hp p' hp' hends
  have hsame : p.2 = p'.2 := by
    rw [hwords p hp, hwords p' hp'] at hends
    exact h p.2 p'.2 hends
  refine Prod.ext ?_ hsame
  rw [hwords p hp, hwords p' hp', hsame]

theorem splitEnding_append {endings : List (List Char × α)} {front word : List Char} {value : α}
    (hapart : AreApart endings) (hmem : (word.map Char.toLower, value) ∈ endings) :
    splitEnding endings (front ++ word) = (trimEnd front, some value) := by
  have hends : word.map Char.toLower <:+ (front ++ word).map Char.toLower := by
    rw [List.map_append]
    exact List.suffix_append _ _
  rcases splitEnding_cases endings (front ++ word) with
    ⟨-, hnone⟩ | ⟨front', word', value', hmem', hcs, hsplit⟩
  · exact absurd hends (hnone _ hmem)
  · have hends' : word'.map Char.toLower <:+ (front ++ word).map Char.toLower := by
      rw [hcs, List.map_append]
      exact List.suffix_append _ _
    have hsame : (word.map Char.toLower, value) = (word'.map Char.toLower, value') := by
      rcases List.suffix_or_suffix_of_suffix hends hends' with h | h
      · exact hapart _ hmem _ hmem' h
      · exact (hapart _ hmem' _ hmem h).symm
    obtain ⟨hwords, rfl⟩ := Prod.mk.inj hsame
    have hlength : word.length = word'.length := by simpa using congrArg List.length hwords
    obtain ⟨rfl, -⟩ := List.append_inj' hcs hlength
    exact hsplit

/-! ## Words behind an expression -/

/-- Whether a text has words in any mixture of upper and lower case, behind white space that ends in
a space. Where there are no words to write, the text is empty. -/
def Writes (words : Option String) (cs : List Char) : Prop :=
  match words with
  | none => cs = []
  | some words =>
    ∃ blank word, cs = blank ++ ' ' :: word ∧ IsBlank blank ∧ word.map Char.toLower = words.toList

theorem writes_some_iff {words : String} {cs : List Char} :
    Writes (some words) cs ↔
      ∃ blank word, cs = blank ++ word ∧ IsBlank blank ∧
        word.map Char.toLower = ' ' :: words.toList := by
  constructor
  · rintro ⟨blank, word, hcs, hblank, hword⟩
    exact ⟨blank, ' ' :: word, hcs, hblank, by rw [List.map_cons, hword]; rfl⟩
  · rintro ⟨blank, word, rfl, hblank, hword⟩
    cases word with
    | nil => cases hword
    | cons c word =>
      rw [List.map_cons] at hword
      obtain ⟨hc, hword⟩ := List.cons.inj hword
      -- only a space is a space in lower case
      have hspace : c.toLower = c := toLower_eq_self_of_isBlank (Or.inr (by rw [hc]; rfl))
      rw [hspace] at hc
      exact ⟨blank, word, by rw [hc], hblank, hword⟩

theorem isTrimmed_append_of_writes {words : Option String} {front cs : List Char}
    (hfront : IsTrimmed front) (hcs : Writes words cs)
    (hwords : ∀ w ∈ words, IsTrimmed (' ' :: w.toList)) : IsTrimmed (front ++ cs) := by
  cases words with
  | none =>
    obtain rfl : cs = [] := hcs
    rwa [List.append_nil]
  | some w =>
    obtain ⟨blank, word, rfl, -, hword⟩ := writes_some_iff.1 hcs
    have hne : word ≠ [] := by
      rintro rfl
      cases hword
    have htrimmed : IsTrimmed word := by
      refine isTrimmed_of_map_toLower ?_
      rw [hword]
      exact hwords w rfl
    rw [← List.append_assoc]
    exact htrimmed.append hne

/-- Words that are written behind an expression are split off it. -/
theorem splitEnding_append_of_writes {endings : List (List Char × α)} {words : String} {value : α}
    {front cs : List Char} (hapart : AreApart endings)
    (hmem : (' ' :: words.toList, value) ∈ endings) (hfront : IsTrimmed front)
    (hcs : Writes (some words) cs) :
    splitEnding endings (front ++ cs) = (front, some value) := by
  obtain ⟨blank, word, rfl, hblank, hword⟩ := writes_some_iff.1 hcs
  rw [← hword] at hmem
  rw [← List.append_assoc, splitEnding_append hapart hmem, trimEnd_append_of_isBlank hfront hblank]

/-- What is split off an expression are words that are written behind it. -/
theorem exists_writes_of_splitEnding {endings : List (List Char × α)} (words : α → String)
    (hwords : ∀ p ∈ endings, p.1 = ' ' :: (words p.2).toList) {cs : List Char}
    (hcs : IsTrimmed cs) :
    ∃ front text value, splitEnding endings cs = (front, value) ∧ cs = front ++ text ∧
      Writes (value.map words) text ∧ IsTrimmed front ∧
      (value = none → ∀ p ∈ endings, ¬ p.1 <:+ front.map Char.toLower) := by
  rcases splitEnding_cases endings cs with ⟨hsplit, hnone⟩ | ⟨front, word, value, hmem, rfl, hsplit⟩
  · exact ⟨cs, [], none, hsplit, (List.append_nil cs).symm, rfl, hcs, fun _ => hnone⟩
  · obtain ⟨blank, hblank, hfront⟩ := exists_blank_of_trimEnd front
    refine ⟨trimEnd front, blank ++ word, some value, hsplit, ?_, ?_, isTrimmed_trimEnd front, ?_⟩
    · rw [← List.append_assoc, ← hfront]
    · exact writes_some_iff.2 ⟨blank, word, rfl, hblank, hwords _ hmem⟩
    · exact fun h => by cases h

end Order

/-- The words for a place of nulls. -/
def Nulls.words (n : Nulls) : String := "nulls " ++ n.name

namespace Order

open Text

theorem mem_directionEndings_iff {ending : List Char} {d : Direction} :
    (ending, d) ∈ directionEndings ↔ ending = ' ' :: d.name.toList := by
  have hsuffix : d.suffix.toList = ' ' :: d.name.toList := by simp [Direction.suffix]
  rw [← hsuffix]
  cases d <;> simp [directionEndings]

theorem mem_nullsEndings_iff {ending : List Char} {n : Nulls} :
    (ending, n) ∈ nullsEndings ↔ ending = ' ' :: n.words.toList := by
  have hsuffix : n.suffix.toList = ' ' :: n.words.toList := by simp [Nulls.suffix, Nulls.words]
  rw [← hsuffix]
  cases n <;> simp [nullsEndings]

theorem areApart_directionEndings : AreApart directionEndings := by
  refine areApart_of_words Direction.name (fun _ hp => mem_directionEndings_iff.1 hp) ?_
  intro d d'
  cases d <;> cases d' <;> decide

theorem areApart_nullsEndings : AreApart nullsEndings := by
  refine areApart_of_words Nulls.words (fun _ hp => mem_nullsEndings_iff.1 hp) ?_
  intro n n'
  cases n <;> cases n' <;> decide

theorem isTrimmed_direction (d : Direction) : IsTrimmed (' ' :: d.name.toList) := by
  intro c hc
  cases d <;> cases hc <;> rfl

theorem isTrimmed_nulls (n : Nulls) : IsTrimmed (' ' :: n.words.toList) := by
  intro c hc
  cases n <;> cases hc <;> rfl

/-- A text does not end in a direction and in a place of nulls at once. -/
theorem not_suffix_nulls_of_direction {d : Direction} {n : Nulls} {cs : List Char}
    (hd : ' ' :: d.name.toList <:+ cs) : ¬ ' ' :: n.words.toList <:+ cs := by
  intro hn
  have hapart : ¬ ' ' :: d.name.toList <:+ ' ' :: n.words.toList ∧
      ¬ ' ' :: n.words.toList <:+ ' ' :: d.name.toList := by
    cases d <;> cases n <;> decide
  rcases List.suffix_or_suffix_of_suffix hd hn with h | h
  · exact hapart.1 h
  · exact hapart.2 h

/-! ## Splitting an entry -/

/-- Whether a text in whatever case ends in the given words, which are in lower case. -/
def EndsIn (text ending : String) : Prop := ending.toList <:+ text.toList.map Char.toLower

instance (text ending : String) : Decidable (EndsIn text ending) :=
  inferInstanceAs (Decidable (ending.toList <:+ text.toList.map Char.toLower))

/-- Whether an expression has nothing at its end that would be read as its direction or as its place
of nulls. In front of a direction this can be anything, since the direction is read last. -/
structure IsParted (e : List Char) (d : Option Direction) (n : Option Nulls) : Prop where
  trimmed : IsTrimmed e
  direction : d = none → ∀ p ∈ directionEndings, ¬ p.1 <:+ e.map Char.toLower
  nulls : d = none → n = none → ∀ p ∈ nullsEndings, ¬ p.1 <:+ e.map Char.toLower

/-- An expression with its direction, its place of nulls and white space behind it is split into
these parts. -/
theorem splitChars_append {e direction nulls blank : List Char} {d : Option Direction}
    {n : Option Nulls} (he : IsParted e d n) (hd : Writes (d.map Direction.name) direction)
    (hn : Writes (n.map Nulls.words) nulls) (hblank : IsBlank blank) :
    splitChars (e ++ direction ++ nulls ++ blank) = (e, d, n) := by
  have hfront : IsTrimmed (e ++ direction) := by
    refine isTrimmed_append_of_writes he.trimmed hd fun w hw => ?_
    obtain ⟨d', -, rfl⟩ := Option.map_eq_some_iff.1 hw
    exact isTrimmed_direction d'
  have hall : IsTrimmed (e ++ direction ++ nulls) := by
    refine isTrimmed_append_of_writes hfront hn fun w hw => ?_
    obtain ⟨n', -, rfl⟩ := Option.map_eq_some_iff.1 hw
    exact isTrimmed_nulls n'
  have hnulls : splitEnding nullsEndings (e ++ direction ++ nulls) = (e ++ direction, n) := by
    cases n with
    | some n =>
      exact splitEnding_append_of_writes areApart_nullsEndings (mem_nullsEndings_iff.2 rfl)
        hfront hn
    | none =>
      obtain rfl : nulls = [] := hn
      rw [List.append_nil]
      refine splitEnding_of_forall_not ?_
      cases d with
      | none =>
        obtain rfl : direction = [] := hd
        rw [List.append_nil]
        exact he.nulls rfl rfl
      | some d =>
        rintro ⟨ending, n⟩ hmem
        obtain ⟨front, word, rfl, -, hword⟩ := writes_some_iff.1 hd
        rw [mem_nullsEndings_iff.1 hmem]
        refine not_suffix_nulls_of_direction (d := d) ?_
        rw [← hword, List.map_append, List.map_append]
        exact (List.suffix_append _ _).trans (List.suffix_append _ _)
  have hdirection : splitEnding directionEndings (e ++ direction) = (e, d) := by
    cases d with
    | some d =>
      exact splitEnding_append_of_writes areApart_directionEndings (mem_directionEndings_iff.2 rfl)
        he.trimmed hd
    | none =>
      obtain rfl : direction = [] := hd
      rw [List.append_nil]
      exact splitEnding_of_forall_not (he.direction rfl)
  rw [splitChars, trimEnd_append_of_isBlank hall hblank, hnulls]
  simp only [hdirection]

/-- Every text is an expression with its direction, its place of nulls and white space behind it,
and it is split into these parts. -/
theorem exists_parts (cs : List Char) :
    ∃ e direction nulls blank d n, splitChars cs = (e, d, n) ∧
      cs = e ++ direction ++ nulls ++ blank ∧ Writes (d.map Direction.name) direction ∧
      Writes (n.map Nulls.words) nulls ∧ IsBlank blank ∧ IsParted e d n := by
  obtain ⟨blank, hblank, hcs⟩ := exists_blank_of_trimEnd cs
  obtain ⟨front, nulls, n, hnulls, hfront, hn, htrimmed, hnone⟩ :=
    exists_writes_of_splitEnding Nulls.words (fun _ hp => mem_nullsEndings_iff.1 hp)
      (isTrimmed_trimEnd cs)
  obtain ⟨e, direction, d, hdirection, he, hd, htrimmed', hnone'⟩ :=
    exists_writes_of_splitEnding Direction.name (fun _ hp => mem_directionEndings_iff.1 hp)
      htrimmed
  refine ⟨e, direction, nulls, blank, d, n, ?_, ?_, hd, hn, hblank, htrimmed', hnone', ?_⟩
  · rw [splitChars, hnulls]
    simp only [hdirection]
  · rw [← he, ← hfront, ← hcs]
  · rintro rfl rfl
    obtain rfl : direction = [] := hd
    rw [List.append_nil] at he
    rw [← he]
    exact hnone rfl

/-- What is written behind the expression of an entry. -/
def suffixes (d : Option Direction) (n : Option Nulls) : String :=
  (d.map Direction.suffix).getD "" ++ (n.map Nulls.suffix).getD ""

theorem isBlank_nil : IsBlank [] := List.forall_mem_nil _

theorem writes_direction (d : Option Direction) :
    Writes (d.map Direction.name) ((d.map Direction.suffix).getD "").toList := by
  cases d with
  | none => rfl
  | some d =>
    refine ⟨[], d.name.toList, by simp [Direction.suffix], isBlank_nil, ?_⟩
    cases d <;> rfl

theorem writes_nulls (n : Option Nulls) :
    Writes (n.map Nulls.words) ((n.map Nulls.suffix).getD "").toList := by
  cases n with
  | none => rfl
  | some n =>
    refine ⟨[], n.words.toList, by simp [Nulls.suffix, Nulls.words], isBlank_nil, ?_⟩
    cases n <;> rfl

theorem splitChars_append_suffixes {e : List Char} {d : Option Direction} {n : Option Nulls}
    (he : IsParted e d n) : splitChars (e ++ (suffixes d n).toList) = (e, d, n) := by
  have hsplit := splitChars_append he (writes_direction d) (writes_nulls n) isBlank_nil
  rwa [List.append_nil, List.append_assoc, ← String.toList_append] at hsplit

theorem split_of_splitChars {text : String} {e : List Char} {d : Option Direction}
    {n : Option Nulls} (h : splitChars text.toList = (e, d, n)) :
    split text = (String.ofList e, d, n) := by
  rw [split, h]

/-- An expression, a direction and a place of nulls are read back from a text that has the words for
them in any mixture of upper and lower case, if the expression has neither white space nor such
words at its end. Whatever text is added to the order of a query, it consists of the parts that it
is split into, and the line that a statement has for the entry is split into the same parts
again. -/
theorem split_reads_back :
    (∀ (e direction nulls blank : String) (d : Option Direction) (n : Option Nulls),
      IsTrimmed e.toList → (∀ d' : Direction, ¬ EndsIn e d'.suffix) →
      (∀ n' : Nulls, ¬ EndsIn e n'.suffix) → Writes (d.map Direction.name) direction.toList →
      Writes (n.map Nulls.words) nulls.toList → IsBlank blank.toList →
      split (e ++ direction ++ nulls ++ blank) = (e, d, n)) ∧
    ∀ (q : Query) (text : String), ∃ e direction nulls blank d n line,
      text = e ++ direction ++ nulls ++ blank ∧ Writes (d.map Direction.name) direction.toList ∧
      Writes (n.map Nulls.words) nulls.toList ∧ IsBlank blank.toList ∧
      split text = (e, d, n) ∧ (q.orderSql text).orderBy = q.orderBy ++ [⟨.sql e, d, n⟩] ∧
      (∀ q' : Query, q'.emitOrder ⟨.sql e, d, n⟩ = pure ("\t" ++ line)) ∧
      split line = (e, d, n) := by
  constructor
  · intro e direction nulls blank d n htrimmed hdirections hnulls hd hn hblank
    have he : IsParted e.toList d n := by
      refine ⟨htrimmed, fun _ p hp => ?_, fun _ _ p hp => ?_⟩
      · obtain ⟨d', -, rfl⟩ := List.mem_map.1 hp
        exact hdirections d'
      · obtain ⟨n', -, rfl⟩ := List.mem_map.1 hp
        exact hnulls n'
    have hsplit := splitChars_append he hd hn hblank
    simp only [← String.toList_append] at hsplit
    rw [split_of_splitChars hsplit, String.ofList_toList]
  · intro q text
    obtain ⟨e, direction, nulls, blank, d, n, hsplit, htext, hd, hn, hblank, he⟩ :=
      exists_parts text.toList
    have htext' := split_of_splitChars hsplit
    refine ⟨String.ofList e, String.ofList direction, String.ofList nulls, String.ofList blank,
      d, n, String.ofList e ++ suffixes d n, ?_, ?_, ?_, ?_, htext', ?_, fun q' => ?_, ?_⟩
    · rw [← String.toList_inj]
      simp [htext]
    · rwa [String.toList_ofList]
    · rwa [String.toList_ofList]
    · rwa [String.toList_ofList]
    · rw [Query.orderSql, htext']
      rfl
    · rw [suffixes, ← String.append_assoc, ← String.append_assoc]
      rfl
    · refine split_of_splitChars ?_
      rw [String.toList_append, String.toList_ofList]
      exact splitChars_append_suffixes he

/-- The words may stand behind any white space that ends in a space, and behind letters of any
script. -/
theorem split_reads_back_size :
    split ("größe asc nulls" ++ "\t  DESC" ++ "\u00a0 Nulls LAST" ++ "\n") =
      ("größe asc nulls", some .desc, some .last) := by
  have htrimmed : IsTrimmed "größe asc nulls".toList := by
    intro c hc
    cases hc
    rfl
  have hdirections : ∀ d : Direction, ¬ EndsIn "größe asc nulls" d.suffix := by
    intro d
    cases d <;> decide
  have hnulls : ∀ n : Nulls, ¬ EndsIn "größe asc nulls" n.suffix := by
    intro n
    cases n <;> decide
  have hd : Writes (some Direction.desc.name) "\t  DESC".toList :=
    ⟨['\t', ' '], "DESC".toList, rfl, by simp [IsBlank, isBlank, blankRanges], rfl⟩
  have hn : Writes (some Nulls.last.words) "\u00a0 Nulls LAST".toList :=
    ⟨['\u00a0'], "Nulls LAST".toList, rfl, by simp [IsBlank, isBlank, blankRanges], rfl⟩
  have hblank : IsBlank "\n".toList := by simp [IsBlank, isBlank, blankRanges]
  exact split_reads_back.1 _ _ _ _ (some .desc) (some .last) htrimmed hdirections hnulls hd hn
    hblank

end Order

end TypedSql
