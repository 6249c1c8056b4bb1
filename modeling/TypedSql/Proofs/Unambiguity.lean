import TypedSql.Proofs.Checking
import TypedSql.Proofs.Grammar

/-!
# Canonical source is unambiguous

The canonical text of an expression can be read as that expression: parentheses stand wherever an
operand would not hold together otherwise, and what follows an operand is never taken for a part of
it. As a text can be read in one way only, expressions with the same text are the same.

Two kinds of constants are excepted. A zero with a minus sign is written like the negation of a
zero, although it is not below zero, and of a moment only the second is written.
-/

namespace TypedSql

/-! ## How operators bind -/

theorem UnaryOp.ifPrecedence_le (op : UnaryOp) : ifPrecedence ≤ op.precedence := by
  cases op <;> decide

theorem BinaryOp.ifPrecedence_lt (op : BinaryOp) : ifPrecedence < op.precedence := by
  cases op <;> decide

theorem BinaryOp.precedence_le (op : BinaryOp) : op.precedence ≤ postfixPrecedence := by
  cases op <;> decide

theorem BinaryOp.precedence_ne (op : BinaryOp) (op' : UnaryOp) :
    op.precedence ≠ op'.precedence := by
  cases op <;> cases op' <;> decide

namespace Source

/-! ## What follows an operand -/

/-- Whether a text can follow an operand: it does not go on with a word or a numeral, it does not
make a call of a word, and what it goes on with the operand binds less tightly than `level`. -/
structure Follows (level : Nat) (cs : List Char) : Prop where
  ends : Ends cs
  splitOpening_eq : splitOpening cs = (false, cs)
  level_lt : ∀ f rest, follow cs = some (f, rest) → f.level < level

theorem Follows.mono {level level' : Nat} {cs : List Char} (h : Follows level cs)
    (hle : level ≤ level') : Follows level' cs := by
  refine ⟨h.ends, h.splitOpening_eq, fun f rest hfollow => ?_⟩
  have := h.level_lt f rest hfollow
  omega

theorem Follow.level_le (f : Follow) : f.level ≤ postfixPrecedence := by
  cases f with
  | binary op => exact op.precedence_le
  | item => exact Nat.le_refl _
  | when => decide
  | member _ _ => exact Nat.le_refl _

theorem follows_nil (level : Nat) : Follows level [] := by
  refine ⟨by simp [Ends], rfl, fun f rest hfollow => ?_⟩
  cases hfollow

/-- Whether a mark stands behind an operand and is no point. -/
def Mark.isInner : Mark → Bool
  | unary _ => false
  | opening => false
  | dot => false
  | _ => true

theorem Mark.head_chars_of_isInner : ∀ m ∈ Mark.all, m.isInner = true →
    m.chars.head?.any (fun c => !isWordChar c && c ≠ '.') = true := by
  decide +kernel

theorem follow_mark {m : Mark} (hm : m ∈ Mark.all) (hinner : m.isInner = true)
    (rest : List Char) : follow (m.chars ++ rest) = m.follow?.map (·, rest) := by
  rw [follow, next_mark hm]
  cases m <;> first | rfl | cases hinner

theorem follows_mark {m : Mark} (hm : m ∈ Mark.all) (hinner : m.isInner = true) {level : Nat}
    (hlevel : ∀ f, m.follow? = some f → f.level < level) (rest : List Char) :
    Follows level (m.chars ++ rest) := by
  have hnext := next_mark hm rest
  have hhead := Mark.head_chars_of_isInner m hm hinner
  refine ⟨?_, ?_, ?_⟩
  · intro c hc
    cases hchars : m.chars with
    | nil => simp [hchars] at hhead
    | cons k ks =>
      rw [hchars] at hhead hc
      cases hc
      simp only [List.head?_cons, Option.any_some, Bool.and_eq_true, Bool.not_eq_true',
        decide_eq_true_eq] at hhead
      exact ⟨hhead.1, fun hpoint => absurd hpoint hhead.2⟩
  · rw [splitOpening, hnext]
    cases m <;> first | rfl | cases hinner
  · intro f more hfollow
    rw [follow_mark hm hinner, Option.map_eq_some_iff] at hfollow
    obtain ⟨_, hf, heq⟩ := hfollow
    cases heq
    exact hlevel f hf

/-- A mark that no operand goes on with can follow any operand. -/
theorem follows_end {m : Mark} (hm : m ∈ Mark.all) (hinner : m.isInner = true)
    (hnone : m.follow? = none) {level : Nat} (rest : List Char) :
    Follows level (m.chars ++ rest) := by
  refine follows_mark hm hinner (fun f hf => ?_) rest
  cases hnone.symm.trans hf

/-- Whether a word can be the name of a field, a function, a method or an attribute: it is an
identifier, and none of the words that mean something else. -/
def IsName (word : String) : Prop :=
  isIdentifier word.toList = true ∧
    word ∉ ["None", "True", "False", "not", "and", "or", "in", "is", "if", "else"]

theorem IsName.next {word : String} (h : IsName word) {rest : List Char} (hrest : EndsWord rest) :
    next (word.toList ++ rest) = some (.word word, rest) := by
  refine next_word h.1 ?_ hrest
  rintro rfl
  exact h.2 (by simp)

theorem IsName.start {word : String} (h : IsName word) {rest after : List Char} {called : Bool}
    (hrest : EndsWord rest) (hcalled : splitOpening rest = (called, after)) :
    start (word.toList ++ rest) = some (.name word called, after) := by
  have hconstant : word ∉ constantWords := by
    have hreserved := h.2
    simp only [List.mem_cons, not_or] at hreserved
    simp [constantWords, hreserved]
  simp [Source.start, h.next hrest, hconstant, hcalled]

theorem IsName.follow {name : String} (h : IsName name) {rest after : List Char} {called : Bool}
    (hrest : EndsWord rest) (hcalled : splitOpening rest = (called, after)) :
    follow (Mark.dot.chars ++ (name.toList ++ rest)) = some (.member name called, after) := by
  have hdot := next_mark (m := .dot) (by decide) (name.toList ++ rest)
  simp [Source.follow, hdot, h.next hrest, hcalled]

theorem endsWord_opening (rest : List Char) : EndsWord (Mark.opening.chars ++ rest) := by
  simp [EndsWord, Mark.chars, isWordChar]

theorem splitOpening_opening (rest : List Char) :
    splitOpening (Mark.opening.chars ++ rest) = (true, rest) := by
  rw [splitOpening, next_mark (by decide)]

theorem IsName.isDigit_head {name : String} (h : IsName name) (rest : List Char) :
    ∀ c ∈ (name.toList ++ rest).head?, c.isDigit = false := by
  intro c hc
  cases hname : name.toList with
  | nil => simp [IsName, hname, isIdentifier] at h
  | cons k ks =>
    have hword := h.1
    rw [hname, isIdentifier, Bool.and_eq_true] at hword
    rw [hname] at hc
    cases hc
    rw [← Bool.not_eq_true]
    intro hdigit
    cases hword.1.symm.trans (isWordStart_of_isDigit hdigit)

/-- Behind a point there is no digit, so that it cannot be taken for a part of a numeral. -/
theorem IsName.follows {name : String} (h : IsName name) (rest : List Char) :
    Follows (postfixPrecedence + 1) (Mark.dot.chars ++ (name.toList ++ rest)) := by
  have hdot := next_mark (m := .dot) (by decide) (name.toList ++ rest)
  refine ⟨?_, ?_, ?_⟩
  · intro c hc
    cases hc
    exact ⟨rfl, fun _ => h.isDigit_head rest⟩
  · rw [splitOpening, hdot]
  · intro f more _
    exact Nat.lt_succ_of_le f.level_le

end Source

/-! ## How expressions hold together -/

theorem Constant.precedence_bounds (c : Constant) :
    ifPrecedence ≤ c.precedence ∧ c.precedence ≤ atomPrecedence := by
  unfold precedence
  split
  · split <;> decide
  · split <;> decide
  · decide

namespace Expr

variable {α : Type}

/-- The level below which something can follow the text of a layer without being taken for a part of
its last operand. -/
def closing : Expr α → Nat
  | unary op _ => op.precedence
  | binary op _ _ => if op = .item then atomPrecedence else op.precedence + 1
  | ifElse _ _ _ => ifPrecedence
  | _ => atomPrecedence

theorem ifPrecedence_le_precedence (e : Expr α) : ifPrecedence ≤ e.precedence := by
  cases e with
  | const c => exact c.precedence_bounds.1
  | unary op _ => exact op.ifPrecedence_le
  | binary op _ _ => exact Nat.le_of_lt op.ifPrecedence_lt
  | _ => exact Nat.le_of_ble_eq_true rfl

theorem precedence_le_closing (e : Expr α) : e.precedence ≤ e.closing := by
  cases e with
  | const c => exact c.precedence_bounds.2
  | unary op _ => exact Nat.le_refl _
  | binary op _ _ =>
    rw [closing]
    split
    · exact Nat.le_trans op.precedence_le (by decide)
    · exact Nat.le_succ _
  | _ => exact Nat.le_of_ble_eq_true rfl

/-- What follows an operand without parentheses is not taken for a part of it. -/
theorem lt_closing {e : Expr α} {level : Nat} (hle : level ≤ e.precedence)
    (hlimit : level ≤ postfixPrecedence) (hif : level ≠ ifPrecedence)
    (hunary : ∀ op : UnaryOp, level ≠ op.precedence) : level < e.closing := by
  have hatom : postfixPrecedence < atomPrecedence := by decide
  cases e with
  | unary op _ => exact Nat.lt_of_le_of_ne hle (hunary op)
  | binary op _ _ =>
    rw [closing]
    split
    · omega
    · exact Nat.lt_succ_of_le hle
  | ifElse _ _ _ => exact Nat.lt_of_le_of_ne hle hif
  | _ => exact Nat.lt_of_le_of_lt hlimit hatom

end Expr

namespace Node

theorem precedence_phrase (n : Node) : n.phrase.precedence = n.expr.precedence := by
  rw [phrase, fold_eq]

@[simp] theorem text_phrase (n : Node) : n.phrase.text = n.source := rfl

theorem source_ofExpr (e : Expr Node) :
    (ofExpr e).source = Phrase.ofLayer (e.map phrase) := by
  rw [source, phrase, fold_eq]
  rfl

open Source

/-- Whether an expression is read from its text, wherever something follows that is not taken for a
part of it. -/
def Readable (n : Node) : Prop :=
  ∀ ⦃least : Nat⦄ ⦃cs rest : List Char⦄ ⦃ns : List Node⦄, least ≤ n.expr.precedence →
    Follows n.expr.closing cs → Reads (.more least n) cs ns rest →
    Reads (.operand least) (n.source.toList ++ cs) ns rest

namespace Readable

variable {n : Node} {cs rest : List Char} {ns : List Node} {least : Nat}

theorem whole (h : Readable n) (hcs : Follows ifPrecedence cs) :
    Reads (.operand ifPrecedence) (n.source.toList ++ cs) [n] cs := by
  have hif := n.expr.ifPrecedence_le_precedence
  exact h hif (hcs.mono (Nat.le_trans hif n.expr.precedence_le_closing)) (.stop hcs.level_lt)

/-- An operand that something goes on with is in parentheses, or holds together as tightly as it
has to. -/
theorem left (h : Readable n) {bound : Nat} (hbound : least ≤ bound)
    (hcs : bound ≤ n.expr.precedence → Follows n.expr.closing cs)
    (hmore : Reads (.more least n) cs ns rest) :
    Reads (.operand least) ((n.phrase.atLeast bound).toList ++ cs) ns rest := by
  by_cases hlt : n.phrase.precedence < bound
  · have htext : (n.phrase.atLeast bound).toList ++ cs =
        Mark.opening.chars ++ (n.source.toList ++ (Mark.closing.chars ++ cs)) := by
      simp [Phrase.atLeast, hlt, Mark.chars]
    have hwhole := h.whole (follows_end (m := .closing) (by decide) rfl rfl cs)
    have hclose := next_mark (m := .closing) (by decide) cs
    rw [htext]
    refine .operand ?_ (.parenthesis hwhole hclose) hmore
    rw [start, next_mark (by decide)]
  · have htext : n.phrase.atLeast bound = n.source := by
      rw [Phrase.atLeast, if_neg hlt, source]
    rw [precedence_phrase, Nat.not_lt] at hlt
    rw [htext]
    exact h (Nat.le_trans hbound hlt) (hcs hlt) hmore

theorem operand (h : Readable n) (hcs : Follows least cs) :
    Reads (.operand least) ((n.phrase.atLeast least).toList ++ cs) [n] cs :=
  h.left (Nat.le_refl _) (fun hle => hcs.mono (Nat.le_trans hle n.expr.precedence_le_closing))
    (.stop hcs.level_lt)

end Readable

/-! ## The text of each layer -/

theorem readable_const {c : Constant} (hc : c.IsLegible) : Readable (.ofExpr (.const c)) := by
  intro least cs rest ns _ hcs hmore
  rw [source_ofExpr]
  refine .operand ?_ (.constant hc rfl) hmore
  rw [Expr.map, Phrase.ofLayer, start, Constant.next_source hc hcs.ends]
  cases c with
  | bool b => cases b <;> rfl
  | _ => rfl

theorem readable_field {path : String} (hname : IsName path) :
    Readable (.ofExpr (.field path)) := by
  intro least cs rest ns _ hcs hmore
  rw [source_ofExpr]
  exact .operand (hname.start hcs.ends.endsWord hcs.splitOpening_eq) .field hmore

theorem readable_unary (op : UnaryOp) {a : Node} (ha : Readable a) :
    Readable (.ofExpr (.unary op a)) := by
  intro least cs rest ns hleast hcs hmore
  have htext : (ofExpr (.unary op a)).source.toList ++ cs =
      (Mark.unary op).chars ++ ((a.phrase.atLeast op.precedence).toList ++ cs) := by
    simp [source_ofExpr, Expr.map, Phrase.ofLayer, Mark.chars]
  rw [htext]
  refine .operand ?_ (.unary hleast (ha.operand hcs)) hmore
  rw [start, next_mark (Mark.unary_mem_all op)]

/-- The left operand of an operator holds together more tightly than the operator, or as tightly. -/
theorem Readable.leftOperand {a b : Node} (ha : Readable a) {op : BinaryOp} (hitem : op ≠ .item)
    (hnot : op ≠ .isNot) {bound least : Nat} (hbound : op.precedence ≤ bound)
    (hleast : least ≤ op.precedence) {cs body rest : List Char} {ns : List Node}
    (htail : Reads (.tail (.binary op) a) cs [b] body)
    (hmore : Reads (.more least b) body ns rest) :
    Reads (.operand least) ((a.phrase.atLeast bound).toList ++ ((Mark.binary op).chars ++ cs)) ns
      rest := by
  have hm := Mark.binary_mem_all hitem hnot
  refine ha.left (Nat.le_trans hleast hbound) (fun hle => ?_) ?_
  · refine follows_mark hm rfl (fun f hf => ?_) cs
    cases hf
    exact Expr.lt_closing (Nat.le_trans hbound hle) op.precedence_le
      (Nat.ne_of_gt op.ifPrecedence_lt) op.precedence_ne
  · exact .more (follow_mark hm rfl cs) hleast htail hmore

theorem toList_source_binary {op : BinaryOp} (hitem : op ≠ .item) (a b : Node) :
    ∃ bound, op.precedence ≤ bound ∧ (ofExpr (.binary op a b)).source.toList =
      (a.phrase.atLeast bound).toList ++ ((Mark.binary op).chars ++
        (b.phrase.atLeast (op.precedence + 1)).toList) := by
  refine ⟨if op.isComparison then op.precedence + 1 else op.precedence, by split <;> omega, ?_⟩
  simp [source_ofExpr, Expr.map, Phrase.ofLayer, hitem, Mark.chars]

theorem readable_binary {op : BinaryOp} (hitem : op ≠ .item) {a b : Node} (ha : Readable a)
    (hb : Readable b) : Readable (.ofExpr (.binary op a b)) := by
  intro least cs rest ns hleast hcs hmore
  have hcs : Follows (op.precedence + 1) cs := by simpa [ofExpr, Expr.closing, hitem] using hcs
  obtain ⟨bound, hbound, htext⟩ := toList_source_binary hitem a b
  rw [htext, List.append_assoc, List.append_assoc]
  by_cases hnot : op = .isNot
  · subst hnot
    -- the inverted test is written like the test itself, with a negation behind it
    have hmarks : (Mark.binary .isNot).chars =
        (Mark.binary .is).chars ++ (Mark.unary .not).chars := rfl
    rw [hmarks, List.append_assoc]
    have hitem : BinaryOp.is ≠ .item := by decide
    refine ha.leftOperand hitem (by decide) hbound hleast (.isNot ?_ (hb.operand hcs)) hmore
    rw [start, next_mark (Mark.unary_mem_all .not)]
  · exact ha.leftOperand hitem hnot hbound hleast (.binary (hb.operand hcs)) hmore

/-- Something that binds tightest goes on with an operand that needs no parentheses anywhere. -/
theorem Readable.postfixOperand {a b : Node} (ha : Readable a) {f : Follow} {least : Nat}
    {cs body more rest : List Char} {ns : List Node} (hcs : Follows atomPrecedence cs)
    (hfollow : follow cs = some (f, body)) (hlevel : f.level = postfixPrecedence)
    (hleast : least ≤ postfixPrecedence) (htail : Reads (.tail f a) body [b] more)
    (hmore : Reads (.more least b) more ns rest) :
    Reads (.operand least) ((a.phrase.atLeast postfixPrecedence).toList ++ cs) ns rest := by
  refine ha.left hleast (fun hle => ?_) (.more hfollow (hlevel ▸ hleast) htail hmore)
  have hlt : postfixPrecedence < a.expr.closing :=
    Expr.lt_closing hle (Nat.le_refl _) (by decide) (fun op => by cases op <;> decide)
  exact hcs.mono hlt

theorem readable_item {a b : Node} (ha : Readable a) (hb : Readable b) :
    Readable (.ofExpr (.binary .item a b)) := by
  intro least cs rest ns hleast hcs hmore
  have htext : (ofExpr (.binary .item a b)).source.toList ++ cs =
      (a.phrase.atLeast postfixPrecedence).toList ++
        (Mark.openItem.chars ++ (b.source.toList ++ (Mark.closeItem.chars ++ cs))) := by
    simp [source_ofExpr, Expr.map, Phrase.ofLayer, Mark.chars]
  have hwhole := hb.whole (follows_end (m := .closeItem) (by decide) rfl rfl cs)
  rw [htext]
  refine ha.postfixOperand ?_ (follow_mark (by decide) rfl _) rfl hleast
    (.item hwhole (next_mark (by decide) cs)) hmore
  refine follows_mark (by decide) rfl (fun f hf => ?_) _
  cases hf
  decide

theorem readable_ifElse {a c b : Node} (ha : Readable a) (hc : Readable c) (hb : Readable b) :
    Readable (.ofExpr (.ifElse a c b)) := by
  intro least cs rest ns hleast hcs hmore
  have htext : (ofExpr (.ifElse a c b)).source.toList ++ cs =
      (a.phrase.atLeast (ifPrecedence + 1)).toList ++ (Mark.when.chars ++
        ((c.phrase.atLeast (ifPrecedence + 1)).toList ++ (Mark.otherwise.chars ++
          ((b.phrase.atLeast ifPrecedence).toList ++ cs)))) := by
    simp [source_ofExpr, Expr.map, Phrase.ofLayer, Mark.chars]
  have hotherwise : Follows (ifPrecedence + 1)
      (Mark.otherwise.chars ++ ((b.phrase.atLeast ifPrecedence).toList ++ cs)) :=
    follows_end (by decide) rfl rfl _
  rw [htext]
  refine ha.left (Nat.le_succ_of_le hleast) (fun hle => ?_) ?_
  · refine follows_mark (by decide) rfl (fun f hf => ?_) _
    cases hf
    exact Nat.lt_of_lt_of_le hle a.expr.precedence_le_closing
  · exact .more (follow_mark (by decide) rfl _) hleast
      (.ifElse (hc.operand hotherwise) (next_mark (by decide) _) (hb.operand hcs)) hmore

theorem reads_arguments {args : List Node} (h : ∀ a ∈ args, Readable a) (cs : List Char) :
    Reads .arguments ((Phrase.arguments (args.map phrase)).toList ++ (Mark.closing.chars ++ cs))
      args cs := by
  have hclose := next_mark (m := .closing) (by decide) cs
  induction args with
  | nil => exact .noArguments hclose
  | cons a args ih =>
    have ha : Readable a := h a List.mem_cons_self
    cases args with
    | nil => exact .lastArgument (ha.whole (follows_end (by decide) rfl rfl cs)) hclose
    | cons b args =>
      have hrest := ih fun c hc => h c (List.mem_cons_of_mem a hc)
      have htext : (Phrase.arguments ((a :: b :: args).map phrase)).toList =
          a.source.toList ++ (Mark.comma.chars ++
            (Phrase.arguments ((b :: args).map phrase)).toList) := by
        simp [Phrase.arguments, Mark.chars]
      rw [htext, List.append_assoc, List.append_assoc]
      exact .nextArgument (ha.whole (follows_end (by decide) rfl rfl _)) (next_mark (by decide) _)
        hrest

theorem toList_call (name : String) (args : List Node) (cs : List Char) :
    (name ++ "(" ++ Phrase.arguments (args.map phrase) ++ ")").toList ++ cs =
      name.toList ++ (Mark.opening.chars ++ ((Phrase.arguments (args.map phrase)).toList ++
        (Mark.closing.chars ++ cs))) := by
  simp [Mark.chars]

theorem readable_func {name : String} (hname : IsName name) (hfunc : ∀ g : Aggregate, g.name ≠ name)
    {args : List Node} (hargs : ∀ a ∈ args, Readable a) : Readable (.ofExpr (.func name args)) := by
  intro least cs rest ns _ hcs hmore
  rw [source_ofExpr, Expr.map, Phrase.ofLayer, toList_call]
  exact .operand (hname.start (endsWord_opening _) (splitOpening_opening _))
    (.func hfunc (reads_arguments hargs cs)) hmore

theorem readable_aggregate (g : Aggregate) {args : List Node} (hargs : ∀ a ∈ args, Readable a) :
    Readable (.ofExpr (.aggregate g args)) := by
  intro least cs rest ns _ hcs hmore
  have hname : IsName g.name := by cases g <;> exact ⟨by decide, by decide⟩
  rw [source_ofExpr, Expr.map, Phrase.ofLayer, toList_call]
  exact .operand (hname.start (endsWord_opening _) (splitOpening_opening _))
    (.aggregate rfl (reads_arguments hargs cs)) hmore

theorem readable_attr {a : Node} (ha : Readable a) {name : String} (hname : IsName name) :
    Readable (.ofExpr (.attr a name)) := by
  intro least cs rest ns hleast hcs hmore
  have htext : (ofExpr (.attr a name)).source.toList ++ cs =
      (a.phrase.atLeast postfixPrecedence).toList ++
        (Mark.dot.chars ++ (name.toList ++ cs)) := by
    simp [source_ofExpr, Expr.map, Phrase.ofLayer, Mark.chars]
  have hfollow := hname.follow hcs.ends.endsWord hcs.splitOpening_eq
  rw [htext]
  exact ha.postfixOperand (hname.follows cs) hfollow rfl hleast .attr hmore

theorem readable_meth {a : Node} (ha : Readable a) {name : String} (hname : IsName name)
    {args : List Node} (hargs : ∀ b ∈ args, Readable b) :
    Readable (.ofExpr (.meth a name args)) := by
  intro least cs rest ns hleast hcs hmore
  have htext : (ofExpr (.meth a name args)).source.toList ++ cs =
      (a.phrase.atLeast postfixPrecedence).toList ++ (Mark.dot.chars ++
        ((name ++ "(" ++ Phrase.arguments (args.map phrase) ++ ")").toList ++ cs)) := by
    simp [source_ofExpr, Expr.map, Phrase.ofLayer, Mark.chars]
  rw [htext, toList_call]
  exact ha.postfixOperand (hname.follows _)
    (hname.follow (endsWord_opening _) (splitOpening_opening _)) rfl hleast
    (.meth (reads_arguments hargs cs)) hmore

end Node

/-! ## Expressions with the same text -/

/-- Whether a layer is written plainly: its names are names that are not used for anything else, and
its constant is an allowed one. -/
def Expr.IsPlain {α : Type} (allowed : Constant → Prop) : Expr α → Prop
  | const c => allowed c
  | field path => Source.IsName path
  | func name _ => Source.IsName name ∧ ∀ g : Aggregate, g.name ≠ name
  | meth _ name _ => Source.IsName name
  | attr _ name => Source.IsName name
  | _ => True

/-- Whether a constant is no number below zero. -/
def Constant.IsNonNegative : Constant → Prop
  | int n => 0 ≤ n.toInt
  | number d => 0 ≤ d.signed
  | _ => True

namespace Node

/-- Whether an expression has no origin anywhere, and plain layers only. -/
def IsPlain (allowed : Constant → Prop) (n : Node) : Prop :=
  ∀ m ∈ n.preorder, m.origin = none ∧ m.expr.IsPlain allowed

theorem readable_of_isPlain {n : Node} (h : n.IsPlain Constant.IsLegible) : n.Readable := by
  induction n using Node.induction with
  | step n ih =>
    obtain ⟨horigin, hplain⟩ := h n n.mem_preorder_self
    have hchild : ∀ c ∈ n.children, c.Readable := fun c hc => ih c hc fun m hm =>
      h m (mem_preorder_iff.2 (Or.inr ⟨c, hc, hm⟩))
    obtain ⟨e, origin⟩ := n
    cases horigin
    cases e with
    | const c => exact readable_const hplain
    | field path => exact readable_field hplain
    | unary op a => exact readable_unary op (hchild a (by simp [children, Expr.children]))
    | binary op a b =>
      have ha := hchild a (by simp [children, Expr.children])
      have hb := hchild b (by simp [children, Expr.children])
      by_cases hitem : op = .item
      · subst hitem
        exact readable_item ha hb
      · exact readable_binary hitem ha hb
    | ifElse a c b =>
      have ha := hchild a (by simp [children, Expr.children])
      have hc := hchild c (by simp [children, Expr.children])
      have hb := hchild b (by simp [children, Expr.children])
      exact readable_ifElse ha hc hb
    | func name args => exact readable_func hplain.1 hplain.2 hchild
    | meth a name args =>
      exact readable_meth (hchild a List.mem_cons_self) hplain fun b hb =>
        hchild b (List.mem_cons_of_mem a hb)
    | attr a name => exact readable_attr (hchild a List.mem_cons_self) hplain
    | aggregate g args => exact readable_aggregate g hchild

/-- Expressions with the same canonical text are the same, up to the number of places of their
decimals, if their numbers have no sign and their moments are those at which a second begins. -/
theorem same_of_source_eq {n m : Node} (hn : n.IsPlain Constant.IsLegible)
    (hm : m.IsPlain Constant.IsLegible) (h : n.source = m.source) : n.same m = true := by
  have hread := (readable_of_isPlain hn).whole (Source.follows_nil _)
  have hread' := (readable_of_isPlain hm).whole (Source.follows_nil _)
  rw [← h] at hread'
  exact Source.sameAll_singleton_iff.1 (hread.unique .operand hread').1

/-- The moment 2016-12-31T23:59:60, at which a leap second begins. -/
def leapSecond : DateTime := .atSecond ⟨2016, 12, 31, by decide⟩ 23 59 60 (by decide)

/-- The expression `a - (b - d) if c is not (not c.lower()) else f("it's", @(2016-12-31T23:59:60))`
with a number `d`. -/
def differenceOrText (d : Decimal) : Node :=
  let a := ofExpr (.field "a")
  let b := ofExpr (.field "b")
  let c := ofExpr (.field "c")
  let lower := ofExpr (.unary .not (.ofExpr (.meth c "lower" [])))
  .ofExpr (.ifElse
    (.ofExpr (.binary .sub a (.ofExpr (.binary .sub b (.ofExpr (.const (.number d)))))))
    (.ofExpr (.binary .isNot c lower))
    (.ofExpr (.func "f"
      [.ofExpr (.const (.str "it's")), .ofExpr (.const (.dateTime leapSecond))])))

theorem isPlain_differenceOrText {d : Decimal} (h : d.negative = false) :
    (differenceOrText d).IsPlain Constant.IsLegible := by
  have hname : ∀ word ∈ ["a", "b", "c", "f", "lower"], Source.IsName word := by
    simp [Source.IsName]
    decide
  have hfunc : ∀ g : Aggregate, g.name ≠ "f" := by
    intro g
    cases g <;> decide
  have hwhole : leapSecond.IsWhole := Or.inr ⟨rfl, rfl⟩
  simp only [List.forall_mem_cons] at hname
  simp [IsPlain, differenceOrText, preorder_eq, children, ofExpr, Expr.children, Expr.IsPlain,
    Constant.IsLegible, hname, hfunc, hwhole, h]

/-- With the number 1 of no places and with that of one place, an expression with operators, calls,
a text and a leap second has the same text, and is the same. -/
theorem same_of_source_eq_differenceOrText :
    let one : Decimal := ⟨false, 1, 0, by decide, by decide⟩
    let oneWithPlace : Decimal := ⟨false, 10, 1, by decide, by decide⟩
    let text := "a - (b - 1.0) if c is not (not c.lower()) else f(\"it's\", @(2016-12-31T23:59:60))"
    (differenceOrText one).source = text ∧ (differenceOrText oneWithPlace).source = text ∧
      (differenceOrText one).same (differenceOrText oneWithPlace) = true := by
  intro one oneWithPlace text
  have hone : (differenceOrText one).source = text := by decide +kernel
  have hplace : (differenceOrText oneWithPlace).source = text := by decide +kernel
  exact ⟨hone, hplace, same_of_source_eq (isPlain_differenceOrText rfl)
    (isPlain_differenceOrText rfl) (hone.trans hplace.symm)⟩

/-! ## Expressions that are written alike -/

/-- Whether two expressions are different but have the same text, though all their layers are plain
and none of their numbers is below zero. -/
def Confused (n m : Node) : Prop :=
  n.IsPlain Constant.IsNonNegative ∧ m.IsPlain Constant.IsNonNegative ∧ n.source = m.source ∧
    n.same m = false

theorem isPlain_const {allowed : Constant → Prop} {c : Constant} (h : allowed c) :
    (ofExpr (.const c)).IsPlain allowed := by
  simpa [IsPlain, preorder_eq, children, ofExpr, Expr.children, Expr.IsPlain] using h

theorem source_negativeZero {d : Decimal} (h : d.IsNegativeZero) :
    (Constant.number d).source = "-" ++ (Constant.number d.unsignZero).source := by
  have htext : d.text = "-" ++ d.unsignZero.text := by
    simp [Decimal.text, Decimal.chars, h.1, h.negative_unsignZero]
    rfl
  have hscale : d.unsignZero.scale = d.scale := rfl
  rw [Constant.source, Constant.source, hscale, htext]
  split
  · rw [String.append_assoc]
  · rfl

/-- A zero with a minus sign is written as the negation of a zero without it. -/
theorem confused_negativeZero {d : Decimal} (h : d.IsNegativeZero) :
    Confused (.ofExpr (.const (.number d)))
      (.ofExpr (.unary .neg (.ofExpr (.const (.number d.unsignZero))))) := by
  have hunsigned := h.negative_unsignZero
  refine ⟨isPlain_const ?_, ?_, ?_, ?_⟩
  · simp [Constant.IsNonNegative, Decimal.signed, h.2]
  · simp [IsPlain, preorder_eq, children, ofExpr, Expr.children, Expr.IsPlain,
      Constant.IsNonNegative, Decimal.signed, hunsigned]
  · -- the number below the negation has no sign, so it takes no parentheses
    have hatom : (ofExpr (.const (.number d.unsignZero))).phrase.precedence = atomPrecedence := by
      rw [precedence_phrase]
      simp [ofExpr, Expr.precedence, Constant.precedence, hunsigned]
    rw [source_ofExpr, source_ofExpr, Expr.map, Expr.map, Phrase.ofLayer, Phrase.ofLayer,
      Phrase.atLeast, hatom, if_neg (by decide), text_phrase, source_ofExpr]
    exact source_negativeZero h
  · simp [Source.same_ofExpr, Expr.map, Expr.same]

/-- A moment is written as the start of its second. -/
theorem confused_startOfSecond {t : DateTime} (h : ¬ t.IsWhole) :
    Confused (.ofExpr (.const (.dateTime t))) (.ofExpr (.const (.dateTime t.startOfSecond))) := by
  refine ⟨isPlain_const trivial, isPlain_const trivial, ?_, ?_⟩
  · simp [source_ofExpr, Expr.map, Phrase.ofLayer, Constant.source, DateTime.text_startOfSecond]
  · have hne : t ≠ t.startOfSecond := fun heq => h (DateTime.startOfSecond_eq_self_iff.1 heq.symm)
    simpa [Constant.same] using hne

/-- Constants that cannot be told from their text are written like other expressions. -/
theorem exists_confused {c : Constant} (h : c.IsNonNegative) (hc : ¬ c.IsLegible) :
    ∃ m, Confused (.ofExpr (.const c)) m := by
  cases c with
  | number d =>
    have hnegative : d.negative = true := by simpa [Constant.IsLegible] using hc
    have hzero : d.coefficient = 0 := by
      simp only [Constant.IsNonNegative, Decimal.signed, hnegative, if_true] at h
      omega
    exact ⟨_, confused_negativeZero ⟨hnegative, hzero⟩⟩
  | dateTime t => exact ⟨_, confused_startOfSecond hc⟩
  | int n => exact absurd h hc
  | _ => exact absurd trivial hc

/-- The number `-0.0` is written as the negation of `0.0`, and half a second past noon as noon. -/
theorem source_ambiguous :
    let zero (negative : Bool) : Decimal := ⟨negative, 0, 1, by decide, by decide⟩
    let noon (nanosecond : Nat) (h : nanosecond < 2000000000) : DateTime :=
      ⟨⟨2024, 3, 14, by decide⟩, 12, 0, 0, nanosecond, by decide, by decide, by decide, h⟩
    Confused (.ofExpr (.const (.number (zero true))))
        (.ofExpr (.unary .neg (.ofExpr (.const (.number (zero false)))))) ∧
      Confused (.ofExpr (.const (.dateTime (noon 500000000 (by decide)))))
        (.ofExpr (.const (.dateTime (noon 0 (by decide))))) := by
  intro zero noon
  have hpart : ¬ (noon 500000000 (by decide)).IsWhole := by decide
  have hstart : (noon 500000000 (by decide)).startOfSecond = noon 0 (by decide) := by decide
  refine ⟨confused_negativeZero ⟨rfl, rfl⟩, ?_⟩
  rw [← hstart]
  exact confused_startOfSecond hpart

end Node

end TypedSql
