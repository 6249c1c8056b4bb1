import TypedSql.Proofs.Lexemes

/-!
# A grammar of source text

`Reads` says which expressions a text can be read as. It takes a text from left to right, and
decides how to go on by the next lexeme, or by a word and the parenthesis behind it. So a text can
be read in one way only (`Reads.unique`), up to the number of places of its decimals.
-/

namespace TypedSql

theorem Aggregate.name_injective {g g' : Aggregate} (h : g.name = g'.name) : g = g' := by
  cases g <;> cases g' <;> first | rfl | simp [Aggregate.name] at h

namespace Source

/-! ## Where operands begin and how they go on -/

/-- Splits off the parenthesis that makes a word a call. -/
def splitOpening (cs : List Char) : Bool × List Char :=
  match next cs with
  | some (.mark .opening, rest) => (true, rest)
  | _ => (false, cs)

/-- The words that are constants. -/
def constantWords : List String := ["None", "True", "False"]

/-- What an operand begins with. -/
inductive Start where
  | constant (lexeme : Lexeme)
  | name (word : String) (called : Bool)
  | unary (op : UnaryOp)
  | parenthesis

/-- Finds what an operand begins with. -/
def start (cs : List Char) : Option (Start × List Char) :=
  match next cs with
  | some (.mark (.unary op), rest) => some (.unary op, rest)
  | some (.mark .opening, rest) => some (.parenthesis, rest)
  | some (.mark _, _) => none
  | some (.word word, rest) =>
    if word ∈ constantWords then some (.constant (.word word), rest)
    else
      let (called, rest) := splitOpening rest
      some (.name word called, rest)
  | some (lexeme, rest) => some (.constant lexeme, rest)
  | none => none

/-- What goes on with the operand in front of it. -/
inductive Follow where
  | binary (op : BinaryOp)
  | item
  | when
  | member (name : String) (called : Bool)

/-- How tightly the operand in front has to hold together. -/
def Follow.level : Follow → Nat
  | binary op => op.precedence
  | item => postfixPrecedence
  | when => ifPrecedence
  | member _ _ => postfixPrecedence

/-- What a mark goes on with, the point apart. -/
def Mark.follow? : Mark → Option Follow
  | binary op => some (.binary op)
  | openItem => some .item
  | when => some .when
  | _ => none

/-- Finds what goes on with the operand in front of a text. -/
def follow (cs : List Char) : Option (Follow × List Char) :=
  match next cs with
  | some (.mark .dot, rest) =>
    match next rest with
    | some (.word name, rest) =>
      let (called, rest) := splitOpening rest
      some (.member name called, rest)
    | _ => none
  | some (.mark m, rest) => m.follow?.map (·, rest)
  | _ => none

/-! ## Reading -/

/-- What is to be read. -/
inductive Goal where
  /-- An operand that holds together at least as tightly as `least`. -/
  | operand (least : Nat)
  /-- What belongs to an operand behind its start. -/
  | body (least : Nat) (s : Start)
  /-- What goes on with the operand `left`, up to where it does not hold together as tightly as
  `least`. -/
  | more (least : Nat) (left : Node)
  /-- The rest of one step behind the operand `left`. -/
  | tail (f : Follow) (left : Node)
  /-- Arguments up to the closing parenthesis. -/
  | arguments

/-- `Reads g cs ns rest` says that the text `cs` begins with what is to be read, and that `rest` is
what comes behind it. The result is one expression, or the arguments of a call. -/
inductive Reads : Goal → List Char → List Node → List Char → Prop
  | operand {least cs s body a more ns rest} (hstart : start cs = some (s, body))
      (hbody : Reads (.body least s) body [a] more) (hmore : Reads (.more least a) more ns rest) :
      Reads (.operand least) cs ns rest
  | constant {least cs c lexeme} (hc : Constant.IsLegible c) (hlexeme : c.lexeme = lexeme) :
      Reads (.body least (.constant lexeme)) cs [.ofExpr (.const c)] cs
  | field {least cs path} : Reads (.body least (.name path false)) cs [.ofExpr (.field path)] cs
  | func {least cs name args rest} (hname : ∀ g : Aggregate, g.name ≠ name)
      (hargs : Reads .arguments cs args rest) :
      Reads (.body least (.name name true)) cs [.ofExpr (.func name args)] rest
  | aggregate {least cs name args rest} {g : Aggregate} (hname : g.name = name)
      (hargs : Reads .arguments cs args rest) :
      Reads (.body least (.name name true)) cs [.ofExpr (.aggregate g args)] rest
  | unary {least cs op a rest} (hleast : least ≤ op.precedence)
      (ha : Reads (.operand op.precedence) cs [a] rest) :
      Reads (.body least (.unary op)) cs [.ofExpr (.unary op a)] rest
  | parenthesis {least cs a close rest} (ha : Reads (.operand ifPrecedence) cs [a] close)
      (hclose : next close = some (.mark .closing, rest)) :
      Reads (.body least .parenthesis) cs [a] rest
  | stop {least a cs} (h : ∀ f rest, follow cs = some (f, rest) → f.level < least) :
      Reads (.more least a) cs [a] cs
  | more {least a b f cs body more ns rest} (hfollow : follow cs = some (f, body))
      (hlevel : least ≤ f.level) (htail : Reads (.tail f a) body [b] more)
      (hmore : Reads (.more least b) more ns rest) : Reads (.more least a) cs ns rest
  | binary {op a b cs rest} (hb : Reads (.operand (op.precedence + 1)) cs [b] rest) :
      Reads (.tail (.binary op) a) cs [.ofExpr (.binary op a b)] rest
  | isNot {a b cs body rest} (hstart : start cs = some (.unary .not, body))
      (hb : Reads (.operand (BinaryOp.isNot.precedence + 1)) body [b] rest) :
      Reads (.tail (.binary .is) a) cs [.ofExpr (.binary .isNot a b)] rest
  | item {a b cs close rest} (hb : Reads (.operand ifPrecedence) cs [b] close)
      (hclose : next close = some (.mark .closeItem, rest)) :
      Reads (.tail .item a) cs [.ofExpr (.binary .item a b)] rest
  | ifElse {a c b cs otherwise body rest}
      (hc : Reads (.operand (ifPrecedence + 1)) cs [c] otherwise)
      (hotherwise : next otherwise = some (.mark .otherwise, body))
      (hb : Reads (.operand ifPrecedence) body [b] rest) :
      Reads (.tail .when a) cs [.ofExpr (.ifElse a c b)] rest
  | attr {a name cs} : Reads (.tail (.member name false) a) cs [.ofExpr (.attr a name)] cs
  | meth {a name args cs rest} (hargs : Reads .arguments cs args rest) :
      Reads (.tail (.member name true) a) cs [.ofExpr (.meth a name args)] rest
  | noArguments {cs rest} (hclose : next cs = some (.mark .closing, rest)) :
      Reads .arguments cs [] rest
  | lastArgument {a cs close rest} (ha : Reads (.operand ifPrecedence) cs [a] close)
      (hclose : next close = some (.mark .closing, rest)) : Reads .arguments cs [a] rest
  | nextArgument {a args cs comma body rest} (ha : Reads (.operand ifPrecedence) cs [a] comma)
      (hcomma : next comma = some (.mark .comma, body)) (hargs : Reads .arguments body args rest) :
      Reads .arguments cs (a :: args) rest

/-! ## A text is read in one way -/

/-- Whether the same is to be read, behind operands that are the same. -/
inductive Goal.Same : Goal → Goal → Prop
  | operand {least} : Same (.operand least) (.operand least)
  | body {least s} : Same (.body least s) (.body least s)
  | more {least a a'} (h : a.same a' = true) : Same (.more least a) (.more least a')
  | tail {f a a'} (h : a.same a' = true) : Same (.tail f a) (.tail f a')
  | arguments : Same .arguments .arguments

theorem Goal.Same.of_more {g : Goal} {least : Nat} {a : Node} (h : Goal.Same (.more least a) g) :
    ∃ a', g = .more least a' ∧ a.same a' = true := by
  cases h with
  | more h => exact ⟨_, rfl, h⟩

theorem Goal.Same.of_tail {g : Goal} {f : Follow} {a : Node} (h : Goal.Same (.tail f a) g) :
    ∃ a', g = .tail f a' ∧ a.same a' = true := by
  cases h with
  | tail h => exact ⟨_, rfl, h⟩

/-- Whether lists of expressions are the same, one by one. -/
def SameAll (ns ns' : List Node) : Prop := List.Forall₂ (fun n n' => n.same n' = true) ns ns'

@[simp] theorem sameAll_singleton_iff {n n' : Node} : SameAll [n] [n'] ↔ n.same n' = true := by
  simp [SameAll]

@[simp] theorem sameList_iff {ns ns' : List Node} :
    Expr.sameList (ns.map Node.same) ns' = true ↔ SameAll ns ns' := by
  induction ns generalizing ns' with
  | nil => cases ns' <;> simp [Expr.sameList, SameAll]
  | cons n ns ih =>
    cases ns' with
    | nil => simp [Expr.sameList, SameAll]
    | cons n' ns' =>
      rw [List.map_cons, Expr.sameList, Bool.and_eq_true, ih, SameAll, SameAll, List.forall₂_cons]

theorem same_ofExpr (e e' : Expr Node) :
    (Node.ofExpr e).same (.ofExpr e') = (e.map Node.same).same e' := by
  rw [Node.same, Node.fold_eq]
  simp [Node.sameStep, Node.ofExpr]

section

variable {a a' b b' c c' : Node} {args args' : List Node} {name name' : String}

@[simp] theorem same_const {c c' : Constant} :
    (Node.ofExpr (.const c)).same (.ofExpr (.const c')) = c.same c' :=
  same_ofExpr _ _

@[simp] theorem same_field :
    (Node.ofExpr (.field name)).same (.ofExpr (.field name')) = decide (name = name') :=
  same_ofExpr _ _

@[simp] theorem same_unary {op op' : UnaryOp} :
    (Node.ofExpr (.unary op a)).same (.ofExpr (.unary op' a')) =
      (decide (op = op') && a.same a') :=
  same_ofExpr _ _

@[simp] theorem same_binary {op op' : BinaryOp} :
    (Node.ofExpr (.binary op a b)).same (.ofExpr (.binary op' a' b')) =
      (decide (op = op') && a.same a' && b.same b') :=
  same_ofExpr _ _

@[simp] theorem same_ifElse :
    (Node.ofExpr (.ifElse a c b)).same (.ofExpr (.ifElse a' c' b')) =
      (a.same a' && c.same c' && b.same b') :=
  same_ofExpr _ _

@[simp] theorem same_func :
    (Node.ofExpr (.func name args)).same (.ofExpr (.func name' args')) =
      (decide (name = name') && Expr.sameList (args.map Node.same) args') :=
  same_ofExpr _ _

@[simp] theorem same_meth :
    (Node.ofExpr (.meth a name args)).same (.ofExpr (.meth a' name' args')) =
      (a.same a' && decide (name = name') && Expr.sameList (args.map Node.same) args') :=
  same_ofExpr _ _

@[simp] theorem same_attr :
    (Node.ofExpr (.attr a name)).same (.ofExpr (.attr a' name')) =
      (a.same a' && decide (name = name')) :=
  same_ofExpr _ _

@[simp] theorem same_aggregate {g g' : Aggregate} :
    (Node.ofExpr (.aggregate g args)).same (.ofExpr (.aggregate g' args')) =
      (decide (g = g') && Expr.sameList (args.map Node.same) args') :=
  same_ofExpr _ _

end

/-- A negation is no operand of a comparison, unless it is in parentheses. -/
theorem Reads.start_ne_not {least : Nat} {cs rest body : List Char} {ns : List Node}
    (h : Reads (.operand least) cs ns rest) (hleast : UnaryOp.not.precedence < least) :
    start cs ≠ some (.unary .not, body) := by
  intro hnot
  cases h with
  | operand hstart hbody =>
    cases hstart.symm.trans hnot
    cases hbody with
    | unary hle => omega

theorem Reads.next_ne_closing {least : Nat} {cs rest body : List Char} {ns : List Node}
    (h : Reads (.operand least) cs ns rest) : next cs ≠ some (.mark .closing, body) := by
  intro hclose
  cases h with
  | operand hstart => simp [start, hclose] at hstart

/-- Whether a text cannot be read in any other way, not even behind another operand that is the
same. -/
def Unique (g : Goal) (cs : List Char) (ns : List Node) (rest : List Char) : Prop :=
  ∀ ⦃g' : Goal⦄ ⦃ns' : List Node⦄ ⦃rest' : List Char⦄, g.Same g' → Reads g' cs ns' rest' →
    SameAll ns ns' ∧ rest = rest'

namespace Unique

variable {least : Nat} {a b c : Node} {ns args : List Node} {cs body more close rest : List Char}
  {name : String}

theorem operand {s : Start} (hstart : start cs = some (s, body))
    (hbody : Unique (.body least s) body [a] more) (hmore : Unique (.more least a) more ns rest) :
    Unique (.operand least) cs ns rest := by
  rintro _ ns' rest' ⟨⟩ h
  cases h with
  | operand hstart' hbody' hmore' =>
    cases hstart.symm.trans hstart'
    obtain ⟨ha, rfl⟩ := hbody .body hbody'
    exact hmore (.more (sameAll_singleton_iff.1 ha)) hmore'

theorem constant {c : Constant} (hc : c.IsLegible) :
    Unique (.body least (.constant c.lexeme)) cs [.ofExpr (.const c)] cs := by
  rintro _ ns' rest' ⟨⟩ h
  cases h with
  | constant hc' hlexeme =>
    have hsame := Constant.same_of_lexeme_eq hc hc' hlexeme.symm
    simp [hsame]

theorem field : Unique (.body least (.name name false)) cs [.ofExpr (.field name)] cs := by
  rintro _ ns' rest' ⟨⟩ h
  cases h with
  | field => simp

theorem func (hname : ∀ g : Aggregate, g.name ≠ name) (hargs : Unique .arguments cs args rest) :
    Unique (.body least (.name name true)) cs [.ofExpr (.func name args)] rest := by
  rintro _ ns' rest' ⟨⟩ h
  cases h with
  | func _ hargs' =>
    obtain ⟨hsame, rfl⟩ := hargs .arguments hargs'
    simp [hsame]
  | aggregate hname' => exact absurd hname' (hname _)

theorem aggregate {g : Aggregate} (hargs : Unique .arguments cs args rest) :
    Unique (.body least (.name g.name true)) cs [.ofExpr (.aggregate g args)] rest := by
  rintro _ ns' rest' ⟨⟩ h
  cases h with
  | func hname' => exact absurd rfl (hname' g)
  | aggregate hname' hargs' =>
    obtain ⟨hsame, rfl⟩ := hargs .arguments hargs'
    have hg := Aggregate.name_injective hname'
    simp [hsame, hg]

theorem unary {op : UnaryOp} (ha : Unique (.operand op.precedence) cs [a] rest) :
    Unique (.body least (.unary op)) cs [.ofExpr (.unary op a)] rest := by
  rintro _ ns' rest' ⟨⟩ h
  cases h with
  | unary _ ha' =>
    obtain ⟨hsame, rfl⟩ := ha .operand ha'
    simp [sameAll_singleton_iff.1 hsame]

theorem parenthesis (ha : Unique (.operand ifPrecedence) cs [a] close)
    (hclose : next close = some (.mark .closing, rest)) :
    Unique (.body least .parenthesis) cs [a] rest := by
  rintro _ ns' rest' ⟨⟩ h
  cases h with
  | parenthesis ha' hclose' =>
    obtain ⟨hsame, rfl⟩ := ha .operand ha'
    cases hclose.symm.trans hclose'
    exact ⟨hsame, rfl⟩

theorem stop (hstop : ∀ f rest, follow cs = some (f, rest) → f.level < least) :
    Unique (.more least a) cs [a] cs := by
  intro g' ns' rest' hg h
  obtain ⟨a', rfl, ha⟩ := hg.of_more
  cases h with
  | stop => exact ⟨sameAll_singleton_iff.2 ha, rfl⟩
  | more hfollow hlevel => exact absurd (hstop _ _ hfollow) (by omega)

theorem step {f : Follow} (hfollow : follow cs = some (f, body)) (hlevel : least ≤ f.level)
    (htail : Unique (.tail f a) body [b] more) (hmore : Unique (.more least b) more ns rest) :
    Unique (.more least a) cs ns rest := by
  intro g' ns' rest' hg h
  obtain ⟨a', rfl, ha⟩ := hg.of_more
  cases h with
  | stop hstop => exact absurd (hstop _ _ hfollow) (by omega)
  | more hfollow' _ htail' hmore' =>
    cases hfollow.symm.trans hfollow'
    obtain ⟨hb, rfl⟩ := htail (.tail ha) htail'
    exact hmore (.more (sameAll_singleton_iff.1 hb)) hmore'

/-- The inverted identity test is not read as an identity test, whose operand would be the negation:
that would have to be in parentheses. -/
theorem binary {op : BinaryOp} (hb : Reads (.operand (op.precedence + 1)) cs [b] rest)
    (hunique : Unique (.operand (op.precedence + 1)) cs [b] rest) :
    Unique (.tail (.binary op) a) cs [.ofExpr (.binary op a b)] rest := by
  intro g' ns' rest' hg h
  obtain ⟨a', rfl, ha⟩ := hg.of_tail
  cases h with
  | binary hb' =>
    obtain ⟨hsame, rfl⟩ := hunique .operand hb'
    simp [ha, sameAll_singleton_iff.1 hsame]
  | isNot hstart' => exact absurd hstart' (hb.start_ne_not (by decide))

theorem isNot (hstart : start cs = some (.unary .not, body))
    (hunique : Unique (.operand (BinaryOp.isNot.precedence + 1)) body [b] rest) :
    Unique (.tail (.binary .is) a) cs [.ofExpr (.binary .isNot a b)] rest := by
  intro g' ns' rest' hg h
  obtain ⟨a', rfl, ha⟩ := hg.of_tail
  cases h with
  | binary hb' => exact absurd hstart (hb'.start_ne_not (by decide))
  | isNot hstart' hb' =>
    cases hstart.symm.trans hstart'
    obtain ⟨hsame, rfl⟩ := hunique .operand hb'
    simp [ha, sameAll_singleton_iff.1 hsame]

theorem item (hb : Unique (.operand ifPrecedence) cs [b] close)
    (hclose : next close = some (.mark .closeItem, rest)) :
    Unique (.tail .item a) cs [.ofExpr (.binary .item a b)] rest := by
  intro g' ns' rest' hg h
  obtain ⟨a', rfl, ha⟩ := hg.of_tail
  cases h with
  | item hb' hclose' =>
    obtain ⟨hsame, rfl⟩ := hb .operand hb'
    cases hclose.symm.trans hclose'
    simp [ha, sameAll_singleton_iff.1 hsame]

theorem ifElse (hc : Unique (.operand (ifPrecedence + 1)) cs [c] more)
    (hotherwise : next more = some (.mark .otherwise, body))
    (hb : Unique (.operand ifPrecedence) body [b] rest) :
    Unique (.tail .when a) cs [.ofExpr (.ifElse a c b)] rest := by
  intro g' ns' rest' hg h
  obtain ⟨a', rfl, ha⟩ := hg.of_tail
  cases h with
  | ifElse hc' hotherwise' hb' =>
    obtain ⟨hcondition, rfl⟩ := hc .operand hc'
    cases hotherwise.symm.trans hotherwise'
    obtain ⟨hother, rfl⟩ := hb .operand hb'
    simp [ha, sameAll_singleton_iff.1 hcondition,
      sameAll_singleton_iff.1 hother]

theorem attr : Unique (.tail (.member name false) a) cs [.ofExpr (.attr a name)] cs := by
  intro g' ns' rest' hg h
  obtain ⟨a', rfl, ha⟩ := hg.of_tail
  cases h with
  | attr => simp [ha]

theorem meth (hargs : Unique .arguments cs args rest) :
    Unique (.tail (.member name true) a) cs [.ofExpr (.meth a name args)] rest := by
  intro g' ns' rest' hg h
  obtain ⟨a', rfl, ha⟩ := hg.of_tail
  cases h with
  | meth hargs' =>
    obtain ⟨hsame, rfl⟩ := hargs .arguments hargs'
    simp [ha, hsame]

theorem noArguments (hclose : next cs = some (.mark .closing, rest)) :
    Unique .arguments cs [] rest := by
  rintro _ ns' rest' ⟨⟩ h
  cases h with
  | noArguments hclose' =>
    cases hclose.symm.trans hclose'
    exact ⟨.nil, rfl⟩
  | lastArgument ha' => exact absurd hclose ha'.next_ne_closing
  | nextArgument ha' => exact absurd hclose ha'.next_ne_closing

theorem lastArgument (ha : Reads (.operand ifPrecedence) cs [a] close)
    (hunique : Unique (.operand ifPrecedence) cs [a] close)
    (hclose : next close = some (.mark .closing, rest)) : Unique .arguments cs [a] rest := by
  rintro _ ns' rest' ⟨⟩ h
  cases h with
  | noArguments hclose' => exact absurd hclose' ha.next_ne_closing
  | lastArgument ha' hclose' =>
    obtain ⟨hsame, rfl⟩ := hunique .operand ha'
    cases hclose.symm.trans hclose'
    exact ⟨hsame, rfl⟩
  | nextArgument ha' hcomma' =>
    obtain ⟨-, rfl⟩ := hunique .operand ha'
    cases hclose.symm.trans hcomma'

theorem nextArgument (ha : Reads (.operand ifPrecedence) cs [a] more)
    (hunique : Unique (.operand ifPrecedence) cs [a] more)
    (hcomma : next more = some (.mark .comma, body)) (hargs : Unique .arguments body args rest) :
    Unique .arguments cs (a :: args) rest := by
  rintro _ ns' rest' ⟨⟩ h
  cases h with
  | noArguments hclose' => exact absurd hclose' ha.next_ne_closing
  | lastArgument ha' hclose' =>
    obtain ⟨-, rfl⟩ := hunique .operand ha'
    cases hcomma.symm.trans hclose'
  | nextArgument ha' hcomma' hargs' =>
    obtain ⟨hsame, rfl⟩ := hunique .operand ha'
    cases hcomma.symm.trans hcomma'
    obtain ⟨hrest, rfl⟩ := hargs .arguments hargs'
    exact ⟨.cons (sameAll_singleton_iff.1 hsame) hrest, rfl⟩

end Unique

/-- What is read from a text, and where that ends, is determined by the text. -/
theorem Reads.unique {g : Goal} {cs rest : List Char} {ns : List Node} (h : Reads g cs ns rest) :
    Unique g cs ns rest := by
  induction h with
  | operand hstart _ _ hbody hmore => exact .operand hstart hbody hmore
  | constant hc hlexeme => exact hlexeme ▸ .constant hc
  | field => exact .field
  | func hname _ hargs => exact .func hname hargs
  | aggregate hname _ hargs => exact hname ▸ .aggregate hargs
  | unary _ _ ha => exact .unary ha
  | parenthesis _ hclose ha => exact .parenthesis ha hclose
  | stop hstop => exact .stop hstop
  | more hfollow hlevel _ _ htail hmore => exact .step hfollow hlevel htail hmore
  | binary hread hb => exact .binary hread hb
  | isNot hstart _ hb => exact .isNot hstart hb
  | item _ hclose hb => exact .item hb hclose
  | ifElse _ hotherwise _ hc hb => exact .ifElse hc hotherwise hb
  | attr => exact .attr
  | meth _ hargs => exact .meth hargs
  | noArguments hclose => exact .noArguments hclose
  | lastArgument hread hclose ha => exact .lastArgument hread ha hclose
  | nextArgument hread hcomma _ ha hargs => exact .nextArgument hread ha hcomma hargs

end Source

end TypedSql
