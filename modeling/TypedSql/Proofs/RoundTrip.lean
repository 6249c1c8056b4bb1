import TypedSql.Interchange.Decode
import TypedSql.Interchange.Encode
import TypedSql.Proofs.Checking
import TypedSql.Proofs.ReadBack

/-!
# Expressions survive the interchange format

The JSON form of an expression has all of it: its kind, its operands, its value and its origin.
Reading it gives the expression back, whatever results of checking have been written along. Only a
zero with a minus sign is read without it, and a moment within a second as the start of the second.
-/

namespace TypedSql

open Keyed (get?)

/-! ## Members of an object -/

namespace Node

theorem get?_append {α : Type} (key : String) (members rest : List (String × α)) :
    get? key (members ++ rest) = (get? key members).or (get? key rest) := by
  induction members with
  | nil => rfl
  | cons m members ih =>
    obtain ⟨other, value⟩ := m
    rw [List.cons_append, get?, get?]
    split
    · rfl
    · exact ih

theorem get?_member (key other : String) (value : Option Json) :
    get? key (member other value) = if other = key then value else none := by
  cases value with
  | none => simp [member, get?]
  | some value => simp [member, get?]

theorem get?_cons_ne {key other : String} (h : other ≠ key) (value : Json)
    (rest : List (String × Json)) : get? key ((other, value) :: rest) = get? key rest := by
  simp [get?, h]

theorem decodeItems_eq (items : List Json) : decodeItems items = items.mapM decode := by
  induction items with
  | nil =>
    rw [decodeItems, List.mapM_nil]
    rfl
  | cons item items ih => rw [decodeItems, List.mapM_cons, ih]

/-- The operands of a node object are the items of its member `children`, which may be left out if
there are none. -/
theorem decodeChildren_eq {members : List (String × Json)} {items : List Json}
    (h : get? "children" members = if items.isEmpty then none else some (.arr items)) :
    decodeChildren members = items.mapM decode := by
  induction members with
  | nil =>
    cases items with
    | nil =>
      rw [decodeChildren]
      rfl
    | cons item items => simp [get?] at h
  | cons m members ih =>
    obtain ⟨key, value⟩ := m
    by_cases hkey : key = "children"
    · cases items with
      | nil => simp [get?, hkey] at h
      | cons item items =>
        obtain rfl : value = .arr (item :: items) := by simpa [get?, hkey] using h
        simp [decodeChildren, hkey, decodeItems_eq]
    · rw [get?_cons_ne hkey] at h
      unfold decodeChildren
      rw [if_neg hkey]
      exact ih h

end Node

/-! ## Names -/

theorem UnaryOp.mem_all (op : UnaryOp) : op ∈ UnaryOp.all := by
  cases op <;> decide

theorem BinaryOp.mem_all (op : BinaryOp) : op ∈ BinaryOp.all := by
  cases op <;> decide

theorem Aggregate.ofName?_name (g : Aggregate) : Aggregate.ofName? g.name = some g := by
  cases g <;> decide

/-- No two kinds have the same name. -/
theorem Kind.ofName?_name (k : Kind) : Kind.ofName? k.name = some k := by
  have hall : Kind.all.all (fun k => Kind.ofName? k.name = some k) = true := by decide +kernel
  have hk : k ∈ Kind.all := by
    cases k with
    | unary op => simp [Kind.all, UnaryOp.mem_all]
    | binary op => simp [Kind.all, BinaryOp.mem_all]
    | _ => simp [Kind.all]
  simpa using List.all_eq_true.1 hall k hk

/-! ## Values -/

theorem Json.int64?_ofInt (n : Int64) : (Json.ofInt n.toInt).int64? = some n := by
  have hrange : Int64.minValue.toInt ≤ n.toInt ∧ n.toInt ≤ Int64.maxValue.toInt :=
    ⟨n.minValue_le_toInt, n.toInt_le⟩
  simp only [Json.ofInt, Json.int64?, if_pos hrange, Int64.ofInt_toInt]

theorem Json.uint64?_ofNat (n : UInt64) : (Json.ofNat n.toNat).uint64? = some n := by
  have hrange : 0 ≤ (n.toNat : Int) ∧ (n.toNat : Int) < (UInt64.size : Int) := by
    have hlt := n.toNat_lt_size
    omega
  simp only [Json.ofNat, Json.uint64?, if_pos hrange, Int.toNat_natCast, UInt64.ofNat_toNat]

namespace Node

theorem decimalOf_text (d : Decimal) : decimalOf (.str d.text) = .ok d.unsignZero := by
  simp only [decimalOf, Decimal.read_text]

theorem dateOf_text (d : Date) : dateOf (.str d.text) = .ok d := by
  refine bind_eq_ok_iff.2 ⟨d.text, rfl, ?_⟩
  simp only [Calendar.readDate_text]

theorem dateTimeOf_text (t : DateTime) : dateTimeOf (.str t.text) = .ok t.startOfSecond := by
  refine bind_eq_ok_iff.2 ⟨t.text, rfl, ?_⟩
  simp only [Calendar.readDateTime_text]

theorem aggregateOf_name (g : Aggregate) : aggregateOf (.str g.name) = .ok g := by
  refine bind_eq_ok_iff.2 ⟨g.name, rfl, ?_⟩
  simp only [Aggregate.ofName?_name]

/-- A layer has the operands that it was put together from. -/
theorem children_of_assemble {kind : Kind} {value : Json} {children : List Node} {e : Expr Node}
    (h : assemble kind value children = .ok e) : e.children = children := by
  unfold assemble at h
  split at h
  · cases h
  · rename_i hleaf
    have hnil : kind.isLeaf = true → children = [] := by simpa using hleaf
    cases kind with
    | null =>
      cases h
      exact (hnil rfl).symm
    | bool | int =>
      dsimp only at h
      split at h
      · cases h
        exact (hnil rfl).symm
      · cases h
    | number | str | date | dateTime | field =>
      obtain ⟨_, -, h⟩ := bind_eq_ok_iff.1 h
      cases h
      exact (hnil rfl).symm
    | unary | binary | ifElse =>
      dsimp only at h
      split at h
      · cases h
        rfl
      · cases h
    | func | aggregate =>
      obtain ⟨_, -, h⟩ := bind_eq_ok_iff.1 h
      cases h
      rfl
    | meth | attr =>
      dsimp only at h
      split at h
      · obtain ⟨_, -, h⟩ := bind_eq_ok_iff.1 h
        cases h
        rfl
      · cases h

/-- Whether the text of a layer shows all of its value: it is neither a zero with a minus sign nor a
moment within a second. -/
def ShowsValue (e : Expr Node) : Prop :=
  (∀ d, e = .const (.number d) → ¬ d.IsNegativeZero) ∧ ∀ t, e = .const (.dateTime t) → t.IsWhole

/-- A layer is put together again from its kind, its value and its operands, if its text shows all
of its value. -/
theorem assemble_children_eq_ok_iff {e : Expr Node} :
    assemble e.kind (e.encodeValue?.getD .null) e.children = .ok e ↔ ShowsValue e := by
  cases e with
  | const v =>
    cases v with
    | number d =>
      simp [assemble, Expr.kind, Constant.kind, Expr.children, Expr.encodeValue?, Constant.encode?,
        decimalOf_text, ShowsValue, ← Decimal.unsignZero_eq_self_iff]
    | dateTime t =>
      simp [assemble, Expr.kind, Constant.kind, Expr.children, Expr.encodeValue?, Constant.encode?,
        dateTimeOf_text, ShowsValue, ← DateTime.startOfSecond_eq_self_iff]
    | _ =>
      simp [assemble, Expr.kind, Constant.kind, Expr.children, Expr.encodeValue?, Constant.encode?,
        Json.bool?, Json.str?, Json.int64?_ofInt, textOf, dateOf_text, ShowsValue]
  | _ =>
    simp [assemble, Expr.kind, Kind.isLeaf, Expr.children, Expr.encodeValue?, Expr.value?,
      Json.str?, textOf, aggregateOf_name, ShowsValue]

/-! ## Whole expressions -/

/-- The JSON forms of the operands of an expression. -/
def operandItems (n : Node) (c : Option Checked) : List Json :=
  encodeOperands (n.children.map encode) ((c.map (·.children)).getD [])

/-- What is found in the JSON form of an expression. -/
theorem exists_members (n : Node) (c : Option Checked) :
    ∃ members, n.encode c = .obj members ∧
      get? "children" members =
        (if (n.operandItems c).isEmpty then none else some (.arr (n.operandItems c))) ∧
      get? "nodetype" members = some (.str n.kind.name) ∧
      get? "source" members = n.origin.map (fun o => .str o.source) ∧
      get? "span" members = n.span.map Span.encode ∧
      get? "value" members = n.expr.encodeValue? := by
  have hitems : encodeOperands (n.expr.map encode).children ((c.map (·.children)).getD []) =
      n.operandItems c := by
    rw [operandItems, Expr.children_map, children]
  rw [encode, fold_eq, ← encode, encodeStep, hitems]
  refine ⟨_, rfl, ?_, ?_, ?_, ?_, ?_⟩ <;>
    simp [get?_append, get?_member, get?]

theorem kindOf_members {n : Node} {members : List (String × Json)}
    (h : get? "nodetype" members = some (.str n.kind.name)) : kindOf members = .ok n.kind := by
  simp only [kindOf, h, Option.bind_some, Json.str?, Kind.ofName?_name]

theorem originOf_members {n : Node} {members : List (String × Json)}
    (hsource : get? "source" members = n.origin.map (fun o => .str o.source))
    (hspan : get? "span" members = n.span.map Span.encode) : originOf members = n.origin := by
  obtain ⟨e, origin⟩ := n
  cases origin with
  | none => simp [originOf, hsource]
  | some origin =>
    obtain ⟨source, span⟩ := origin
    have hread : spanOf members = span := by
      cases span with
      | none => simp [spanOf, hspan, Node.span]
      | some span =>
        simp [spanOf, hspan, Node.span, Span.encode, Json.uint64?_ofNat]
    simp [originOf, hsource, hread, Json.str?]

/-- Each operand is written with some result of checking it, or without. -/
theorem forall₂_encodeOperands (ns : List Node) (cs : List Checked) :
    List.Forall₂ (fun n item => ∃ c, item = n.encode c) ns (encodeOperands (ns.map encode) cs) := by
  induction ns generalizing cs with
  | nil => exact .nil
  | cons n ns ih =>
    cases cs with
    | nil => exact .cons ⟨none, rfl⟩ (ih [])
    | cons c cs => exact .cons ⟨some c, rfl⟩ (ih cs)

/-- An expression is read from its JSON form if and only if each operand is read from its own and
its text shows all of its value. -/
theorem decode_encode_step (n : Node) (c : Option Checked) :
    decode (n.encode c) = .ok n ↔
      List.Forall₂ (fun m item => decode item = .ok m) n.children (n.operandItems c) ∧
        ShowsValue n.expr := by
  obtain ⟨members, hmembers, hchildren, hkind, hsource, hspan, hvalue⟩ := n.exists_members c
  have horigin := originOf_members hsource hspan
  rw [hmembers, decode, ofMembers, kindOf_members hkind, decodeChildren_eq hchildren, hvalue,
    horigin]
  simp only [bind_eq_ok_iff]
  constructor
  · rintro ⟨_, ⟨⟩, children, hread, e, he, hn⟩
    obtain rfl : e = n.expr := congrArg Node.expr (Except.ok.inj hn)
    -- the layer was put together from what has been read, so that has to be its own operands
    have hsame : n.children = children := children_of_assemble he
    subst hsame
    exact ⟨(mapM_eq_ok_iff.1 hread).flip, assemble_children_eq_ok_iff.1 he⟩
  · rintro ⟨hread, hshows⟩
    refine ⟨n.kind, rfl, n.children, mapM_eq_ok_iff.2 hread.flip, n.expr,
      assemble_children_eq_ok_iff.2 hshows, ?_⟩
    cases n
    rfl

/-- An expression is read from its JSON form as it was written, with or without results of checking,
if and only if it contains no zero with a minus sign, and its moments are those at which a second
begins, also a leap second. -/
theorem decode_encode_eq_ok_iff (n : Node) (c : Option Checked) :
    decode (n.encode c) = .ok n ↔
      ∀ m ∈ n.preorder, (∀ d, m.expr = .const (.number d) → ¬ d.IsNegativeZero) ∧
        ∀ t, m.expr = .const (.dateTime t) → t.IsWhole := by
  induction n using Node.induction generalizing c with
  | step n ih =>
    have hoperands : List.Forall₂ (fun m item => decode item = .ok m) n.children
        (n.operandItems c) ↔ ∀ child ∈ n.children, ∀ m ∈ child.preorder, ShowsValue m.expr := by
      refine forall₂_iff_forall_mem (forall₂_encodeOperands n.children _) ?_
      rintro child hchild _ ⟨d, rfl⟩
      exact ih child hchild d
    rw [decode_encode_step, hoperands]
    constructor
    · rintro ⟨hchildren, hself⟩ m hm
      rcases mem_preorder_iff.1 hm with rfl | ⟨child, hchild, hm⟩
      · exact hself
      · exact hchildren child hchild m hm
    · intro hall
      refine ⟨fun child hchild m hm => ?_, hall n (mem_preorder_self n)⟩
      exact hall m (mem_preorder_iff.2 (Or.inr ⟨child, hchild, hm⟩))

end Node

end TypedSql
