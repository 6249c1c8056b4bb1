import TypedSql.Dialect
import TypedSql.Fault

/-!
# Tables of rules

A table is built from registrations. Building fails if a template is malformed or if the choice
between two rules could ever be ambiguous: two overloads with a common lower bound of their types
need an overload for exactly the meet of these types, unless one of the two is narrower anyway. A
call resolves to the narrowest overload that accepts the types of its operands.
-/

namespace TypedSql

/-- A rule whose template is still a text. -/
structure Registration where
  operator : Operator
  result : DataType
  signature : List Parameter
  template : String
  deriving DecidableEq

namespace Registration

/-- The number of operands. -/
def arity (r : Registration) : Nat := (r.signature.filterMap Parameter.type?).length

/-- `rule`: the rule of a registration. -/
def toRule (r : Registration) : Except Fault Rule :=
  match Template.parse r.template r.arity with
  | .ok template => .ok ⟨r.operator, r.result, r.signature, template⟩
  | .error fault => .error (.badTemplate r.operator fault)

/-- A unary operator. -/
def unary (op : UnaryOp) (result operand : DataType) (template : String) : Registration :=
  ⟨.unary op, result, [.type operand], template⟩

/-- A binary operator. -/
def binary (op : BinaryOp) (result left right : DataType) (template : String) : Registration :=
  ⟨.binary op, result, [.type left, .type right], template⟩

/-- A function. -/
def func (name : String) (result : DataType) (args : List DataType) (template : String) :
    Registration :=
  ⟨.func, result, .name name :: args.map .type, template⟩

/-- A method of the type `object`. -/
def meth (object : DataType) (name : String) (result : DataType) (args : List DataType)
    (template : String) : Registration :=
  ⟨.meth, result, .type object :: .name name :: args.map .type, template⟩

/-- An attribute of the type `object`. -/
def attr (object : DataType) (name : String) (result : DataType) (template : String) :
    Registration :=
  ⟨.attr, result, [.type object, .name name], template⟩

/-- An aggregate function. -/
def aggregate (function : Aggregate) (result arg : DataType) (template : String) : Registration :=
  ⟨.aggregate function, result, [.type arg], template⟩

end Registration

/-- The rules with the given key. -/
def overloads (rules : List Rule) (key : Operator × Option String) : List Rule :=
  rules.filter fun r => r.key = key

/-- `check_group`: what is wrong with two overloads, given all overloads with their key. -/
def conflict (all : List Rule) (first second : Rule) : Option Fault :=
  if first.types = second.types then some (.duplicateRule first)
  else if widenAll first.types second.types || widenAll second.types first.types then none
  else
    match meetAll first.types second.types with
    | some meet =>
      if all.any (fun r => r.types = meet) then none else some (.ambiguousRules first second)
    | none => none

/-- The first pair of overloads in conflict, where the first one of the pair is among `rest`. -/
def firstConflict (rules : List Rule) : List Rule → Option Fault
  | [] => none
  | r :: rest =>
    ((overloads rest r.key).findSome? (conflict (overloads rules r.key) r)).or
      (firstConflict rules rest)

/-- A table of rules for a dialect, without conflicts. -/
structure RuleTable where
  dialect : Dialect
  /-- The rules in the order of their registration. -/
  rules : List Rule
  consistent : firstConflict rules rules = none

/-- What a call resolves to. -/
inductive Resolution where
  | rule (rule : Rule)
  /-- No overload accepts the types of the operands. -/
  | noMatch
  /-- Nothing of that name can be called. -/
  | unknownName
  deriving DecidableEq

/-- Finds the rule that is narrower than or equal to all of the given rules. -/
def narrowest? (rules : List Rule) : Option Rule :=
  rules.find? fun r => rules.all fun s => widenAll r.types s.types

namespace RuleTable

/-- The table of the given rules. -/
def ofRules (dialect : Dialect) (rules : List Rule) : Except Fault RuleTable :=
  match h : firstConflict rules rules with
  | none => .ok ⟨dialect, rules, h⟩
  | some fault => .error fault

/-- `build`: builds a table. The first malformed template counts before any conflict. -/
def build (dialect : Dialect) (registrations : List Registration) : Except Fault RuleTable := do
  let rules ← registrations.mapM Registration.toRule
  ofRules dialect rules

/-- Chooses between the overloads that accept the types of the operands. -/
def choose : List Rule → Except Fault Resolution
  | [] => .ok .noMatch
  | first :: rest =>
    match narrowest? (first :: rest) with
    | some r => .ok (.rule r)
    | none => .error (.ambiguousRules first (rest.headD first))

/-- `resolve`: resolves a call. Operands of exactly the types of an overload take that one. -/
def resolve (t : RuleTable) (operator : Operator) (name : Option String) (types : List DataType) :
    Except Fault Resolution :=
  let candidates := overloads t.rules (operator, name)
  if candidates.isEmpty then .ok (if name.isSome then .unknownName else .noMatch)
  else
    match candidates.find? fun r => r.types = types with
    | some r => .ok (.rule r)
    | none => choose (candidates.filter fun r => r.accepts types)

/-- `truth`: the template that turns a value of the given type into 1 or 0, if there is one. -/
def truth (t : RuleTable) (type : DataType) : Except Fault (Option Template) :=
  if type = .bool then .ok (some ⟨[.child 0]⟩)
  else
    match t.resolve .func (some "bool") [type] with
    | .ok (.rule r) => .ok (some r.template)
    | .ok _ => .ok none
    | .error fault => .error fault

end RuleTable

end TypedSql
