import TypedSql.Command.Compile
import TypedSql.Proofs.Builtins
import TypedSql.Proofs.Composition
import TypedSql.Proofs.Reports

/-!
# What `compile` answers

With and without a report, `compile` reads the same documents and checks the same expression. From
there on the two ways part: without a report, generating the SQL is what notices that something is
wrong; with a report, SQL is generated only after the expression has been found valid. Both come to
the same, because nothing else is ever refused as unresolved, and an expression that is not valid
has something to report.
-/

namespace TypedSql

/-- Whether a computation fails for nothing but reasons of a kind. -/
def FailsFor {ε α : Type} (P : ε → Prop) (x : Except ε α) : Prop := ∀ e, x = .error e → P e

namespace FailsFor

variable {ε α β : Type} {P : ε → Prop}

theorem ok (a : α) : FailsFor P (.ok a : Except ε α) := by
  intro e h
  cases h

theorem error {e : ε} (h : P e) : FailsFor P (.error e : Except ε α) := by
  intro e' he
  cases he
  exact h

theorem bind {x : Except ε α} {f : α → Except ε β} (hx : FailsFor P x)
    (hf : ∀ a, FailsFor P (f a)) : FailsFor P (x >>= f) := by
  cases x with
  | error e => exact .error (hx e rfl)
  | ok a => exact hf a

end FailsFor

/-! ## What the documents are refused for -/

/-- The faults of a schema document. -/
inductive Fault.OfSchema : Fault → Prop
  | badSchema (fault : SchemaFault) : OfSchema (.badSchema fault)
  | unknownType (name : String) : OfSchema (.unknownType name)

/-- The faults of the document of an expression. -/
inductive Fault.OfDocument : Fault → Prop
  | shape (fault : ShapeFault) : OfDocument (.shape fault)
  | unknownAggregate (name : String) : OfDocument (.unknownAggregate name)

namespace Schema

theorem failsFor_typeOfName (name : String) : FailsFor Fault.OfSchema (typeOfName name) := by
  unfold typeOfName
  split
  · exact .ok _
  · exact .error (.unknownType name)

theorem failsFor_typeOfEntry (entry : List (String × Json)) (identifier : String) :
    FailsFor Fault.OfSchema (typeOfEntry entry identifier) := by
  unfold typeOfEntry
  split
  · exact failsFor_typeOfName _
  · exact .error (.badSchema _)

theorem failsFor_optionalText (entry : List (String × Json)) (member identifier : String) :
    FailsFor Fault.OfSchema (optionalText entry member identifier) := by
  unfold optionalText
  split
  · exact .ok _
  · exact .ok _
  · exact .ok _
  · exact .error (.badSchema _)

mutual

theorem failsFor_readFields : ∀ document, FailsFor Fault.OfSchema (readFields document)
  | .obj members => by
    rw [readFields]
    exact failsFor_readEntries members
  | .null | .bool _ | .number _ | .str _ | .arr _ => .error (.badSchema .notObject)

theorem failsFor_readEntries : ∀ members, FailsFor Fault.OfSchema (readEntries members)
  | [] => .ok []
  | (identifier, entry) :: rest => by
    rw [readEntries]
    refine (failsFor_readField identifier entry).bind fun f => ?_
    exact (failsFor_readEntries rest).bind fun fs => .ok (f :: fs)

theorem failsFor_readField (identifier : String) :
    ∀ entry, FailsFor Fault.OfSchema (readField identifier entry)
  | .str name => (failsFor_typeOfName name).bind fun _ => .ok _
  | .obj entry => by
    rw [readField]
    refine (failsFor_typeOfEntry entry identifier).bind fun t => ?_
    refine (failsFor_optionalText entry "sql" identifier).bind fun sql => ?_
    refine (failsFor_optionalText entry "join" identifier).bind fun join => ?_
    split
    · exact .ok _
    · rename_i group fields hgroup
      refine (failsFor_optionalText group "table" identifier).bind fun table => ?_
      exact (failsFor_readGroup entry hgroup).bind fun fields => .ok _
    · exact .error (.badSchema _)
  | .null | .bool _ | .number _ | .arr _ => .error (.badSchema (.badEntry identifier))

theorem failsFor_readGroup : ∀ members {group fields},
    readGroup members = .group group fields → FailsFor Fault.OfSchema fields
  | [], _, _, h => by cases h
  | (member, value) :: rest, group, fields, h => by
    by_cases hmember : member = "group"
    · subst hmember
      cases value with
      | obj entry =>
        have hfields : readGroupFields entry = fields := (GroupEntry.group.inj h).2
        rw [← hfields]
        exact failsFor_readGroupFields entry
      | _ => cases h
    · have hrest : readGroup ((member, value) :: rest) = readGroup rest := by
        cases value <;> simp only [readGroup, if_neg hmember]
      exact failsFor_readGroup rest (hrest.symm.trans h)

theorem failsFor_readGroupFields : ∀ members, FailsFor Fault.OfSchema (readGroupFields members)
  | [] => .ok []
  | (member, value) :: rest => by
    rw [readGroupFields]
    split
    · exact failsFor_readFields value
    · exact failsFor_readGroupFields rest

end

theorem failsFor_ofJson (document : Json) : FailsFor Fault.OfSchema (ofJson document) :=
  (failsFor_readFields document).bind fun _ => .ok _

end Schema

namespace Node

theorem failsFor_misshapen {α : Type} (fault : ShapeFault) :
    FailsFor Fault.OfDocument (misshapen fault : Except Fault α) :=
  .error (.shape fault)

theorem failsFor_textOf (value : Json) : FailsFor Fault.OfDocument (textOf value) := by
  unfold textOf
  split
  · exact .ok _
  · exact failsFor_misshapen _

theorem failsFor_decimalOf (value : Json) : FailsFor Fault.OfDocument (decimalOf value) := by
  unfold decimalOf
  simp only
  split
  · exact failsFor_misshapen _
  · split
    · exact .ok _
    · exact failsFor_misshapen _

theorem failsFor_dateOf (value : Json) : FailsFor Fault.OfDocument (dateOf value) := by
  refine (failsFor_textOf value).bind fun text => ?_
  split
  · exact .ok _
  · exact failsFor_misshapen _

theorem failsFor_dateTimeOf (value : Json) : FailsFor Fault.OfDocument (dateTimeOf value) := by
  refine (failsFor_textOf value).bind fun text => ?_
  split
  · exact .ok _
  · exact failsFor_misshapen _

theorem failsFor_aggregateOf (value : Json) : FailsFor Fault.OfDocument (aggregateOf value) := by
  refine (failsFor_textOf value).bind fun name => ?_
  split
  · exact .ok _
  · exact .error (.unknownAggregate name)

theorem failsFor_assemble (kind : Kind) (value : Json) (children : List Node) :
    FailsFor Fault.OfDocument (assemble kind value children) := by
  unfold assemble
  split
  · exact failsFor_misshapen _
  · cases kind with
    | null => exact .ok _
    | bool =>
      simp only
      split
      · exact .ok _
      · exact failsFor_misshapen _
    | int =>
      simp only
      split
      · exact .ok _
      · exact failsFor_misshapen _
    | number => exact (failsFor_decimalOf value).bind fun _ => .ok _
    | str => exact (failsFor_textOf value).bind fun _ => .ok _
    | date => exact (failsFor_dateOf value).bind fun _ => .ok _
    | dateTime => exact (failsFor_dateTimeOf value).bind fun _ => .ok _
    | field => exact (failsFor_textOf value).bind fun _ => .ok _
    | func => exact (failsFor_textOf value).bind fun _ => .ok _
    | aggregate => exact (failsFor_aggregateOf value).bind fun _ => .ok _
    | meth =>
      simp only
      split
      · exact (failsFor_textOf value).bind fun _ => .ok _
      · exact failsFor_misshapen _
    | attr =>
      simp only
      split
      · exact (failsFor_textOf value).bind fun _ => .ok _
      · exact failsFor_misshapen _
    | _ =>
      simp only
      split
      · exact .ok _
      · exact failsFor_misshapen _

theorem failsFor_kindOf (members : List (String × Json)) :
    FailsFor Fault.OfDocument (kindOf members) := by
  unfold kindOf
  split
  · exact failsFor_misshapen _
  · split
    · exact .ok _
    · exact failsFor_misshapen _

theorem failsFor_ofMembers (members : List (String × Json)) {children : Except Fault (List Node)}
    (h : FailsFor Fault.OfDocument children) :
    FailsFor Fault.OfDocument (ofMembers members children) := by
  refine (failsFor_kindOf members).bind fun kind => ?_
  refine h.bind fun children => ?_
  exact (failsFor_assemble kind _ children).bind fun e => .ok _

mutual

theorem failsFor_decode : ∀ document, FailsFor Fault.OfDocument (decode document)
  | .obj members => by
    rw [decode]
    exact failsFor_ofMembers members (failsFor_decodeChildren members)
  | .null | .bool _ | .number _ | .str _ | .arr _ => failsFor_misshapen _

theorem failsFor_decodeChildren : ∀ members, FailsFor Fault.OfDocument (decodeChildren members)
  | [] => .ok []
  | (member, value) :: rest => by
    by_cases hmember : member = "children"
    · subst hmember
      cases value with
      | null => exact .ok []
      | arr items => exact failsFor_decodeItems items
      | _ => exact failsFor_misshapen _
    · have hrest : decodeChildren ((member, value) :: rest) = decodeChildren rest := by
        cases value <;> simp only [decodeChildren, if_neg hmember]
      rw [hrest]
      exact failsFor_decodeChildren rest

theorem failsFor_decodeItems : ∀ items, FailsFor Fault.OfDocument (decodeItems items)
  | [] => .ok []
  | item :: items => by
    rw [decodeItems]
    refine (failsFor_decode item).bind fun n => ?_
    exact (failsFor_decodeItems items).bind fun ns => .ok (n :: ns)

end

end Node

namespace Command

/-! ## What is compiled -/

/-- What the documents given to `compile` are read as. -/
def CompileOptions.read (o : CompileOptions) : Except CommandFault (Context × Node) :=
  match o.expression with
  | none => .error .noInput
  | some text => do
    let document ← parseDocument o.schema
    let schema ← lift (Schema.ofJson document)
    let document ← parseDocument text
    let n ← lift (Node.decode document)
    let rules ← lift (registry o.dialect)
    return (⟨schema, rules, o.literals⟩, n)

/-- Whether a fault says that an expression has errors. -/
def CommandFault.IsUnresolved (fault : CommandFault) : Prop :=
  ∃ reports, fault = .refused (.unresolved reports)

theorem failsFor_lift {α : Type} {P : Fault → Prop} {x : Except Fault α} (h : FailsFor P x)
    (hP : ∀ fault, P fault → ∀ reports, fault ≠ .unresolved reports) :
    FailsFor (fun fault => ¬ fault.IsUnresolved) (lift x) := by
  cases x with
  | ok a => exact .ok a
  | error fault =>
    refine .error ?_
    rintro ⟨reports, hunresolved⟩
    exact hP fault (h fault rfl) reports (CommandFault.refused.inj hunresolved)

theorem failsFor_parseDocument (text : String) :
    FailsFor (fun fault => ¬ fault.IsUnresolved) (parseDocument text) := by
  unfold parseDocument
  split
  · exact .ok _
  · refine .error ?_
    rintro ⟨reports, hunresolved⟩
    cases hunresolved

theorem lift_registry {d : Dialect} {rules : RuleTable} (h : registry d = .ok rules) :
    lift (registry d) = .ok rules := by
  rw [h]
  rfl

/-- Reading the documents never finds an expression to have errors. -/
theorem failsFor_read (o : CompileOptions) :
    FailsFor (fun fault => ¬ fault.IsUnresolved) o.read := by
  unfold CompileOptions.read
  split
  · refine .error ?_
    rintro ⟨reports, hunresolved⟩
    cases hunresolved
  · obtain ⟨rules, hrules⟩ := exists_registry o.dialect
    refine (failsFor_parseDocument _).bind fun schema => ?_
    refine (failsFor_lift (Schema.failsFor_ofJson schema) ?_).bind fun schema => ?_
    · rintro fault (_ | _) reports hunresolved <;> cases hunresolved
    refine (failsFor_parseDocument _).bind fun document => ?_
    refine (failsFor_lift (Node.failsFor_decode document) ?_).bind fun n => ?_
    · rintro fault (_ | _) reports hunresolved <;> cases hunresolved
    rw [lift_registry hrules]
    exact .ok _

theorem inRange_of_read {o : CompileOptions} {ctx : Context} {n : Node}
    (h : o.read = .ok (ctx, n)) : ctx.rules.InRange := by
  unfold CompileOptions.read at h
  split at h
  · cases h
  · obtain ⟨schema, -, h⟩ := bind_eq_ok_iff.1 h
    obtain ⟨schema, -, h⟩ := bind_eq_ok_iff.1 h
    obtain ⟨document, -, h⟩ := bind_eq_ok_iff.1 h
    obtain ⟨n', -, h⟩ := bind_eq_ok_iff.1 h
    obtain ⟨rules, hrules⟩ := exists_registry o.dialect
    rw [lift_registry hrules] at h
    cases h
    exact inRange_of_registry hrules

theorem compile_eq_bind (o : CompileOptions) :
    compile o = o.read >>= fun p => lift (compileIn p.1 o.json p.2) := by
  unfold compile CompileOptions.read
  cases o.expression with
  | none => rfl
  | some text => simp only [bind_assoc, pure_bind]

/-! ## The two ways of answering -/

/-- Whether an answer and a report say the same about an expression: both are that of its SQL, or
both are about what is wrong with it, or there is neither, for the same reason. -/
inductive Agree : Except CommandFault CompileOutput → Except CommandFault CompileOutput → Prop
  | sql {f : Fragment} {t : DataType} {document : Json} :
    document.get? "sql" = some (.str f.sql) →
    document.get? "params" = some (.arr (f.params.map fun p => .str p.text)) →
    document.get? "errors" = some (.arr []) →
    document.get? "datatype" = some (.str t.name) →
    Agree (.ok (.sql f)) (.ok (.report document))
  | unresolved {reports : List Report} {document : Json} :
    reports ≠ [] →
    document.get? "sql" = some .null →
    document.get? "params" = some (.arr []) →
    document.get? "errors" = some (.arr (reports.map encodeReport)) →
    document.get? "datatype" = some .null →
    Agree (.error (.refused (.unresolved reports))) (.ok (.report document))
  | refused {fault : CommandFault} : ¬ fault.IsUnresolved → Agree (.error fault) (.error fault)

variable {ctx : Context} {n : Node} {c : Checked}

theorem compileIn_of_check {json : Bool} (h : ctx.check n = .ok c) :
    compileIn ctx json n =
      if json then (generateValid ctx n c).map fun f => .report (encodeAnswer ctx.dialect n c f)
      else (ctx.compile n).map .sql := by
  rw [compileIn, Context.compile_of_check h, h]
  cases json with
  | true =>
    cases hsql : generateValid ctx n c with
    | error fault => simp [bind, Except.bind, Except.map, hsql]
    | ok f => simp [bind, Except.bind, Except.map, hsql, pure, Except.pure]
  | false =>
    cases hsql : ctx.generate n c with
    | error fault => simp [bind, Except.bind, Except.map, hsql]
    | ok f => simp [bind, Except.bind, Except.map, hsql, pure, Except.pure]

/-- The report on an expression that is not valid holds what is wrong with it. -/
theorem agree_of_isValid_eq_false (h : ctx.check n = .ok c) (hv : c.isValid = false) :
    Agree (.error (.refused (.unresolved (n.report c))))
      (.ok (.report (encodeAnswer ctx.dialect n c none))) := by
  have hreport : n.report c ≠ [] := by
    rw [Context.report_eq_map_causes h, Ne, List.map_eq_nil_iff]
    exact Context.causes_ne_nil h hv
  have htype : c.dataType? = none := by
    obtain ⟨verdict, level, children⟩ := c
    cases verdict with
    | failed d => rfl
    | _ => cases hv
  refine .unresolved hreport rfl rfl rfl ?_
  rw [encodeAnswer, htype]
  rfl

/-- The report on a valid expression holds its SQL and its type. -/
theorem agree_of_isValid (hv : c.isValid = true) (f : Fragment) :
    Agree (.ok (.sql f)) (.ok (.report (encodeAnswer ctx.dialect n c (some f)))) := by
  obtain ⟨t, ht⟩ := Checked.exists_dataType? hv
  have hreport : n.report c = [] :=
    Node.report_of_diagnostic?_eq_none (Option.isNone_iff_eq_none.1 hv)
  refine .sql (t := t) rfl rfl ?_ ?_
  · rw [encodeAnswer, hreport]
    rfl
  · rw [encodeAnswer, ht]
    rfl

theorem agree_compileIn (hrules : ctx.rules.InRange) (n : Node) :
    Agree (lift (compileIn ctx false n)) (lift (compileIn ctx true n)) := by
  cases hcheck : ctx.check n with
  | error fault =>
    obtain ⟨g, count, source, rfl⟩ := Context.malformed_of_check_eq_error hcheck
    have hanswer (json : Bool) :
        compileIn ctx json n = .error (.malformedAggregate g count source) := by
      rw [compileIn, hcheck]
      rfl
    rw [hanswer, hanswer]
    refine .refused ?_
    rintro ⟨reports, hunresolved⟩
    cases hunresolved
  | ok c =>
    rw [compileIn_of_check hcheck, compileIn_of_check hcheck, generateValid]
    cases hv : c.isValid with
    | false =>
      rw [Context.compile_of_isValid_eq_false hcheck hv]
      exact agree_of_isValid_eq_false hcheck hv
    | true =>
      rw [← Context.compile_of_check hcheck]
      cases hcompile : ctx.compile n with
      | ok f => exact agree_of_isValid hv f
      | error fault =>
        -- nothing is wrong with the expression, so it is one of its fields that was not joined
        have hfault : ∀ reports, fault ≠ .unresolved reports := by
          rcases Context.compile_eq_error hrules hcompile with
            ⟨hfails, -⟩ | ⟨c', hc', hinvalid, -⟩ | ⟨path, -, rfl⟩
          · cases hcheck.symm.trans hfails
          · cases hcheck.symm.trans hc'
            cases hv.symm.trans hinvalid
          · intro reports hunresolved
            cases hunresolved
        refine .refused ?_
        rintro ⟨reports, hunresolved⟩
        exact hfault reports (CommandFault.refused.inj hunresolved)

/-- With and without a report, `compile` answers the same. If it answers with SQL, then the report
holds that SQL with its parameters, no errors and a type. If it refuses the expression for its
errors, then there are some, and the report holds exactly these and neither SQL nor a type.
Otherwise, a report is refused for what the answer was refused for. -/
theorem compile_answers_agree (schema : String) (expression : Option String) (dialect : Dialect)
    (bind : Bool) :
    Agree (compile ⟨schema, expression, dialect, bind, false⟩)
      (compile ⟨schema, expression, dialect, bind, true⟩) := by
  rw [compile_eq_bind, compile_eq_bind]
  -- the documents are read alike
  have hsame : CompileOptions.read ⟨schema, expression, dialect, bind, true⟩ =
      CompileOptions.read ⟨schema, expression, dialect, bind, false⟩ := rfl
  rw [hsame]
  cases hread : CompileOptions.read ⟨schema, expression, dialect, bind, false⟩ with
  | error fault => exact .refused (failsFor_read _ fault hread)
  | ok p => exact agree_compileIn (inRange_of_read hread) p.2

end Command

end TypedSql
