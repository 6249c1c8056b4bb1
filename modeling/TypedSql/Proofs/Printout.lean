import TypedSql.Command.Run
import TypedSql.Proofs.Builtins
import TypedSql.Proofs.ReadBack

/-!
# What `compile` prints

Behind the SQL, `compile` prints a comment for each bound value. A comment goes to the end of its
line. The marks of placeholders, dates and moments fit on one line, but the text of a string is
printed as it is, and goes on as SQL behind a line feed. So it is the strings that decide whether
all values are printed as comments.
-/

namespace TypedSql

/-! ## Texts without line feeds -/

theorem Dialect.lineFeed_notMem_placeholder (d : Dialect) (index : Nat) :
    '\n' ∉ (d.placeholder index).toList := by
  have hdigits : '\n' ∉ Nat.toDigits 10 index := Text.notMem_toDigits rfl index
  cases d with
  | oracle => simp [placeholder, Nat.toList_repr, hdigits]
  | postgres => simp [placeholder, Nat.toList_repr, hdigits]

/-- Of all bound values only strings can have line feeds. -/
theorem Param.lineFeed_notMem_text_iff {params : List Param} :
    (∀ p ∈ params, '\n' ∉ p.text.toList) ↔ ∀ s, .str s ∈ params → '\n' ∉ s.toList := by
  constructor
  · intro h s hs
    exact h (.str s) hs
  · intro h p hp
    cases p with
    | str s => exact h s hp
    | date d =>
      rw [text, Date.text, String.toList_ofList]
      exact Date.notMem_chars rfl (by decide) (by decide) d
    | dateTime t =>
      rw [text, DateTime.sqlText, String.toList_ofList]
      exact DateTime.notMem_chars rfl (by decide) (by decide) (by decide) (by decide) t

namespace Command

/-! ## Lines -/

/-- Whether a text consists of the given lines. Each of them is ended by a line feed, and has none
inside. -/
structure IsLines (text : String) (lines : List String) : Prop where
  text_eq : text = String.join (lines.map (· ++ "\n"))
  unbroken : ∀ line ∈ lines, '\n' ∉ line.toList

theorem toList_join_lines (lines : List String) :
    (String.join (lines.map (· ++ "\n"))).toList =
      lines.flatMap fun line => line.toList ++ ['\n'] := by
  simp [String.toList_join, List.flatMap_map]

/-- The line feeds of a text that was made from lines, if some of these had line feeds inside. -/
theorem count_join_lines (lines : List String) :
    (String.join (lines.map (· ++ "\n"))).toList.count '\n' =
      lines.length + (lines.flatMap String.toList).count '\n' := by
  rw [toList_join_lines]
  induction lines with
  | nil => rfl
  | cons line lines ih =>
    simp only [List.flatMap_cons, List.count_append, ih, List.length_cons,
      List.count_singleton_self]
    omega

theorem IsLines.count_eq {text : String} {lines : List String} (h : IsLines text lines) :
    text.toList.count '\n' = lines.length := by
  have hnone : (lines.flatMap String.toList).count '\n' = 0 := by
    refine List.count_eq_zero.2 fun hmem => ?_
    obtain ⟨line, hline, hfeed⟩ := List.mem_flatMap.1 hmem
    exact h.unbroken line hline hfeed
  rw [h.text_eq, count_join_lines, hnone, Nat.add_zero]

/-! ## The comments of bound values -/

/-- The comment for a bound value, without the end of its line. -/
def valueComment (d : Dialect) (index : Nat) (p : Param) : String :=
  "-- " ++ d.placeholder index ++ " = " ++ p.text

/-- The comments for bound values, from a number on. -/
def valueComments (d : Dialect) (index : Nat) (params : List Param) : List String :=
  (params.zipIdx index).map fun x => valueComment d x.2 x.1

theorem paramLines_eq_map (d : Dialect) (index : Nat) (params : List Param) :
    paramLines d index params = (valueComments d index params).map (· ++ "\n") := by
  induction params generalizing index with
  | nil => rfl
  | cons p params ih =>
    rw [paramLines, ih]
    rfl

theorem length_valueComments (d : Dialect) (index : Nat) (params : List Param) :
    (valueComments d index params).length = params.length := by
  rw [valueComments, List.length_map, List.length_zipIdx]

theorem getElem?_valueComments (d : Dialect) (index : Nat) (params : List Param) (k : Nat) :
    (valueComments d index params)[k]? = params[k]?.map (valueComment d (index + k)) := by
  rw [valueComments, List.getElem?_map, List.getElem?_zipIdx, Option.map_map]
  rfl

theorem exists_valueComment_mem {d : Dialect} {index : Nat} {params : List Param} {p : Param}
    (hp : p ∈ params) : ∃ k, valueComment d k p ∈ valueComments d index params := by
  obtain ⟨k, hk⟩ := List.getElem?_of_mem hp
  have hcomment : (valueComments d index params)[k]? = some (valueComment d (index + k) p) := by
    rw [getElem?_valueComments, hk]
    rfl
  exact ⟨index + k, List.mem_of_getElem? hcomment⟩

theorem lineFeed_notMem_valueComment_iff {d : Dialect} {index : Nat} {p : Param} :
    '\n' ∉ (valueComment d index p).toList ↔ '\n' ∉ p.text.toList := by
  have hmark := d.lineFeed_notMem_placeholder index
  simp [valueComment, hmark]

/-- Whether a text consists of a comment line for each of the first placeholders, up to the given
number. -/
def IsCommented (d : Dialect) (count : Nat) (text : String) : Prop :=
  ∃ lines, IsLines text lines ∧ lines.length = count ∧
    ∀ i line, lines[i]? = some line → ("-- " ++ d.placeholder (i + 1)).toList <+: line.toList

/-- The lines for bound values are comments if and only if no value has a line feed. -/
theorem isCommented_paramLines_iff (d : Dialect) (params : List Param) :
    IsCommented d params.length (String.join (paramLines d 1 params)) ↔
      ∀ p ∈ params, '\n' ∉ p.text.toList := by
  rw [paramLines_eq_map]
  constructor
  · -- the line feeds at the ends of the lines are all that there are
    rintro ⟨lines, hlines, hlength, -⟩ p hp
    have hcount := hlines.count_eq
    rw [count_join_lines, length_valueComments, hlength] at hcount
    have hnone : ((valueComments d 1 params).flatMap String.toList).count '\n' = 0 := by omega
    obtain ⟨k, hmem⟩ := exists_valueComment_mem (d := d) hp
    have hunbroken : '\n' ∉ (valueComment d k p).toList := fun hfeed =>
      List.count_eq_zero.1 hnone (List.mem_flatMap.2 ⟨_, hmem, hfeed⟩)
    exact lineFeed_notMem_valueComment_iff.1 hunbroken
  · intro h
    have hunbroken : ∀ line ∈ valueComments d 1 params, '\n' ∉ line.toList := by
      intro line hline
      obtain ⟨x, hx, rfl⟩ := List.mem_map.1 hline
      exact lineFeed_notMem_valueComment_iff.2 (h x.1 (List.fst_mem_of_mem_zipIdx hx))
    refine ⟨_, ⟨rfl, hunbroken⟩, length_valueComments d 1 params, fun i line hline => ?_⟩
    rw [getElem?_valueComments] at hline
    obtain ⟨p, -, rfl⟩ := Option.map_eq_some_iff.1 hline
    refine ⟨" = ".toList ++ p.text.toList, ?_⟩
    simp only [valueComment, String.toList_append, List.append_assoc, Nat.add_comm i 1]

/-- What stands behind a line feed in a bound value is printed at the start of a line. -/
theorem exists_lineStart_paramLines {d : Dialect} {index : Nat} {params : List Param} {p : Param}
    {before after : List Char} (hp : p ∈ params)
    (htext : p.text.toList = before ++ '\n' :: after) :
    ∃ above below, (String.join (paramLines d index params)).toList =
      above ++ '\n' :: (after ++ '\n' :: below) := by
  obtain ⟨k, hmem⟩ := exists_valueComment_mem hp
  obtain ⟨first, last, hlines⟩ := List.append_of_mem hmem
  rw [paramLines_eq_map, toList_join_lines, hlines]
  refine ⟨(first.flatMap fun line => line.toList ++ ['\n']) ++
    ("-- " ++ d.placeholder k ++ " = ").toList ++ before,
    last.flatMap fun line => line.toList ++ ['\n'], ?_⟩
  simp [valueComment, htext]

/-- If `compile` succeeds, then it prints the SQL and, behind it, as many comment lines as there are
bound values, each with the placeholder of its value, if and only if no string that is bound has a
line feed. What stands behind a line feed of a bound string is not part of a comment: it is printed
at the start of a line. -/
theorem run_prints_comments_iff {s : Surroundings} {args : List String} {schemaFile : String}
    {expressionFile : Option String} {d : Dialect} {bind : Bool} {schema : String}
    {expression : Option String} {f : Fragment}
    (hargs : Invocation.parse args = .ok (.compile schemaFile expressionFile d bind false))
    (hexpression : s.expression expressionFile = .ok expression)
    (hschema : s.readFile schemaFile = .ok schema)
    (hcompile : compile ⟨schema, expression, d, bind, false⟩ = .ok (.sql f)) :
    ∃ rest, run s args = ⟨0, f.sql ++ "\n" ++ rest, ""⟩ ∧
      (IsCommented d f.params.length rest ↔ ∀ text, .str text ∈ f.params → '\n' ∉ text.toList) ∧
      ∀ text before after, .str text ∈ f.params → text.toList = before ++ '\n' :: after →
        ∃ above below, rest.toList = above ++ '\n' :: (after ++ '\n' :: below) := by
  refine ⟨String.join (paramLines d 1 f.params), ?_, ?_, ?_⟩
  · have hread : s.read schemaFile = .ok schema := by rw [Surroundings.read, hschema]; rfl
    have houtput : s.output (.compile schemaFile expressionFile d bind false) =
        .ok (CompileOutput.text d (.sql f)) := by
      rw [Surroundings.output]
      refine bind_eq_ok_iff.2 ⟨expression, hexpression, bind_eq_ok_iff.2 ⟨schema, hread, ?_⟩⟩
      exact bind_eq_ok_iff.2 ⟨.sql f, hcompile, rfl⟩
    rw [run, hargs]
    simp only [houtput]
    rfl
  · rw [isCommented_paramLines_iff, Param.lineFeed_notMem_text_iff]
  · intro text before after hmem htext
    exact exists_lineStart_paramLines (p := .str text) hmem htext

/-- The document of a string that goes over two lines. -/
def redDocument : String :=
  "\x7b\"nodetype\": \"const_str\", \"value\": \"red\\ndrop table t\"\x7d"

/-- A string of two lines compiles to one placeholder. -/
theorem compile_redDocument :
    compile ⟨"\x7b\x7d", some redDocument, .oracle, true, false⟩ =
      .ok (.sql ⟨":1", [.str "red\ndrop table t"]⟩) := by
  obtain ⟨rules, hrules⟩ := exists_registry .oracle
  have hschema : parseDocument "\x7b\x7d" = .ok (.obj []) := by cbv
  have hexpression : parseDocument redDocument =
      .ok (.obj [("nodetype", .str "const_str"), ("value", .str "red\ndrop table t")]) := by cbv
  have hnode : Node.decode
      (.obj [("nodetype", .str "const_str"), ("value", .str "red\ndrop table t")]) =
      .ok ⟨.const (.str "red\ndrop table t"), none⟩ := by cbv
  have hdialect : rules.dialect = .oracle := (rules_of_registry hrules).2
  have hsql : compileIn ⟨⟨[]⟩, rules, .bind⟩ false ⟨.const (.str "red\ndrop table t"), none⟩ =
      .ok (.sql ⟨rules.dialect.placeholder 1, [.str "red\ndrop table t"]⟩) := rfl
  rw [hdialect] at hsql
  simp only [compile, hschema, hexpression]
  refine bind_eq_ok_iff.2 ⟨_, rfl, bind_eq_ok_iff.2 ⟨⟨[]⟩, rfl, bind_eq_ok_iff.2 ⟨_, rfl, ?_⟩⟩⟩
  rw [hnode, hrules]
  exact congrArg lift hsql

/-- The second line of a bound string is printed as SQL. -/
theorem run_prints_comments_iff_red :
    let s : Surroundings :=
      ⟨fun name => .ok (if name = "schema.json" then "\x7b\x7d" else redDocument), none⟩
    let args := ["compile", "--schema", "schema.json", "--bind", "red.json"]
    ∃ rest, run s args = ⟨0, ":1" ++ "\n" ++ rest, ""⟩ ∧ ¬ IsCommented .oracle 1 rest ∧
      ∃ above below, rest.toList = above ++ '\n' :: ("drop table t".toList ++ '\n' :: below) := by
  intro s args
  have hargs : Invocation.parse args =
      .ok (.compile "schema.json" (some "red.json") .oracle true false) := by decide
  obtain ⟨rest, hrun, hcommented, hstart⟩ :=
    run_prints_comments_iff (s := s) hargs rfl rfl compile_redDocument
  refine ⟨rest, hrun, ?_, ?_⟩
  · intro h
    have hnone := hcommented.1 h "red\ndrop table t" List.mem_cons_self
    exact absurd hnone (by decide)
  · exact hstart "red\ndrop table t" "red".toList "drop table t".toList List.mem_cons_self
      (by decide)

end Command

end TypedSql
