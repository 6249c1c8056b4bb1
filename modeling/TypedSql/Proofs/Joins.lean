import TypedSql.Proofs.Checking
import TypedSql.Proofs.Paths
import TypedSql.Query.Step

/-!
# What joining does to a query

Joining adds tables, aliases and conditions of plain SQL, and nothing else: the select list, the
grouping and the order are left alone. A step that has checked an expression can always join what
the fields of the expression need, so a valid expression is never refused for a missing table.
-/

namespace TypedSql

/-! ## Lists of entries -/

theorem mem_pushEntry_iff {entries : List Entry} {entry e : Entry} :
    e ∈ pushEntry entries entry ↔
      e ∈ entries ∨ e = entry ∧ ∀ d ∈ entries, d.key ≠ entry.key := by
  unfold pushEntry
  by_cases hkey : ∃ d ∈ entries, d.key = entry.key
  · have hany : (entries.any fun d => d.key = entry.key) = true := by simpa using hkey
    rw [if_pos hany]
    constructor
    · exact Or.inl
    · rintro (he | ⟨-, hne⟩)
      · exact he
      · obtain ⟨d, hd, hd'⟩ := hkey
        exact absurd hd' (hne d hd)
  · have hany : ¬ (entries.any fun d => d.key = entry.key) = true := by simpa using hkey
    have hne : ∀ d ∈ entries, d.key ≠ entry.key := fun d hd hd' => hkey ⟨d, hd, hd'⟩
    rw [if_neg hany, List.mem_append, List.mem_singleton]
    exact or_congr_right (and_iff_left hne).symm

theorem mem_pushEntry {entries : List Entry} {entry e : Entry} (h : e ∈ pushEntry entries entry) :
    e ∈ entries ∨ e = entry := by
  rcases mem_pushEntry_iff.1 h with h | ⟨h, -⟩
  · exact Or.inl h
  · exact Or.inr h

theorem mem_foldl_pushEntry {entries asked : List Entry} {e : Entry}
    (h : e ∈ asked.foldl pushEntry entries) : e ∈ entries ∨ e ∈ asked := by
  induction asked generalizing entries with
  | nil => exact Or.inl h
  | cons a asked ih =>
    rw [List.foldl_cons] at h
    rcases ih h with h | h
    · rcases mem_pushEntry h with h | rfl
      · exact Or.inl h
      · exact Or.inr List.mem_cons_self
    · exact Or.inr (List.mem_cons_of_mem a h)

theorem pushEntry_ne_nil (entries : List Entry) (entry : Entry) :
    pushEntry entries entry ≠ [] := by
  unfold pushEntry
  split
  · rename_i hany
    rintro rfl
    simp at hany
  · simp

/-- A list of entries is empty only if nothing was in it and nothing was asked for. -/
theorem foldl_pushEntry_ne_nil_iff {entries asked : List Entry} :
    asked.foldl pushEntry entries ≠ [] ↔ entries ≠ [] ∨ asked ≠ [] := by
  induction asked generalizing entries with
  | nil => simp
  | cons a asked ih =>
    rw [List.foldl_cons, ih]
    simp [pushEntry_ne_nil]

namespace Query

/-! ## A single join -/

/-- The condition that a join asks for; an empty one asks for nothing. -/
def joinCondition (q : Query) (path : String) (r : Reference Field) : List Entry :=
  let condition := r.condition (q.parentAlias path) q.nextAlias
  if condition.isEmpty then [] else [.sql condition]

theorem mem_joinCondition {q : Query} {path : String} {r : Reference Field} {e : Entry}
    (h : e ∈ q.joinCondition path r) : ∃ text, e = .sql text := by
  simp only [joinCondition] at h
  split at h
  · cases h
  · exact ⟨_, List.mem_singleton.1 h⟩

/-- A join touches the tables, the aliases and the conditions. -/
theorem addJoin_eq (q : Query) (path : String) (r : Reference Field) :
    q.addJoin path r =
      { q with
        tables := q.tables ++ (r.group.table.map (⟨·, some q.nextAlias⟩)).toList
        conditions := (q.joinCondition path r).foldl pushEntry q.conditions
        aliases := q.aliases ++ [(path, r.group.table.map fun _ => q.nextAlias)] } := by
  simp only [addJoin, joinCondition]
  by_cases hempty : (r.condition (q.parentAlias path) q.nextAlias).isEmpty = true
  · rw [if_pos hempty, if_pos hempty]
    cases r.group.table <;> simp [pushTable]
  · rw [if_neg hempty, if_neg hempty]
    cases r.group.table <;> simp [pushTable, pushCondition]

/-- Whether a path leads to no group, for the reason that a fault gives. -/
def LacksGroup (s : Schema) (path : String) (fault : Fault) : Prop :=
  (s.resolve? path = none ∧ fault = .unknownField path) ∨
    ∃ f, s.resolve? path = some f ∧ f.reference = none ∧ fault = .noReference path

/-- Joining the last group of a path does nothing if that was done before. Otherwise it is refused,
or it joins the group that the path leads to. -/
theorem joinLast_cases (q : Query) (path : String) :
    (∃ a, q.aliases.lookup path = some a ∧ q.joinLast path = .done q) ∨
      (∃ fault, LacksGroup q.context.schema path fault ∧ q.joinLast path = .refused q fault) ∨
      ∃ f r, q.aliases.lookup path = none ∧ q.context.schema.resolve? path = some f ∧
        f.reference = some r ∧ q.joinLast path = .done (q.addJoin path r) := by
  unfold joinLast Context.requireField
  cases hlookup : q.aliases.lookup path with
  | some a => exact Or.inl ⟨a, rfl, rfl⟩
  | none =>
    cases hf : q.context.schema.resolve? path with
    | none => exact Or.inr (Or.inl ⟨_, Or.inl ⟨hf, rfl⟩, rfl⟩)
    | some f =>
      cases hr : f.reference with
      | none => exact Or.inr (Or.inl ⟨_, Or.inr ⟨f, hf, hr, rfl⟩, by simp [hr]⟩)
      | some r => exact Or.inr (Or.inr ⟨f, r, rfl, rfl, hr, by simp [hr]⟩)

theorem joinLast_query (q : Query) (path : String) :
    (q.joinLast path).query = q ∨ ∃ r, (q.joinLast path).query = q.addJoin path r := by
  rcases q.joinLast_cases path with ⟨_, -, h⟩ | ⟨_, -, h⟩ | ⟨_, r, -, -, -, h⟩
  · exact Or.inl (by rw [h]; rfl)
  · exact Or.inl (by rw [h]; rfl)
  · exact Or.inr ⟨r, by rw [h]; rfl⟩

/-! ## One join after the other -/

/-- What every single join keeps is kept by joining paths one after the other. -/
theorem joinEach_induction {P : Query → Prop} (step : ∀ q path r, P q → P (addJoin q path r))
    {q : Query} (h : P q) (paths : List String) : P (q.joinEach paths).query := by
  induction paths generalizing q with
  | nil => exact h
  | cons path paths ih =>
    have hlast : P (q.joinLast path).query := by
      rcases q.joinLast_query path with hq | ⟨r, hq⟩
      · rwa [hq]
      · rw [hq]
        exact step q path r h
    rw [joinEach, Outcome.andThen]
    split
    · exact ih hlast
    · exact hlast

theorem joinEach_append (q : Query) (paths others : List String) :
    q.joinEach (paths ++ others) = (q.joinEach paths).andThen fun q => q.joinEach others := by
  induction paths generalizing q with
  | nil => rfl
  | cons path paths ih =>
    rw [List.cons_append, joinEach, joinEach]
    cases hfault : (q.joinLast path).fault with
    | none => simp only [Outcome.andThen, hfault, ih]
    | some fault => simp only [Outcome.andThen, hfault]

theorem joinEach_singleton (q : Query) (path : String) : q.joinEach [path] = q.joinLast path := by
  rw [joinEach, Outcome.andThen]
  split
  · rename_i hfault
    rw [joinEach, Outcome.done, ← hfault]
  · rfl

theorem join_of_splitLast?_eq_none {path : String} (h : Path.splitLast? path = none) (q : Query) :
    q.join path = q.joinLast path := by
  rw [join, Path.prefixes_of_splitLast?_eq_none h, joinEach_singleton]

/-- A dotted path is joined by joining its parent and then its last group. -/
theorem join_of_splitLast?_eq_some {path parent identifier : String}
    (h : Path.splitLast? path = some (parent, identifier)) (q : Query) :
    q.join path = (q.join parent).andThen fun q => q.joinLast path := by
  rw [join, Path.prefixes_of_splitLast?_eq_some h, joinEach_append]
  simp only [joinEach_singleton, join]

/-- Joining all groups along several paths is joining the paths that they pass through. -/
theorem joinPaths_eq (q : Query) (paths : List String) :
    q.joinPaths paths = q.joinEach (paths.flatMap Path.prefixes) := by
  induction paths generalizing q with
  | nil => rfl
  | cons path paths ih =>
    rw [List.flatMap_cons, joinEach_append, joinPaths, join]
    simp only [ih]

/-! ## What is left alone -/

/-- Whether a query differs from another one only in what joins may add to it. -/
structure ExtendsByJoins (q' q : Query) : Prop where
  context : q'.context = q.context
  mode : q'.mode = q.mode
  select : q'.select = q.select
  groupBy : q'.groupBy = q.groupBy
  orderBy : q'.orderBy = q.orderBy
  aliases : q.aliases <+: q'.aliases
  /-- A new condition is plain SQL. -/
  conditions : ∀ e ∈ q'.conditions, e ∈ q.conditions ∨ ∃ text, e = .sql text

namespace ExtendsByJoins

theorem refl (q : Query) : q.ExtendsByJoins q :=
  ⟨rfl, rfl, rfl, rfl, rfl, List.prefix_rfl, fun _ => Or.inl⟩

theorem addJoin {q' q : Query} (h : q'.ExtendsByJoins q) (path : String) (r : Reference Field) :
    (q'.addJoin path r).ExtendsByJoins q := by
  rw [addJoin_eq]
  refine ⟨h.context, h.mode, h.select, h.groupBy, h.orderBy, ?_, fun e he => ?_⟩
  · exact h.aliases.trans (List.prefix_append _ _)
  dsimp only at he
  rcases mem_foldl_pushEntry he with he | he
  · exact h.conditions e he
  · exact Or.inr (mem_joinCondition he)

end ExtendsByJoins

theorem extendsByJoins_joinLast (q : Query) (path : String) :
    (q.joinLast path).query.ExtendsByJoins q := by
  rcases q.joinLast_query path with hq | ⟨r, hq⟩ <;> rw [hq]
  · exact .refl q
  · exact (ExtendsByJoins.refl q).addJoin path r

theorem extendsByJoins_joinEach (q : Query) (paths : List String) :
    (q.joinEach paths).query.ExtendsByJoins q :=
  joinEach_induction (P := fun q' => q'.ExtendsByJoins q) (fun _ path r h => h.addJoin path r)
    (.refl q) paths

theorem extendsByJoins_joinPaths (q : Query) (paths : List String) :
    (q.joinPaths paths).query.ExtendsByJoins q := by
  rw [joinPaths_eq]
  exact q.extendsByJoins_joinEach _

theorem extendsByJoins_joinFields (q : Query) (n : Node) :
    (q.joinFields n).query.ExtendsByJoins q := q.extendsByJoins_joinPaths n.fieldParents

/-! ## Joining never fails for a valid expression -/

/-- Whether a path leads to a field that refers to a group. -/
def Joinable (s : Schema) (path : String) : Prop :=
  ∃ f r, s.resolve? path = some f ∧ f.reference = some r

theorem joinLast_fault {q : Query} {path : String} (h : Joinable q.context.schema path) :
    (q.joinLast path).fault = none := by
  obtain ⟨f, r, hf, hr⟩ := h
  unfold joinLast
  split
  · rfl
  · simp [Context.requireField, hf, hr, Outcome.done]

theorem joinEach_fault {q : Query} {paths : List String}
    (h : ∀ path ∈ paths, Joinable q.context.schema path) : (q.joinEach paths).fault = none := by
  induction paths generalizing q with
  | nil => rfl
  | cons path paths ih =>
    rw [joinEach, Outcome.andThen, joinLast_fault (h path List.mem_cons_self)]
    refine ih fun p hp => ?_
    rw [(q.extendsByJoins_joinLast path).context]
    exact h p (List.mem_cons_of_mem path hp)

end Query

namespace Node

theorem fieldParents_field {n : Node} {path : String} (h : n.expr = .field path) :
    n.fieldParents = ((Path.splitLast? path).map (·.1)).toList := by
  rw [fieldParents, fold_eq, h]
  rfl

theorem fieldParents_of_ne {n : Node} (h : ∀ path, n.expr ≠ .field path) :
    n.fieldParents = (n.children.map fieldParents).flatten := by
  rw [fieldParents, fold_eq, ← fieldParents, children, ← Expr.children_map]
  cases he : n.expr with
  | field path => exact absurd he (h path)
  | _ => rfl

/-- The paths that have to be joined for an expression are the parents of its dotted fields. -/
theorem mem_fieldParents_iff {n : Node} {parent : String} :
    parent ∈ n.fieldParents ↔ ∃ m ∈ n.preorder, ∃ path identifier,
      m.expr = .field path ∧ Path.splitLast? path = some (parent, identifier) := by
  induction n using Node.induction with
  | step n ih =>
    by_cases hfield : ∃ path, n.expr = .field path
    · obtain ⟨path, hn⟩ := hfield
      have hchildren : n.children = [] := by rw [children, hn]; rfl
      rw [fieldParents_field hn, Option.mem_toList, Option.map_eq_some_iff]
      constructor
      · rintro ⟨⟨_, identifier⟩, hsplit, rfl⟩
        exact ⟨n, mem_preorder_self n, path, identifier, hn, hsplit⟩
      · rintro ⟨m, hm, path', identifier, hm', hsplit⟩
        rw [mem_preorder_iff, hchildren] at hm
        rcases hm with rfl | ⟨_, hnil, -⟩
        · rw [hn] at hm'
          cases hm'
          exact ⟨_, hsplit, rfl⟩
        · cases hnil
    · have hne : ∀ path, n.expr ≠ .field path := fun path hn => hfield ⟨path, hn⟩
      rw [fieldParents_of_ne hne, ← List.flatMap_def, List.mem_flatMap]
      constructor
      · rintro ⟨child, hchild, hparent⟩
        obtain ⟨m, hm, hrest⟩ := (ih child hchild).1 hparent
        exact ⟨m, mem_preorder_iff.2 (Or.inr ⟨child, hchild, hm⟩), hrest⟩
      · rintro ⟨m, hm, path, identifier, hm', hsplit⟩
        rcases mem_preorder_iff.1 hm with rfl | ⟨child, hchild, hm⟩
        · exact absurd hm' (hne path)
        · exact ⟨child, hchild, (ih child hchild).2 ⟨m, hm, path, identifier, hm', hsplit⟩⟩

end Node

/-- What the fields of a valid expression need can be joined. -/
theorem Query.joinFields_fault {q : Query} {n : Node} {c : Checked}
    (h : q.context.check n = .ok c) (hv : c.isValid = true) : (q.joinFields n).fault = none := by
  rw [joinFields, joinPaths_eq]
  refine joinEach_fault fun front hfront => ?_
  obtain ⟨parent, hparent, hfront⟩ := List.mem_flatMap.1 hfront
  obtain ⟨m, hm, path, identifier, hfield, hsplit⟩ := Node.mem_fieldParents_iff.1 hparent
  obtain ⟨f, hf⟩ := Context.resolve?_of_mem_preorder h hv hm hfield
  obtain ⟨rest, hrest⟩ := Path.exists_rest_of_mem_prefixes hsplit hfront
  exact Schema.resolve?_of_append_dot hf hrest

end TypedSql
