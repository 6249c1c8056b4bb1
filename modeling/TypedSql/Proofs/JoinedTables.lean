import TypedSql.Proofs.Grouping
import TypedSql.Proofs.ReadBack

/-!
# The tables behind dotted paths

A query remembers which paths it has joined, and under which alias. The alias counts the tables: the
table that is joined at position `k` gets the alias `tk`, whatever stands before it. This stays true
through all steps, refused ones included, so the alias in front of a column is always that of the
table that the column was looked up in. With a path, all paths that it passes through have been
joined, so it does not matter whether joining a path starts from its first segment or from its last.
-/

namespace TypedSql

/-! ## Aliases -/

/-- The alias of a table that is joined at a position, counted from one. -/
def tableAlias (position : Nat) : String := "t" ++ toString position

theorem tableAlias_injective {j k : Nat} (h : tableAlias j = tableAlias k) : j = k := by
  have hrepr : j.repr = k.repr := by
    rw [tableAlias, tableAlias, Nat.toString_eq_repr, Nat.toString_eq_repr] at h
    exact (String.append_right_inj "t").1 h
  refine Text.toDigits_injective ?_
  rw [← Nat.toList_repr, ← Nat.toList_repr, hrepr]

/-- Whether a table is listed under an alias, at the position that the alias counts. A group without
table has no alias. -/
def Owns (tables : List TableItem) (table aliasName : Option String) : Prop :=
  match table, aliasName with
  | none, none => True
  | some table, some name =>
    ∃ k, name = tableAlias (k + 1) ∧ tables[k]? = some ⟨table, some name⟩
  | _, _ => False

theorem Owns.append {tables : List TableItem} {table aliasName : Option String}
    (h : Owns tables table aliasName) (more : List TableItem) :
    Owns (tables ++ more) table aliasName := by
  cases table with
  | none => cases aliasName <;> exact h
  | some table =>
    cases aliasName with
    | none => exact h
    | some name =>
      obtain ⟨k, hname, htable⟩ := h
      obtain ⟨hk, -⟩ := List.getElem?_eq_some_iff.1 htable
      exact ⟨k, hname, by rw [List.getElem?_append_left hk, htable]⟩

theorem Owns.position_le {tables : List TableItem} {table : Option String} {position : Nat}
    (h : Owns tables table (some (tableAlias position))) : position ≤ tables.length := by
  cases table with
  | none => exact h.elim
  | some table =>
    obtain ⟨k, hname, htable⟩ := h
    obtain ⟨hk, -⟩ := List.getElem?_eq_some_iff.1 htable
    have hposition := tableAlias_injective hname
    omega

namespace Aliases

/-- The paths that have been joined. -/
def paths (aliases : Aliases) : List String := aliases.map Prod.fst

theorem paths_concat (aliases : Aliases) (path : String) (a : Option String) :
    Aliases.paths (aliases ++ [(path, a)]) = aliases.paths ++ [path] := by
  rw [paths, List.map_append, List.map_singleton, paths]

theorem mem_paths_iff {aliases : Aliases} {path : String} :
    path ∈ aliases.paths ↔ ∃ a, aliases.lookup path = some a := by
  rw [← Option.isSome_iff_exists, List.lookup_isSome_iff, paths, List.mem_map]
  simp only [beq_iff_eq, @eq_comm _ path]

theorem mem_of_lookup {aliases : Aliases} {path : String} {a : Option String}
    (h : aliases.lookup path = some a) : (path, a) ∈ aliases := by
  obtain ⟨before, after, rfl, -⟩ := List.lookup_eq_some_iff.1 h
  simp

/-- Whether with each joined path the path before its last dot has been joined. -/
def IsPrefixClosed (aliases : Aliases) : Prop :=
  ∀ path ∈ aliases.paths, ∀ parent identifier,
    Path.splitLast? path = some (parent, identifier) → parent ∈ aliases.paths

/-- With a path, every path that it passes through has been joined. -/
theorem IsPrefixClosed.mem_paths_of_mem_prefixes {aliases : Aliases} (h : aliases.IsPrefixClosed)
    {path front : String} (hpath : path ∈ aliases.paths) (hfront : front ∈ Path.prefixes path) :
    front ∈ aliases.paths := by
  induction path using Path.splitLast?_induction with
  | base path hsplit =>
    rw [Path.prefixes_of_splitLast?_eq_none hsplit] at hfront
    rwa [List.mem_singleton.1 hfront]
  | step path parent identifier hsplit ih =>
    rw [Path.prefixes_of_splitLast?_eq_some hsplit] at hfront
    rcases List.mem_append.1 hfront with hfront | hfront
    · exact ih (h path hpath parent identifier hsplit) hfront
    · rwa [List.mem_singleton.1 hfront]

end Aliases

/-- Whether the aliases of joined paths fit the tables of a query, where `named` of the tables have
not been joined. -/
structure AliasesFit (s : Schema) (tables : List TableItem) (aliases : Aliases) (named : Nat) :
    Prop where
  nodup_paths : aliases.paths.Nodup
  /-- No two paths share a table. -/
  unique : ∀ path path' name, (path, some name) ∈ aliases → (path', some name) ∈ aliases →
    path = path'
  /-- A path is joined after its parent. -/
  parent : aliases.IsPrefixClosed
  owns : ∀ path a, (path, a) ∈ aliases → ∃ f r, s.resolve? path = some f ∧
    f.reference = some r ∧ Owns tables r.group.table a
  length_tables : tables.length = named + aliases.countP (·.2.isSome)

namespace AliasesFit

variable {s : Schema} {tables : List TableItem} {aliases : Aliases} {named : Nat}

theorem nil (s : Schema) : AliasesFit s [] [] 0 :=
  ⟨List.nodup_nil, by simp, by simp [Aliases.IsPrefixClosed, Aliases.paths], by simp, rfl⟩

/-- The next alias is a new one. -/
theorem tableAlias_not_mem (h : AliasesFit s tables aliases named) (path : String) :
    (path, some (tableAlias (tables.length + 1))) ∉ aliases := by
  intro hpath
  obtain ⟨f, r, -, -, howns⟩ := h.owns path _ hpath
  have hle := howns.position_le
  omega

/-- Naming a table does not disturb the joined ones. -/
theorem addNamed (h : AliasesFit s tables aliases named) (item : TableItem) :
    AliasesFit s (tables ++ [item]) aliases (named + 1) where
  nodup_paths := h.nodup_paths
  unique := h.unique
  parent := h.parent
  owns := by
    intro path a ha
    obtain ⟨f, r, hf, hr, howns⟩ := h.owns path a ha
    exact ⟨f, r, hf, hr, howns.append [item]⟩
  length_tables := by
    have hlength := h.length_tables
    rw [List.length_append, List.length_singleton]
    omega

/-- Joining one more path under the next alias keeps the fit, if its parent has been joined. -/
theorem addJoined {path : String} {f : Field} {r : Reference Field}
    (h : AliasesFit s tables aliases named) (hnew : path ∉ aliases.paths)
    (hf : s.resolve? path = some f) (hr : f.reference = some r)
    (hparent : ∀ parent identifier, Path.splitLast? path = some (parent, identifier) →
      parent ∈ aliases.paths) :
    AliasesFit s
      (tables ++ (r.group.table.map (⟨·, some (tableAlias (tables.length + 1))⟩)).toList)
      (aliases ++ [(path, r.group.table.map fun _ => tableAlias (tables.length + 1))]) named := by
  constructor
  case nodup_paths =>
    rw [Aliases.paths_concat, List.nodup_append_comm, List.singleton_append, List.nodup_cons]
    exact ⟨hnew, h.nodup_paths⟩
  case unique =>
    have hlast : ∀ p name,
        (p, some name) = (path, r.group.table.map fun _ => tableAlias (tables.length + 1)) →
        p = path ∧ name = tableAlias (tables.length + 1) := by
      intro p name heq
      cases htable : r.group.table <;> simp_all
    intro p p' name hp hp'
    rcases List.mem_append.1 hp with hp | hp <;> rcases List.mem_append.1 hp' with hp' | hp'
    · exact h.unique p p' name hp hp'
    · obtain ⟨-, rfl⟩ := hlast p' name (List.mem_singleton.1 hp')
      exact absurd hp (h.tableAlias_not_mem p)
    · obtain ⟨-, rfl⟩ := hlast p name (List.mem_singleton.1 hp)
      exact absurd hp' (h.tableAlias_not_mem p')
    · rw [(hlast p name (List.mem_singleton.1 hp)).1, (hlast p' name (List.mem_singleton.1 hp')).1]
  case parent =>
    intro path' hpath' parent identifier hsplit
    rw [Aliases.paths_concat] at hpath' ⊢
    refine List.mem_append_left _ ?_
    rcases List.mem_append.1 hpath' with hpath' | hpath'
    · exact h.parent path' hpath' parent identifier hsplit
    · rw [List.mem_singleton.1 hpath'] at hsplit
      exact hparent parent identifier hsplit
  case owns =>
    intro path' a ha
    rcases List.mem_append.1 ha with ha | ha
    · obtain ⟨g, r', hg, hr', howns⟩ := h.owns path' a ha
      exact ⟨g, r', hg, hr', howns.append _⟩
    · cases List.mem_singleton.1 ha
      refine ⟨f, r, hf, hr, ?_⟩
      cases r.group.table with
      | none => trivial
      | some table => exact ⟨tables.length, rfl, by simp⟩
  case length_tables =>
    have hlength := h.length_tables
    rw [List.length_append, List.countP_append]
    cases r.group.table with
    | none => simpa using hlength
    | some table =>
      simp only [Option.map_some, Option.toList_some, List.length_singleton, List.countP_singleton,
        Option.isSome_some, if_true]
      omega

end AliasesFit

/-! ## Joining -/

/-- Whether the joins of a query fit its tables. -/
def Query.JoinsFit (q : Query) (named : Nat) : Prop :=
  AliasesFit q.context.schema q.tables q.aliases named

namespace Outcome

/-- Whether an outcome keeps the fit and has joined the given paths, unless it was refused. -/
def HasJoined (o : Outcome) (named : Nat) (paths : List String) : Prop :=
  o.query.JoinsFit named ∧ (o.fault = none → ∀ path ∈ paths, path ∈ o.query.aliases.paths)

theorem HasJoined.andThen {o : Outcome} {named : Nat} {before paths : List String}
    {next : Query → Outcome} (ho : o.HasJoined named before)
    (hnext : (∀ path ∈ before, path ∈ o.query.aliases.paths) →
      (next o.query).HasJoined named paths) : (o.andThen next).HasJoined named paths := by
  rw [Outcome.andThen]
  split
  · rename_i hfault
    exact hnext (ho.2 hfault)
  · rename_i fault hfault
    refine ⟨ho.1, fun hnone => ?_⟩
    rw [hfault] at hnone
    cases hnone

end Outcome

namespace Query

variable {q q' : Query} {named : Nat}

/-- What has been joined stays joined. -/
theorem ExtendsByJoins.mem_paths {path : String} (h : q'.ExtendsByJoins q)
    (hpath : path ∈ q.aliases.paths) : path ∈ q'.aliases.paths := by
  obtain ⟨more, hmore⟩ := h.aliases
  rw [← hmore, Aliases.paths, List.map_append]
  exact List.mem_append_left _ hpath

theorem mem_paths_joinLast {path : String} (h : (q.joinLast path).fault = none) :
    path ∈ (q.joinLast path).query.aliases.paths := by
  rcases q.joinLast_cases path with ⟨a, ha, heq⟩ | ⟨fault, -, heq⟩ | ⟨f, r, -, -, -, heq⟩ <;>
    rw [heq] at h ⊢
  · exact Aliases.mem_paths_iff.2 ⟨a, ha⟩
  · cases h
  · rw [addJoin_eq, Outcome.done, Aliases.paths_concat]
    exact List.mem_append_right _ List.mem_cons_self

/-- The last group of a path can be joined once the parent of the path has been joined. -/
theorem JoinsFit.joinLast {path : String} (hq : q.JoinsFit named)
    (hparent : ∀ parent identifier, Path.splitLast? path = some (parent, identifier) →
      parent ∈ q.aliases.paths) : (q.joinLast path).HasJoined named [path] := by
  refine ⟨?_, fun hfault p hp => ?_⟩
  · rcases q.joinLast_cases path with ⟨a, -, h⟩ | ⟨fault, -, h⟩ | ⟨f, r, hnone, hf, hr, h⟩ <;>
      rw [h]
    · exact hq
    · exact hq
    · have hnew : path ∉ q.aliases.paths := by
        rw [Aliases.mem_paths_iff, hnone]
        rintro ⟨a, ha⟩
        cases ha
      rw [addJoin_eq]
      exact AliasesFit.addJoined hq hnew hf hr hparent
  · rw [List.mem_singleton.1 hp]
    exact mem_paths_joinLast hfault

/-- Joining a path joins all paths that it passes through, from the first one on. -/
theorem JoinsFit.join (hq : q.JoinsFit named) (path : String) :
    (q.join path).HasJoined named [path] := by
  induction path using Path.splitLast?_induction with
  | base path hsplit =>
    rw [join_of_splitLast?_eq_none hsplit]
    refine hq.joinLast fun parent identifier h => ?_
    rw [hsplit] at h
    cases h
  | step path parent identifier hsplit ih =>
    rw [join_of_splitLast?_eq_some hsplit]
    refine ih.andThen fun hjoined => JoinsFit.joinLast ih.1 fun parent' identifier' h => ?_
    rw [hsplit] at h
    cases h
    exact hjoined parent List.mem_cons_self

theorem JoinsFit.joinPaths (hq : q.JoinsFit named) (paths : List String) :
    (q.joinPaths paths).HasJoined named paths := by
  induction paths generalizing q with
  | nil => exact ⟨hq, fun _ path hpath => by cases hpath⟩
  | cons path paths ih =>
    have hfirst := hq.join path
    refine hfirst.andThen fun hjoined => ?_
    obtain ⟨hrest, hpaths⟩ := ih hfirst.1
    refine ⟨hrest, fun hnone p hp => ?_⟩
    rcases List.mem_cons.1 hp with rfl | hp
    · have hext := (q.join p).query.extendsByJoins_joinPaths paths
      exact hext.mem_paths (hjoined p List.mem_cons_self)
    · exact hpaths hnone p hp

/-! ## Joining from the full path -/

theorem joinLast_of_mem_paths {path : String} (h : path ∈ q.aliases.paths) :
    q.joinLast path = .done q := by
  obtain ⟨a, ha⟩ := Aliases.mem_paths_iff.1 h
  rw [joinLast, ha]

/-- Joining paths that have been joined before changes nothing. -/
theorem joinEach_of_mem_paths {paths : List String}
    (h : ∀ path ∈ paths, path ∈ q.aliases.paths) : q.joinEach paths = .done q := by
  induction paths with
  | nil => rfl
  | cons path paths ih =>
    rw [joinEach, joinLast_of_mem_paths (h path List.mem_cons_self), Outcome.andThen_of_fault rfl]
    exact ih fun p hp => h p (List.mem_cons_of_mem path hp)

/-- `join` as a recursion from the full path: a path that has been joined is done with, and any
other one is joined after the path before its last dot. -/
def joinUp (q : Query) (path : String) : Outcome :=
  match q.aliases.lookup path with
  | some _ => .done q
  | none =>
    match _hsplit : Path.splitLast? path with
    | some (parent, _) => (q.joinUp parent).andThen fun q => q.joinLast path
    | none => q.joinLast path
termination_by path.toList.length
decreasing_by exact Path.length_lt_of_splitLast?_eq_some _hsplit

theorem joinUp_of_lookup_eq_some {path : String} {a : Option String}
    (h : q.aliases.lookup path = some a) : q.joinUp path = .done q := by
  rw [joinUp, h]

theorem joinUp_of_splitLast?_eq_none {path : String} (h : q.aliases.lookup path = none)
    (hsplit : Path.splitLast? path = none) : q.joinUp path = q.joinLast path := by
  rw [joinUp, h]
  dsimp only
  split
  · rename_i heq
    cases hsplit.symm.trans heq
  · rfl

theorem joinUp_of_splitLast?_eq_some {path parent identifier : String}
    (h : q.aliases.lookup path = none) (hsplit : Path.splitLast? path = some (parent, identifier)) :
    q.joinUp path = (q.joinUp parent).andThen fun q => q.joinLast path := by
  rw [joinUp, h]
  dsimp only
  split
  · rename_i heq
    cases hsplit.symm.trans heq
    rfl
  · rename_i heq
    cases hsplit.symm.trans heq

/-- Joining from the full path is joining all paths on its way from the first one on, if the joined
paths are closed: where it meets a path that has been joined, so have been all paths before. -/
theorem joinUp_eq_join (h : q.aliases.IsPrefixClosed) (path : String) :
    q.joinUp path = q.join path := by
  have hmemo : ∀ path a, q.aliases.lookup path = some a → q.joinUp path = q.join path := by
    intro path a hlookup
    have hpath : path ∈ q.aliases.paths := Aliases.mem_paths_iff.2 ⟨a, hlookup⟩
    rw [joinUp_of_lookup_eq_some hlookup, join,
      joinEach_of_mem_paths fun front hfront => h.mem_paths_of_mem_prefixes hpath hfront]
  induction path using Path.splitLast?_induction with
  | base path hsplit =>
    cases hlookup : q.aliases.lookup path with
    | some a => exact hmemo path a hlookup
    | none =>
      rw [joinUp_of_splitLast?_eq_none hlookup hsplit, join_of_splitLast?_eq_none hsplit]
  | step path parent identifier hsplit ih =>
    cases hlookup : q.aliases.lookup path with
    | some a => exact hmemo path a hlookup
    | none =>
      rw [joinUp_of_splitLast?_eq_some hlookup hsplit, join_of_splitLast?_eq_some hsplit, ih]

/-! ## What is stored in a query -/

/-- The entries of a query, wherever they stand. -/
def entries (q : Query) : List Entry :=
  q.select.map (·.entry) ++ q.conditions ++ q.groupBy ++ q.orderBy.map (·.entry)

theorem mem_entries_iff {e : Entry} :
    e ∈ q.entries ↔ (∃ item ∈ q.select, item.entry = e) ∨ e ∈ q.conditions ∨ e ∈ q.groupBy ∨
      ∃ item ∈ q.orderBy, item.entry = e := by
  simp [entries]

theorem ExtendsByJoins.mem_entries {e : Entry} (h : q'.ExtendsByJoins q) (he : e ∈ q'.entries) :
    e ∈ q.entries ∨ ∃ text, e = .sql text := by
  rw [mem_entries_iff, h.select, h.groupBy, h.orderBy] at he
  rw [mem_entries_iff]
  rcases he with he | he | he | he
  · exact Or.inl (Or.inl he)
  · rcases h.conditions e he with he | he
    · exact Or.inl (Or.inr (Or.inl he))
    · exact Or.inr he
  · exact Or.inl (Or.inr (Or.inr (Or.inl he)))
  · exact Or.inl (Or.inr (Or.inr (Or.inr he)))

theorem mem_entries_pushSelect {item : SelectItem} {e : Entry}
    (h : e ∈ (q.pushSelect item).entries) : e ∈ q.entries ∨ e = item.entry := by
  simp only [entries, pushSelect, List.map_append, List.map_singleton, List.mem_append,
    List.mem_singleton] at h ⊢
  tauto

theorem mem_entries_pushOrder {item : OrderItem} {e : Entry}
    (h : e ∈ (q.pushOrder item).entries) : e ∈ q.entries ∨ e = item.entry := by
  simp only [entries, pushOrder, List.map_append, List.map_singleton, List.mem_append,
    List.mem_singleton] at h ⊢
  tauto

theorem mem_entries_pushCondition {entry e : Entry}
    (h : e ∈ (q.pushCondition entry).entries) : e ∈ q.entries ∨ e = entry := by
  have hpush : e ∈ pushEntry q.conditions entry → e ∈ q.conditions ∨ e = entry := mem_pushEntry
  simp only [entries, pushCondition, List.mem_append] at h ⊢
  tauto

theorem mem_entries_pushGroupKey {entry e : Entry}
    (h : e ∈ (q.pushGroupKey entry).entries) : e ∈ q.entries ∨ e = entry := by
  have hpush : e ∈ pushEntry q.groupBy entry → e ∈ q.groupBy ∨ e = entry := mem_pushEntry
  simp only [entries, pushGroupKey, List.mem_append] at h ⊢
  tauto

end Query

/-- Whether what the fields of an entry need has been joined. -/
def Entry.IsJoined (aliases : Aliases) : Entry → Prop
  | expr n _ => ∀ parent ∈ n.fieldParents, parent ∈ aliases.paths
  | sql _ => True

/-- Whether an entry may be stored in a query: it is valid, and its fields have been joined. -/
def Entry.IsStorable (ctx : Context) (aliases : Aliases) (e : Entry) : Prop :=
  e.IsChecked ctx ∧ e.IsJoined aliases

/-- Whether the tables of a query are those that its entries and its joined paths need, but for
`named` further ones. -/
structure Query.Joined (q : Query) (ctx : Context) (named : Nat) : Prop where
  context : q.context = ctx
  joins : q.JoinsFit named
  entries : ∀ e ∈ q.entries, e.IsStorable ctx q.aliases

namespace Query.Joined

variable {q q' : Query} {ctx : Context} {named : Nat}

theorem empty (context : Context) (mode : SelectMode) (comment : Option String) :
    Query.Joined { context, mode, comment } context 0 :=
  ⟨rfl, AliasesFit.nil context.schema, by simp [Query.entries]⟩

/-- Whatever is stored stays storable when more is joined. -/
theorem extend (hq : q.Joined ctx named) (hext : q'.ExtendsByJoins q) (hjoins : q'.JoinsFit named) :
    q'.Joined ctx named where
  context := hext.context.trans hq.context
  joins := hjoins
  entries := by
    intro e he
    rcases hext.mem_entries he with he | ⟨text, rfl⟩
    · obtain ⟨hchecked, hjoined⟩ := hq.entries e he
      refine ⟨hchecked, ?_⟩
      cases e with
      | sql text => trivial
      | expr n c => exact fun parent hparent => hext.mem_paths (hjoined parent hparent)
    · exact ⟨trivial, trivial⟩

/-- A change that touches neither tables nor aliases and stores one entry more. -/
theorem store {entry : Entry} (hq : q.Joined ctx named) (hcontext : q'.context = q.context)
    (htables : q'.tables = q.tables) (haliases : q'.aliases = q.aliases)
    (hnew : ∀ e ∈ q'.entries, e ∈ q.entries ∨ e = entry)
    (hentry : entry.IsStorable ctx q.aliases) : q'.Joined ctx named where
  context := hcontext.trans hq.context
  joins := by
    rw [JoinsFit, hcontext, htables, haliases]
    exact hq.joins
  entries := by
    intro e he
    rw [haliases]
    rcases hnew e he with he | rfl
    · exact hq.entries e he
    · exact hentry

/-- After the fields of a valid expression have been joined, the expression may be stored. -/
theorem joinFields {n : Node} {c : Checked} (hq : q.Joined ctx named)
    (hcheck : q.context.check n = .ok c) (hvalid : c.isValid = true) :
    (q.joinFields n).query.Joined ctx named ∧
      Entry.IsStorable ctx (q.joinFields n).query.aliases (.expr n c) := by
  obtain ⟨hjoins, hpaths⟩ := hq.joins.joinPaths n.fieldParents
  refine ⟨hq.extend (q.extendsByJoins_joinFields n) hjoins, ?_, ?_⟩
  · rw [hq.context] at hcheck
    exact ⟨hcheck, hvalid⟩
  · exact hpaths (joinFields_fault hcheck hvalid)

theorem pushGroupKeys {keys : List (Node × Checked)} (hq : q.Joined ctx named)
    (hkeys : ∀ key ∈ keys, Entry.IsStorable ctx q.aliases (.expr key.1 key.2)) :
    (q.pushGroupKeys keys).Joined ctx named := by
  rw [← foldl_pushGroupKey]
  induction keys generalizing q with
  | nil => exact hq
  | cons key keys ih =>
    have hfirst : (q.pushGroupKey (.expr key.1 key.2)).Joined ctx named :=
      hq.store rfl rfl rfl (fun _ => mem_entries_pushGroupKey) (hkeys key List.mem_cons_self)
    exact ih hfirst fun k hk => hkeys k (List.mem_cons_of_mem key hk)

theorem selectExpr (hq : q.Joined ctx named) (n : Node) (aliasName : Option String) :
    (q.selectExpr n aliasName).query.Joined ctx named := by
  rcases q.selectExpr_cases n aliasName with ⟨fault, h⟩ | ⟨c, mode, hcheck, hvalid, -, h⟩ <;> rw [h]
  · exact hq
  have hmode : Query.Joined { q with mode } ctx named := ⟨hq.context, hq.joins, hq.entries⟩
  obtain ⟨hjoined, hstorable⟩ := hmode.joinFields hcheck hvalid
  refine (hjoined.pushGroupKeys ?_).store rfl rfl rfl (fun _ => mem_entries_pushSelect) hstorable
  rintro ⟨arg, child⟩ hkey
  rw [hq.context] at hcheck
  obtain ⟨-, hchild, hchildValid, -⟩ := Node.mem_groupKeys hcheck hvalid hkey
  refine ⟨⟨hchild, hchildValid⟩, fun parent hparent => hstorable.2 parent ?_⟩
  -- the fields of a grouping key are fields of the selected expression
  obtain ⟨m, hm, hfield⟩ := Node.mem_fieldParents_iff.1 hparent
  have hpart := Node.mem_preorder_trans (Node.mem_preorder_of_mem_groupKeys hkey) hm
  exact Node.mem_fieldParents_iff.2 ⟨m, hpart, hfield⟩

theorem storeSql {text : String} (hq : q.Joined ctx named) (hcontext : q'.context = q.context)
    (htables : q'.tables = q.tables) (haliases : q'.aliases = q.aliases)
    (hnew : ∀ e ∈ q'.entries, e ∈ q.entries ∨ e = .sql text) : q'.Joined ctx named :=
  hq.store hcontext htables haliases hnew ⟨trivial, trivial⟩

theorem selectSql (hq : q.Joined ctx named) (sql : String) (aliasName : Option String) :
    (q.selectSql sql aliasName).query.Joined ctx named := by
  rcases q.selectSql_cases sql aliasName with ⟨fault, h⟩ | ⟨mode, -, h⟩ <;> rw [h]
  · exact hq
  · exact hq.storeSql rfl rfl rfl fun _ => mem_entries_pushSelect (q := { q with mode })

theorem whereExpr (hq : q.Joined ctx named) (n : Node) :
    (q.whereExpr n).query.Joined ctx named := by
  rcases q.whereExpr_cases n with ⟨fault, h⟩ | ⟨c, hcheck, hvalid, -, h⟩ <;> rw [h]
  · exact hq
  obtain ⟨hjoined, hstorable⟩ := hq.joinFields hcheck hvalid
  exact hjoined.store rfl rfl rfl (fun _ => mem_entries_pushCondition) hstorable

theorem groupByExpr (hq : q.Joined ctx named) (n : Node) :
    (q.groupByExpr n).query.Joined ctx named := by
  rcases q.groupByExpr_cases n with ⟨fault, h⟩ | ⟨c, mode, hcheck, hvalid, -, -, h⟩ <;> rw [h]
  · exact hq
  have hmode : Query.Joined { q with mode } ctx named := ⟨hq.context, hq.joins, hq.entries⟩
  obtain ⟨hjoined, hstorable⟩ := hmode.joinFields hcheck hvalid
  exact hjoined.store rfl rfl rfl (fun _ => mem_entries_pushGroupKey) hstorable

theorem groupBySql (hq : q.Joined ctx named) (sql : String) :
    (q.groupBySql sql).query.Joined ctx named := by
  rcases q.groupBySql_cases sql with ⟨fault, h⟩ | ⟨mode, -, h⟩ <;> rw [h]
  · exact hq
  · exact hq.storeSql rfl rfl rfl fun _ => mem_entries_pushGroupKey (q := { q with mode })

theorem orderExpr (hq : q.Joined ctx named) (n : Node) (direction : Option Direction)
    (nulls : Option Nulls) : (q.orderExpr n direction nulls).query.Joined ctx named := by
  rcases q.orderExpr_cases n direction nulls with ⟨fault, h⟩ | ⟨c, hcheck, hvalid, h⟩ <;> rw [h]
  · exact hq
  obtain ⟨hjoined, hstorable⟩ := hq.joinFields hcheck hvalid
  exact hjoined.store rfl rfl rfl (fun _ => mem_entries_pushOrder) hstorable

/-- A table that is named makes one more. -/
theorem fromSql (hq : q.Joined ctx named) (sql : String) (aliasName : Option String) :
    (q.fromSql sql aliasName).query.Joined ctx
      (named + if (q.fromSql sql aliasName).fault.isNone then 1 else 0) := by
  rcases q.fromSql_cases sql aliasName with ⟨fault, h⟩ | h <;> rw [h]
  · exact hq
  · exact ⟨hq.context, hq.joins.addNamed _, hq.entries⟩

end Query.Joined

/-- Whether a step names a table. -/
def Step.isFromSql : Step → Bool
  | fromSql _ _ => true
  | _ => false

namespace Query

/-- How many of the steps name a table and go through. -/
def namedTables (q : Query) (steps : List Step) : Nat :=
  (steps.zip (q.outcomes steps)).countP fun (step, o) => step.isFromSql && o.fault.isNone

namespace Joined

variable {q : Query} {ctx : Context} {named : Nat}

/-- A step keeps the tables of a query in order, whether it goes through or not. -/
theorem apply (hq : q.Joined ctx named) (step : Step) :
    (q.apply step).query.Joined ctx
      (named + if step.isFromSql && (q.apply step).fault.isNone then 1 else 0) := by
  cases step with
  | selectExpr n aliasName => exact hq.selectExpr n aliasName
  | selectSql sql aliasName => exact hq.selectSql sql aliasName
  | fromSql sql aliasName => exact hq.fromSql sql aliasName
  | fromPath path => exact hq.extend (q.extendsByJoins_joinEach _) (hq.joins.join path).1
  | whereExpr n => exact hq.whereExpr n
  | whereSql sql => exact hq.storeSql rfl rfl rfl fun _ => mem_entries_pushCondition
  | groupByExpr n => exact hq.groupByExpr n
  | groupBySql sql => exact hq.groupBySql sql
  | orderExpr n direction nulls => exact hq.orderExpr n direction nulls
  | orderSql sql => exact hq.storeSql rfl rfl rfl fun _ => mem_entries_pushOrder
  | offset rows => exact ⟨hq.context, hq.joins, hq.entries⟩
  | limit rows => exact ⟨hq.context, hq.joins, hq.entries⟩

theorem run (hq : q.Joined ctx named) (steps : List Step) :
    (q.run steps).Joined ctx (named + q.namedTables steps) := by
  induction steps generalizing q named with
  | nil => exact hq
  | cons step steps ih =>
    have hrest := ih (hq.apply step)
    rw [namedTables, outcomes, List.zip_cons_cons, List.countP_cons, ← namedTables]
    rw [Nat.add_assoc, Nat.add_comm (ite _ _ _)] at hrest
    exact hrest

/-- A dotted field of a stored expression is written with the alias of the group in which its
identifier was looked up. -/
theorem emitField_eq (hq : q.Joined ctx named) {n m : Node} {c : Checked}
    {path parent identifier : String} (hentry : .expr n c ∈ q.entries) (hm : m ∈ n.preorder)
    (hfield : m.expr = .field path) (hsplit : Path.splitLast? path = some (parent, identifier)) :
    ∃ a g r f, q.aliases.lookup parent = some a ∧ ctx.schema.resolve? parent = some g ∧
      g.reference = some r ∧ Owns q.tables r.group.table a ∧ r.group.get? identifier = some f ∧
      ctx.emitField q.aliases path = pure (f.sqlAs identifier a) := by
  obtain ⟨⟨hcheck, hvalid⟩, hjoined⟩ := hq.entries _ hentry
  have hparent : parent ∈ n.fieldParents :=
    Node.mem_fieldParents_iff.2 ⟨m, hm, path, identifier, hfield, hsplit⟩
  obtain ⟨a, ha⟩ := Aliases.mem_paths_iff.1 (hjoined parent hparent)
  obtain ⟨f, hf⟩ := Context.resolve?_of_mem_preorder hcheck hvalid hm hfield
  obtain ⟨g, r, hg, hr, hget⟩ := (Schema.resolve?_eq_some_iff_of_splitLast? hsplit).1 hf
  obtain ⟨g', r', hg', hr', htable⟩ := hq.joins.owns parent a (Aliases.mem_of_lookup ha)
  -- the parent leads to one field only, so the table is that of the group of the identifier
  rw [hq.context, hg] at hg'
  cases hg'
  rw [hr] at hr'
  cases hr'
  refine ⟨a, g, r, f, ha, hg, hr, htable, hget, ?_⟩
  simp only [Context.emitField, hf, hsplit, ha]

end Joined

/-- After any steps on an empty query, joining from the full path is joining from its first segment
on. -/
theorem run_joinUp_eq_join (context : Context) (mode : SelectMode) (comment : Option String)
    (steps : List Step) (path : String) :
    let q := run { context, mode, comment } steps
    q.joinUp path = q.join path :=
  joinUp_eq_join ((Joined.empty context mode comment).run steps).joins.parent path

/-- After any steps on an empty query, whatever its mode, the joined paths and the tables belong
together. With a path, what stands before its dots has been joined. Each joined path leads to a
field that refers to a group, and its alias is that of the table of this group, if there is one. No
two paths share a table, and all other tables have been named by steps. Each dotted field of a
stored expression is written with the alias of the group in which its identifier was looked up. -/
theorem run_joined_tables (context : Context) (mode : SelectMode) (comment : Option String)
    (steps : List Step) :
    let start : Query := { context, mode, comment }
    let q := start.run steps
    (∀ front rest : String, front ++ "." ++ rest ∈ q.aliases.paths → front ∈ q.aliases.paths) ∧
    (∀ path a, q.aliases.lookup path = some a → ∃ f r, context.schema.resolve? path = some f ∧
      f.reference = some r ∧ Owns q.tables r.group.table a) ∧
    (∀ path path' name, q.aliases.lookup path = some (some name) →
      q.aliases.lookup path' = some (some name) → path = path') ∧
    q.aliases.paths.Nodup ∧
    q.tables.length = start.namedTables steps + q.aliases.countP (·.2.isSome) ∧
    ∀ n c, .expr n c ∈ q.entries → ∀ m ∈ n.preorder, ∀ path parent identifier,
      m.expr = .field path → Path.splitLast? path = some (parent, identifier) →
      ∃ a g r f, q.aliases.lookup parent = some a ∧ context.schema.resolve? parent = some g ∧
        g.reference = some r ∧ Owns q.tables r.group.table a ∧
        r.group.get? identifier = some f ∧
        context.emitField q.aliases path = pure (f.sqlAs identifier a) := by
  intro start q
  have hq : q.Joined context (0 + start.namedTables steps) :=
    (Joined.empty context mode comment).run steps
  have hjoins : AliasesFit context.schema q.tables q.aliases (0 + start.namedTables steps) := by
    rw [← hq.context]
    exact hq.joins
  refine ⟨fun front rest hpath => ?_, fun path a ha => ?_, fun path path' name h h' => ?_,
    hjoins.nodup_paths, ?_, fun n c hentry m hm path parent identifier => ?_⟩
  · refine hjoins.parent.mem_paths_of_mem_prefixes hpath
      (List.mem_map.2 ⟨front.toList, ?_, by simp⟩)
    exact Path.mem_prefixChars_iff.2 (Or.inr ⟨rest.toList, by simp⟩)
  · exact hjoins.owns path a (Aliases.mem_of_lookup ha)
  · exact hjoins.unique path path' name (Aliases.mem_of_lookup h) (Aliases.mem_of_lookup h')
  · have hlength := hjoins.length_tables
    rwa [Nat.zero_add] at hlength
  · exact hq.emitField_eq hentry hm

end Query

end TypedSql
