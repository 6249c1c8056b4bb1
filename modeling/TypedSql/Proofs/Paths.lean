import TypedSql.Schema.Path

/-!
# Paths from both ends

Paths are resolved from the left, segment by segment, and taken apart from the right, at the last
dot. Both views agree on what a dot does: the segments of two paths with a dot between them are
those of the first path and then those of the second. Every path that a resolvable path passes
through on its way therefore resolves too, to a field that refers to a group, and a dotted path
resolves to a field of the group that its parent refers to. There is one field along a path for each
of its segments.
-/

namespace TypedSql

namespace Path

/-! ## Splitting at dots -/

theorem segmentChars_ne_nil (cs : List Char) : segmentChars cs ≠ [] := by
  cases cs with
  | nil => simp [segmentChars]
  | cons c cs =>
    simp only [segmentChars]
    split
    · simp
    · split <;> simp

/-- The segments of two texts with a dot between them are those of both texts. -/
theorem segmentChars_append_dot (xs ys : List Char) :
    segmentChars (xs ++ '.' :: ys) = segmentChars xs ++ segmentChars ys := by
  induction xs with
  | nil => simp [segmentChars]
  | cons c xs ih =>
    by_cases hc : c = '.'
    · simp [segmentChars, hc, ih]
    · rw [List.cons_append, segmentChars, segmentChars, ih]
      simp only [hc, if_false]
      cases hxs : segmentChars xs with
      | nil => exact absurd hxs (segmentChars_ne_nil xs)
      | cons s rest => simp

theorem segmentChars_of_not_mem {cs : List Char} (h : '.' ∉ cs) : segmentChars cs = [cs] := by
  induction cs with
  | nil => rfl
  | cons c cs ih =>
    rw [List.mem_cons, not_or] at h
    rw [segmentChars, if_neg (Ne.symm h.1), ih h.2]

theorem segments_ne_nil (path : String) : segments path ≠ [] := fun h =>
  segmentChars_ne_nil path.toList (List.map_eq_nil_iff.1 h)

theorem segments_of_toList_eq {path front : String} {rest : List Char}
    (h : path.toList = front.toList ++ '.' :: rest) :
    segments path = segments front ++ (segmentChars rest).map String.ofList := by
  rw [segments, h, segmentChars_append_dot, List.map_append, segments]

/-- There is one segment more than there are dots. -/
theorem length_segmentChars (cs : List Char) : (segmentChars cs).length = cs.count '.' + 1 := by
  induction cs with
  | nil => rfl
  | cons c cs ih =>
    by_cases hc : c = '.'
    · simp [segmentChars, hc, ih]
    · rw [segmentChars, if_neg hc, List.count_cons_of_ne hc, ← ih]
      cases hcs : segmentChars cs with
      | nil => exact absurd hcs (segmentChars_ne_nil cs)
      | cons segment rest => rfl

theorem length_segments (path : String) :
    (segments path).length = path.toList.count '.' + 1 := by
  rw [segments, List.length_map, length_segmentChars]

theorem splitLastChars_eq_none_iff {cs : List Char} : splitLastChars cs = none ↔ '.' ∉ cs := by
  induction cs with
  | nil => simp [splitLastChars]
  | cons c cs ih =>
    rw [splitLastChars]
    cases hcs : splitLastChars cs with
    | some p =>
      have hmem : '.' ∈ cs := Decidable.not_not.1 fun h => by simp [ih.2 h] at hcs
      simp [hmem]
    | none =>
      have hmem : '.' ∉ cs := ih.1 hcs
      by_cases hc : c = '.'
      · simp [hc]
      · simp [hc, hmem, Ne.symm hc]

theorem exists_splitLastChars_of_mem {cs : List Char} (h : '.' ∈ cs) :
    ∃ parent identifier, splitLastChars cs = some (parent, identifier) := by
  cases hcs : splitLastChars cs with
  | none => exact absurd h (splitLastChars_eq_none_iff.1 hcs)
  | some split => exact ⟨split.1, split.2, rfl⟩

/-- A text is split at its last dot: there is none behind it. -/
theorem splitLastChars_eq_some_iff {cs parent identifier : List Char} :
    splitLastChars cs = some (parent, identifier) ↔
      cs = parent ++ '.' :: identifier ∧ '.' ∉ identifier := by
  induction cs generalizing parent with
  | nil => simp [splitLastChars]
  | cons c cs ih =>
    by_cases hmem : '.' ∈ cs
    · -- the dot is further on, so the first character belongs to the parent
      obtain ⟨p, i, hcs⟩ := exists_splitLastChars_of_mem hmem
      simp only [splitLastChars, hcs, Option.some.injEq, Prod.mk.injEq] at ih ⊢
      cases parent with
      | nil =>
        simp only [List.nil_append, List.cons.injEq]
        constructor
        · simp
        · rintro ⟨⟨-, rfl⟩, hi⟩
          exact absurd hmem hi
      | cons x xs =>
        rw [List.cons_append, List.cons.injEq, List.cons.injEq, and_assoc, and_assoc, ih]
    · have hcs : splitLastChars cs = none := splitLastChars_eq_none_iff.2 hmem
      simp only [splitLastChars, hcs]
      cases parent with
      | nil =>
        by_cases hc : c = '.'
        · simp only [hc, if_true, Option.some.injEq, Prod.mk.injEq, true_and, List.nil_append,
            List.cons.injEq]
          constructor
          · rintro rfl
            exact ⟨rfl, hmem⟩
          · exact And.left
        · simp [hc]
      | cons x xs =>
        -- a longer parent would put a dot behind the first character
        have hne : cs ≠ xs ++ '.' :: identifier := by
          rintro rfl
          simp at hmem
        by_cases hc : c = '.' <;> simp [hc, hne]

/-- What a path is split into, as a text and its parent. -/
theorem toList_of_splitLast?_eq_some {path parent identifier : String}
    (h : splitLast? path = some (parent, identifier)) :
    path.toList = parent.toList ++ '.' :: identifier.toList := by
  obtain ⟨⟨p, i⟩, hsplit, heq⟩ := Option.map_eq_some_iff.1 h
  cases heq
  simpa using (splitLastChars_eq_some_iff.1 hsplit).1

theorem length_lt_of_splitLast?_eq_some {path parent identifier : String}
    (h : splitLast? path = some (parent, identifier)) :
    parent.toList.length < path.toList.length := by
  rw [toList_of_splitLast?_eq_some h, List.length_append, List.length_cons]
  omega

/-- A path with a dot has a parent and an identifier, and the identifier has no dot. -/
theorem exists_splitLast?_of_mem {path : String} (h : '.' ∈ path.toList) :
    ∃ parent identifier, splitLast? path = some (parent, identifier) ∧
      path = parent ++ "." ++ identifier ∧ '.' ∉ identifier.toList := by
  obtain ⟨p, i, hsplit⟩ := exists_splitLastChars_of_mem h
  obtain ⟨hpath, hdot⟩ := splitLastChars_eq_some_iff.1 hsplit
  refine ⟨String.ofList p, String.ofList i, by rw [splitLast?, hsplit, Option.map_some], ?_, ?_⟩
  · rw [← String.toList_inj, hpath]
    simp
  · rwa [String.toList_ofList]

/-! ## The paths on the way -/

/-- The parts that a text passes through are the text itself and what stands before its dots. -/
theorem mem_prefixChars_iff {cs front : List Char} :
    front ∈ prefixChars cs ↔ front = cs ∨ ∃ rest, cs = front ++ '.' :: rest := by
  induction cs generalizing front with
  | nil => simp [prefixChars]
  | cons c cs ih =>
    cases front with
    | nil => by_cases hc : c = '.' <;> simp [prefixChars, hc]
    | cons x xs => by_cases hc : c = '.' <;> simp [prefixChars, hc, ih] <;> grind

theorem prefixChars_append_dot (xs ys : List Char) :
    prefixChars (xs ++ '.' :: ys) = prefixChars xs ++ (prefixChars ys).map (xs ++ '.' :: ·) := by
  induction xs with
  | nil => simp [prefixChars]
  | cons c xs ih =>
    by_cases hc : c = '.'
    · simp [prefixChars, hc, ih, Function.comp_def]
    · simp [prefixChars, hc, ih, Function.comp_def]

theorem prefixChars_of_not_mem {cs : List Char} (h : '.' ∉ cs) : prefixChars cs = [cs] := by
  induction cs with
  | nil => rfl
  | cons c cs ih =>
    rw [List.mem_cons, not_or] at h
    rw [prefixChars, ih h.2, if_neg (Ne.symm h.1)]
    rfl

theorem prefixes_of_splitLast?_eq_none {path : String} (h : splitLast? path = none) :
    prefixes path = [path] := by
  have hdot : '.' ∉ path.toList := splitLastChars_eq_none_iff.1 (Option.map_eq_none_iff.1 h)
  rw [prefixes, prefixChars_of_not_mem hdot, List.map_singleton, String.ofList_toList]

/-- A path passes through what its parent passes through, and then comes to itself. -/
theorem prefixes_of_splitLast?_eq_some {path parent identifier : String}
    (h : splitLast? path = some (parent, identifier)) :
    prefixes path = prefixes parent ++ [path] := by
  obtain ⟨⟨p, i⟩, hsplit, heq⟩ := Option.map_eq_some_iff.1 h
  cases heq
  obtain ⟨hpath, hdot⟩ := splitLastChars_eq_some_iff.1 hsplit
  have hself : String.ofList (p ++ '.' :: i) = path := by rw [← hpath, String.ofList_toList]
  rw [prefixes, hpath, prefixChars_append_dot, prefixChars_of_not_mem hdot, List.map_append,
    prefixes, String.toList_ofList, List.map_singleton, List.map_singleton, hself]

/-- A property of all paths without dots that passes from a parent to its paths holds of all
paths. -/
theorem splitLast?_induction {P : String → Prop} (base : ∀ path, splitLast? path = none → P path)
    (step : ∀ path parent identifier, splitLast? path = some (parent, identifier) → P parent →
      P path) (path : String) : P path := by
  induction hlength : path.toList.length using Nat.strongRecOn generalizing path with
  | ind length ih =>
    cases hsplit : splitLast? path with
    | none => exact base path hsplit
    | some split =>
      obtain ⟨parent, identifier⟩ := split
      have hshorter := length_lt_of_splitLast?_eq_some hsplit
      rw [hlength] at hshorter
      exact step path parent identifier hsplit (ih _ hshorter parent rfl)

/-- Behind each path that the parent of a path passes through, the path goes on with a dot. -/
theorem exists_rest_of_mem_prefixes {path parent identifier front : String}
    (h : splitLast? path = some (parent, identifier)) (hfront : front ∈ prefixes parent) :
    ∃ rest, path.toList = front.toList ++ '.' :: rest := by
  obtain ⟨cs, hcs, rfl⟩ := List.mem_map.1 hfront
  rw [toList_of_splitLast?_eq_some h, String.toList_ofList]
  rcases mem_prefixChars_iff.1 hcs with rfl | ⟨rest, hrest⟩
  · exact ⟨_, rfl⟩
  · exact ⟨rest ++ '.' :: identifier.toList, by simp [hrest]⟩

end Path

/-! ## Resolving the paths on the way -/

namespace Schema

/-- A path without dots leads to a field of the schema itself. -/
theorem mem_fields_of_resolve? {s : Schema} {path : String} {f : Field}
    (hpath : Path.splitLast? path = none) (h : s.resolve? path = some f) : f ∈ s.fields := by
  have hdot : '.' ∉ path.toList :=
    Path.splitLastChars_eq_none_iff.1 (Option.map_eq_none_iff.1 hpath)
  have hsegments : Path.segments path = [path] := by
    rw [Path.segments, Path.segmentChars_of_not_mem hdot, List.map_singleton, String.ofList_toList]
  rw [resolve?, chain?, hsegments, Option.bind_eq_some_iff] at h
  obtain ⟨fields, hchain, hlast⟩ := h
  obtain ⟨g, hg, hfollow⟩ := Option.bind_eq_some_iff.1 hchain
  cases hfollow
  cases hlast
  exact List.mem_of_find?_eq_some hg

/-- A way that goes on passes through a field that refers to a group. -/
theorem follow_append_cons {f : Field} {front rest : List String} {segment : String}
    {fields : List Field} (h : follow f (front ++ segment :: rest) = some fields) :
    ∃ passed g r, follow f front = some passed ∧ passed.getLast? = some g ∧
      g.reference = some r := by
  induction front generalizing f fields with
  | nil =>
    simp only [List.nil_append, follow, Option.bind_eq_bind, Option.bind_eq_some_iff] at h
    obtain ⟨r, hr, -⟩ := h
    exact ⟨[f], f, r, rfl, rfl, hr⟩
  | cons x front ih =>
    simp only [List.cons_append, follow, Option.bind_eq_bind, Option.bind_eq_some_iff] at h
    obtain ⟨r, hr, next, hnext, fields', hfields, -⟩ := h
    obtain ⟨passed, g, r', hpassed, hlast, hg⟩ := ih hfields
    refine ⟨f :: passed, g, r', ?_, ?_, hg⟩
    · simp [follow, hr, hnext, hpassed]
    · rw [List.getLast?_cons, hlast]
      rfl

/-- If a path that goes on behind a dot resolves, then the path before the dot resolves to a field
that refers to a group. -/
theorem resolve?_of_append_dot {s : Schema} {path front : String} {rest : List Char} {f : Field}
    (h : s.resolve? path = some f) (hpath : path.toList = front.toList ++ '.' :: rest) :
    ∃ g r, s.resolve? front = some g ∧ g.reference = some r := by
  obtain ⟨fields, hchain, -⟩ := Option.bind_eq_some_iff.1 h
  have hsegments := Path.segments_of_toList_eq hpath
  cases hrest : Path.segmentChars rest with
  | nil => exact absurd hrest (Path.segmentChars_ne_nil rest)
  | cons segment segments =>
    cases hfront : Path.segments front with
    | nil => exact absurd hfront (Path.segments_ne_nil front)
    | cons first others =>
      rw [chain?, hsegments, hrest, hfront] at hchain
      obtain ⟨start, hstart, hfollow⟩ := Option.bind_eq_some_iff.1 hchain
      obtain ⟨passed, g, r, hpassed, hlast, hg⟩ := follow_append_cons hfollow
      exact ⟨g, r, by simp [resolve?, chain?, hfront, hstart, hpassed, hlast], hg⟩

/-! ## The fields along a path -/

theorem length_of_follow {f : Field} {segments : List String} {fields : List Field}
    (h : follow f segments = some fields) : fields.length = segments.length + 1 := by
  induction segments generalizing f fields with
  | nil =>
    cases h
    rfl
  | cons segment segments ih =>
    simp only [follow, Option.bind_eq_bind, Option.bind_eq_some_iff] at h
    obtain ⟨_, _, next, _, fields', hfields, h⟩ := h
    cases h
    rw [List.length_cons, List.length_cons, ih hfields]

theorem follow_ne_nil {f : Field} {segments : List String} {fields : List Field}
    (h : follow f segments = some fields) : fields ≠ [] :=
  List.ne_nil_of_length_eq_add_one (length_of_follow h)

/-- There is one field along a path for each of its segments. -/
theorem length_of_chain? {s : Schema} {path : String} {fields : List Field}
    (h : s.chain? path = some fields) : fields.length = (Path.segments path).length := by
  cases hsegments : Path.segments path with
  | nil => exact absurd hsegments (Path.segments_ne_nil path)
  | cons segment segments =>
    rw [chain?, hsegments] at h
    obtain ⟨f, -, hfollow⟩ := Option.bind_eq_some_iff.1 h
    exact length_of_follow hfollow

/-- A way goes on by one segment if and only if its last field refers to a group with a field for
the segment. -/
theorem follow_append_singleton_eq_some_iff {f : Field} {front : List String} {segment : String}
    {fields : List Field} :
    follow f (front ++ [segment]) = some fields ↔
      ∃ passed last r next, follow f front = some passed ∧ passed.getLast? = some last ∧
        last.reference = some r ∧ r.group.get? segment = some next ∧ fields = passed ++ [next] := by
  induction front generalizing f fields with
  | nil =>
    simp only [List.nil_append, follow, Option.bind_eq_bind, Option.bind_eq_some_iff,
      Option.some.injEq]
    constructor
    · rintro ⟨r, hr, next, hnext, _, rfl, rfl⟩
      exact ⟨[f], f, r, next, rfl, rfl, hr, hnext, rfl⟩
    · rintro ⟨passed, last, r, next, rfl, hlast, hr, hnext, rfl⟩
      cases hlast
      exact ⟨r, hr, next, hnext, [next], rfl, rfl⟩
  | cons x front ih =>
    simp only [List.cons_append, follow, Option.bind_eq_bind, Option.bind_eq_some_iff,
      Option.some.injEq, ih]
    constructor
    · rintro ⟨r, hr, next, hnext, _, ⟨passed, last, r', g, hpassed, hlast, hr', hg, rfl⟩, rfl⟩
      refine ⟨f :: passed, last, r', g, ⟨r, hr, next, hnext, passed, hpassed, rfl⟩, ?_, hr', hg,
        rfl⟩
      rw [List.getLast?_cons, hlast]
      rfl
    · rintro ⟨_, last, r', g, ⟨r, hr, next, hnext, passed, hpassed, rfl⟩, hlast, hr', hg, rfl⟩
      have hne : passed ≠ [] := follow_ne_nil hpassed
      rw [List.getLast?_cons, List.getLast?_eq_some_getLast hne] at hlast
      refine ⟨r, hr, next, hnext, passed ++ [g],
        ⟨passed, last, r', g, hpassed, ?_, hr', hg, rfl⟩, rfl⟩
      rw [List.getLast?_eq_some_getLast hne]
      exact hlast

/-- The fields along a path are those along its parent and the field of its identifier, in the group
that the last field of the parent refers to. -/
theorem chain?_eq_some_iff_of_splitLast? {s : Schema} {path parent identifier : String}
    (h : Path.splitLast? path = some (parent, identifier)) {fields : List Field} :
    s.chain? path = some fields ↔
      ∃ passed last r f, s.chain? parent = some passed ∧ passed.getLast? = some last ∧
        last.reference = some r ∧ r.group.get? identifier = some f ∧ fields = passed ++ [f] := by
  obtain ⟨⟨p, i⟩, hsplit, heq⟩ := Option.map_eq_some_iff.1 h
  cases heq
  obtain ⟨-, hdot⟩ := Path.splitLastChars_eq_some_iff.1 hsplit
  have hsegments : Path.segments path = Path.segments (String.ofList p) ++ [String.ofList i] := by
    rw [Path.segments_of_toList_eq (Path.toList_of_splitLast?_eq_some h), String.toList_ofList,
      Path.segmentChars_of_not_mem hdot, List.map_singleton]
  cases hparent : Path.segments (String.ofList p) with
  | nil => exact absurd hparent (Path.segments_ne_nil _)
  | cons first others =>
    rw [chain?, chain?, hsegments, hparent]
    simp only [List.cons_append, Option.bind_eq_bind, Option.bind_eq_some_iff,
      follow_append_singleton_eq_some_iff]
    constructor
    · rintro ⟨f, hf, passed, last, r, next, hpassed, hrest⟩
      exact ⟨passed, last, r, next, ⟨f, hf, hpassed⟩, hrest⟩
    · rintro ⟨passed, last, r, next, ⟨f, hf, hpassed⟩, hrest⟩
      exact ⟨f, hf, passed, last, r, next, hpassed, hrest⟩

/-- A dotted path leads to a field if and only if its parent leads to one that refers to a group
with that field. -/
theorem resolve?_eq_some_iff_of_splitLast? {s : Schema} {path parent identifier : String}
    (h : Path.splitLast? path = some (parent, identifier)) {f : Field} :
    s.resolve? path = some f ↔
      ∃ g r, s.resolve? parent = some g ∧ g.reference = some r ∧
        r.group.get? identifier = some f := by
  simp only [resolve?, Option.bind_eq_some_iff, chain?_eq_some_iff_of_splitLast? h]
  constructor
  · rintro ⟨_, ⟨passed, g, r, f', hpassed, hlast, hr, hf', rfl⟩, hf⟩
    rw [List.getLast?_concat] at hf
    cases hf
    exact ⟨g, r, ⟨passed, hpassed, hlast⟩, hr, hf'⟩
  · rintro ⟨g, r, ⟨passed, hpassed, hlast⟩, hr, hf⟩
    exact ⟨passed ++ [f], ⟨passed, g, r, f, hpassed, hlast, hr, hf, rfl⟩, List.getLast?_concat⟩

theorem exists_resolve?_of_chain? {s : Schema} {path : String} {fields : List Field}
    (h : s.chain? path = some fields) : ∃ f, s.resolve? path = some f := by
  have hne : fields ≠ [] :=
    List.ne_nil_of_length_eq_add_one ((length_of_chain? h).trans (Path.length_segments path))
  exact ⟨fields.getLast hne,
    by rw [resolve?, h, Option.bind_some, List.getLast?_eq_some_getLast hne]⟩

/-- Resolving a path from the left agrees with taking it apart at its last dot. The fields along a
path with a dot are those along its parent, the last of which refers to a group, and the field of
this group for the identifier. A path that resolves has one field for each of its segments, and all
paths that end before one of its dots resolve to fields that refer to a group. -/
theorem chain_agrees_from_right (s : Schema) (path : String) :
    ('.' ∈ path.toList → ∃ parent identifier,
      Path.splitLast? path = some (parent, identifier) ∧
      path = parent ++ "." ++ identifier ∧ '.' ∉ identifier.toList ∧
      ∀ fields, s.chain? path = some fields ↔
        ∃ passed last r f, s.chain? parent = some passed ∧ passed.getLast? = some last ∧
          last.reference = some r ∧ r.group.get? identifier = some f ∧
          fields = passed ++ [f]) ∧
    ∀ fields, s.chain? path = some fields →
      fields.length = (Path.segments path).length ∧ fields.length = path.toList.count '.' + 1 ∧
      ∀ front rest, path = front ++ "." ++ rest →
        ∃ f r, s.resolve? front = some f ∧ f.reference = some r := by
  refine ⟨fun hdot => ?_, fun fields hfields => ⟨length_of_chain? hfields, ?_, ?_⟩⟩
  · obtain ⟨parent, identifier, hsplit, hpath, hidentifier⟩ := Path.exists_splitLast?_of_mem hdot
    refine ⟨parent, identifier, hsplit, hpath, hidentifier, fun fields => ?_⟩
    exact chain?_eq_some_iff_of_splitLast? hsplit
  · rw [length_of_chain? hfields, Path.length_segments]
  · intro front rest hpath
    obtain ⟨f, hf⟩ := exists_resolve?_of_chain? hfields
    have hchars : path.toList = front.toList ++ '.' :: rest.toList := by simp [hpath]
    exact resolve?_of_append_dot hf hchars

/-- A schema with the field `boss`, which leads to a group that has a field for every identifier,
and each of these leads to the field `city`. -/
def bossSchema : Schema :=
  let city : Field := ⟨"city", .str, none, none⟩
  let all : Field := ⟨"*", .int, none, some ⟨"", ⟨some "place", [city]⟩⟩⟩
  ⟨[⟨"boss", .int, none, some ⟨"", ⟨some "person", [all]⟩⟩⟩]⟩

/-- The segment in the middle is empty, and it is found as `*`. -/
theorem chain_agrees_from_right_city :
    '.' ∈ "boss..city".toList ∧ ∃ fields, bossSchema.chain? "boss..city" = some fields ∧
      fields.map (·.identifier) = ["boss", "*", "city"] ∧
      (∃ passed last r f, bossSchema.chain? "boss." = some passed ∧ passed.getLast? = some last ∧
        last.reference = some r ∧ r.group.get? "city" = some f ∧ fields = passed ++ [f]) ∧
      ∃ f r, bossSchema.resolve? "boss" = some f ∧ f.reference = some r := by
  have hdot : '.' ∈ "boss..city".toList := by decide +kernel
  have hchain : (bossSchema.chain? "boss..city").map (·.map (·.identifier)) =
      some ["boss", "*", "city"] := by decide +kernel
  have hlast : Path.splitLast? "boss..city" = some ("boss.", "city") := by decide +kernel
  obtain ⟨fields, hfields, hidentifiers⟩ := Option.map_eq_some_iff.1 hchain
  obtain ⟨hright, hleft⟩ := chain_agrees_from_right bossSchema "boss..city"
  obtain ⟨parent, identifier, hsplit, -, -, hiff⟩ := hright hdot
  cases hsplit.symm.trans hlast
  exact ⟨hdot, fields, hfields, hidentifiers, (hiff fields).1 hfields,
    (hleft fields hfields).2.2 "boss" ".city" rfl⟩

end Schema

end TypedSql
