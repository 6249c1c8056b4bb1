import TypedSql.Proofs.JoinedTables
import TypedSql.Query.Statement

/-!
# Steps that are refused

A step checks its alias, its expression and the mode of the query before it changes anything, and
once these checks are passed nothing can go wrong. A step that is refused therefore leaves the query
as it was. The exception is joining a path that the caller names: the groups along the path are
joined one after the other, and those before the one that cannot be joined stay.
-/

namespace TypedSql

namespace Outcome

/-- Whether an outcome is what the checks of a step lead to: a refusal that leaves the query as it
was, or a step that goes through. -/
def Follows (o : Outcome) (q : Query) : Except Fault Unit → Prop
  | .error fault => o = .refused q fault
  | .ok _ => o.fault = none

theorem follows_tryWith {α : Type} {q : Query} {value : Except Fault α} {next : α → Outcome}
    {rest : α → Except Fault Unit} (h : ∀ a, value = .ok a → (next a).Follows q (rest a)) :
    (q.tryWith value next).Follows q (value >>= rest) := by
  cases value with
  | error fault => exact rfl
  | ok a => exact h a rfl

end Outcome

namespace Query

variable {q : Query} {fault : Fault}

/-! ## What a step checks -/

/-- The checks that a step makes before it changes anything. -/
def checks (q : Query) : Step → Except Fault Unit
  | .selectExpr n aliasName => do
    Identifier.checkAlias aliasName
    let c ← q.context.checkValid n
    discard (q.mode.extend c.level n.source)
  | .selectSql sql aliasName => do
    Identifier.checkAlias aliasName
    discard (q.mode.extend .row sql)
  | .fromSql _ aliasName => discard (Identifier.checkAlias aliasName)
  | .whereExpr n => discard (q.context.checkRows n n.aggregateCondition)
  | .groupByExpr n => do
    let _ ← q.context.checkRows n n.aggregateKey
    discard (q.mode.extend (.aggregated .group) n.source)
  | .groupBySql sql => discard (q.mode.extend (.aggregated .group) sql)
  | .orderExpr n _ _ => discard (q.context.checkValid n)
  | _ => .ok ()

/-- A step other than joining a path is refused if and only if one of its checks fails. -/
theorem apply_follows_checks {step : Step} (hstep : ∀ path, step ≠ .fromPath path) :
    (q.apply step).Follows q (q.checks step) := by
  cases step with
  | selectExpr n aliasName =>
    refine Outcome.follows_tryWith fun _ _ => Outcome.follows_tryWith fun c hc => ?_
    refine Outcome.follows_tryWith fun mode _ => ?_
    obtain ⟨hcheck, hvalid⟩ := Context.checkValid_eq_ok_iff.1 hc
    rw [Outcome.andThen_of_fault (joinFields_fault (q := { q with mode }) hcheck hvalid)]
    exact rfl
  | selectSql sql aliasName =>
    exact Outcome.follows_tryWith fun _ _ => Outcome.follows_tryWith fun _ _ => rfl
  | fromSql sql aliasName => exact Outcome.follows_tryWith fun _ _ => rfl
  | fromPath path => exact absurd rfl (hstep path)
  | whereExpr n =>
    refine Outcome.follows_tryWith fun c hc => ?_
    obtain ⟨hcheck, hvalid, -⟩ := Context.checkRows_eq_ok_iff.1 hc
    rw [Outcome.andThen_of_fault (joinFields_fault hcheck hvalid)]
    exact rfl
  | groupByExpr n =>
    refine Outcome.follows_tryWith fun c hc => Outcome.follows_tryWith fun mode _ => ?_
    obtain ⟨hcheck, hvalid, -⟩ := Context.checkRows_eq_ok_iff.1 hc
    rw [Outcome.andThen_of_fault (joinFields_fault (q := { q with mode }) hcheck hvalid)]
    exact rfl
  | groupBySql sql => exact Outcome.follows_tryWith fun _ _ => rfl
  | orderExpr n direction nulls =>
    refine Outcome.follows_tryWith fun c hc => ?_
    obtain ⟨hcheck, hvalid⟩ := Context.checkValid_eq_ok_iff.1 hc
    rw [Outcome.andThen_of_fault (joinFields_fault hcheck hvalid)]
    exact rfl
  | _ => exact rfl

/-- A step other than joining a path is refused for what its first failing check says, and then
leaves the query exactly as it was. -/
theorem apply_refused_unchanged {step : Step} (hstep : ∀ path, step ≠ .fromPath path)
    (fault : Fault) :
    ((q.apply step).fault = some fault ↔ q.checks step = .error fault) ∧
      ((q.apply step).fault = some fault → (q.apply step).query = q) := by
  have hfollows := q.apply_follows_checks hstep
  cases hchecks : q.checks step with
  | ok _ =>
    rw [hchecks] at hfollows
    have hnone : (q.apply step).fault = none := hfollows
    simp [hnone]
  | error fault' =>
    rw [hchecks] at hfollows
    have hrefused : q.apply step = .refused q fault' := hfollows
    simp [hrefused, Outcome.refused]

/-- A schema with the field `dept`, which leads to a table with the field `title`. -/
def deptSchema : Schema :=
  let group : Group Field := ⟨some "dept", [⟨"title", .str, none, none⟩]⟩
  ⟨[⟨"dept", .int, none, some ⟨"dept_id = \x7bd\x7d.id", group⟩⟩]⟩

/-- A field that does not go with the groups of a query is refused before its table is joined. -/
theorem apply_refused_unchanged_title :
    let context : Context := ⟨deptSchema, ⟨.postgres, [], rfl⟩, .inline⟩
    let q := run { context } [.groupBySql "dept_id"]
    let step : Step := .selectExpr (.ofExpr (.field "dept.title")) none
    (q.apply step).fault = some (.mixedSelection "dept.title") ∧ (q.apply step).query = q := by
  intro context q step
  have hfault : (q.apply step).fault = some (.mixedSelection "dept.title") := rfl
  have hstep : ∀ path, step ≠ .fromPath path := by simp [step]
  exact ⟨hfault, (apply_refused_unchanged hstep _).2 hfault⟩

/-! ## Joins that are refused -/

theorem joinLast_refused {path : String} (h : (q.joinLast path).fault = some fault) :
    q.joinLast path = .refused q fault ∧ LacksGroup q.context.schema path fault := by
  rcases q.joinLast_cases path with ⟨_, -, heq⟩ | ⟨_, hlacks, heq⟩ | ⟨_, _, -, -, -, heq⟩
  · rw [heq] at h
    cases h
  · rw [heq] at h ⊢
    cases h
    exact ⟨rfl, hlacks⟩
  · rw [heq] at h
    cases h

theorem joinEach_cons_of_fault {path : String} (h : (q.joinLast path).fault = none)
    (paths : List String) :
    q.joinEach (path :: paths) = (q.joinLast path).query.joinEach paths := by
  rw [joinEach, Outcome.andThen_of_fault h]

/-- Joining paths is refused at the first one that leads to no group, and what was joined before it
stays. -/
theorem joinEach_refused {paths : List String} (h : (q.joinEach paths).fault = some fault) :
    ∃ before front after, paths = before ++ front :: after ∧
      LacksGroup q.context.schema front fault ∧ (q.joinEach before).fault = none ∧
      (q.joinEach paths).query = (q.joinEach before).query := by
  induction paths generalizing q with
  | nil => cases h
  | cons path paths ih =>
    cases hlast : (q.joinLast path).fault with
    | some fault' =>
      have hstop : q.joinEach (path :: paths) = q.joinLast path := by
        rw [joinEach, Outcome.andThen, hlast]
      obtain ⟨hrefused, hlacks⟩ := joinLast_refused hlast
      rw [hstop, hrefused] at h ⊢
      cases h
      exact ⟨[], path, paths, rfl, hlacks, rfl, rfl⟩
    | none =>
      rw [joinEach_cons_of_fault hlast] at h ⊢
      obtain ⟨before, front, after, rfl, hlacks, hbefore, hquery⟩ := ih h
      rw [(q.extendsByJoins_joinLast path).context] at hlacks
      refine ⟨path :: before, front, after, rfl, hlacks, ?_, ?_⟩
      · rw [joinEach_cons_of_fault hlast, hbefore]
      · rw [joinEach_cons_of_fault hlast, hquery]

theorem mem_paths_joinEach {paths : List String} (h : (q.joinEach paths).fault = none) :
    ∀ path ∈ paths, path ∈ (q.joinEach paths).query.aliases.paths := by
  induction paths generalizing q with
  | nil => simp
  | cons path paths ih =>
    cases hlast : (q.joinLast path).fault with
    | some fault => simp [joinEach, Outcome.andThen, hlast] at h
    | none =>
      rw [joinEach_cons_of_fault hlast] at h ⊢
      intro p hp
      rcases List.mem_cons.1 hp with rfl | hp
      · exact ((q.joinLast p).query.extendsByJoins_joinEach paths).mem_paths
          (mem_paths_joinLast hlast)
      · exact ih h p hp

/-- Joining paths changes nothing if and only if all of them have been joined before. -/
theorem joinEach_query_eq_self_iff {paths : List String} (h : (q.joinEach paths).fault = none) :
    (q.joinEach paths).query = q ↔ ∀ path ∈ paths, path ∈ q.aliases.paths := by
  constructor
  · intro hq path hpath
    have hjoined := mem_paths_joinEach h path hpath
    rwa [hq] at hjoined
  · intro hjoined
    rw [joinEach_of_mem_paths hjoined]
    rfl

/-- Joining a path that the caller names is refused at the first path on its way that leads to no
group. The paths before that one are joined and stay joined, so the query is as it was if and only
if all of them had been joined before. -/
theorem refused_join_unchanged_iff {path : String}
    (h : (q.apply (.fromPath path)).fault = some fault) :
    ∃ before front after, Path.prefixes path = before ++ front :: after ∧
      LacksGroup q.context.schema front fault ∧ (q.joinEach before).fault = none ∧
      (q.apply (.fromPath path)).query = (q.joinEach before).query ∧
      ((q.apply (.fromPath path)).query = q ↔ ∀ p ∈ before, p ∈ q.aliases.paths) := by
  obtain ⟨before, front, after, hprefixes, hlacks, hbefore, hquery⟩ := joinEach_refused h
  refine ⟨before, front, after, hprefixes, hlacks, hbefore, hquery, ?_⟩
  have hleft : (q.apply (.fromPath path)).query = (q.joinEach before).query := hquery
  rw [hleft, joinEach_query_eq_self_iff hbefore]

/-- The table of `dept` stays joined after `dept.budget` has turned out to be unknown. -/
theorem refused_join_unchanged_iff_budget :
    let q : Query := { context := ⟨deptSchema, ⟨.postgres, [], rfl⟩, .inline⟩ }
    let o := q.apply (.fromPath "dept.budget")
    o.fault.map Fault.message = some "Field 'dept.budget' is unknown" ∧ o.query ≠ q ∧
      o.query.statement.toOption =
        some ⟨"select\n\t42\nfrom\n\tdept t1\nwhere\n\tdept_id = t1.id\n", []⟩ := by
  intro q o
  have hmessage : o.fault.map Fault.message = some "Field 'dept.budget' is unknown" := by
    decide +kernel
  obtain ⟨fault, hfault, -⟩ := Option.map_eq_some_iff.1 hmessage
  obtain ⟨before, front, after, hprefixes, hlacks, -, -, hiff⟩ := refused_join_unchanged_iff hfault
  have hway : Path.prefixes "dept.budget" = ["dept", "dept.budget"] := by decide +kernel
  rw [hway] at hprefixes
  refine ⟨hmessage, fun heq => ?_, by decide +kernel⟩
  cases before with
  | nil =>
    -- the first path on the way leads to a group, so it is not where the join was refused
    obtain ⟨rfl, -⟩ := List.cons.inj hprefixes
    have hgroup : ((deptSchema.resolve? "dept").bind (·.reference)).isSome = true := by
      decide +kernel
    rcases hlacks with ⟨hnone, -⟩ | ⟨f, hf, hnone, -⟩
    · rw [hnone] at hgroup
      cases hgroup
    · rw [hf, Option.bind_some, hnone] at hgroup
      cases hgroup
  | cons p before => cases hiff.1 heq p List.mem_cons_self

end Query

end TypedSql
