import Mathlib.Data.List.Forall2
import TypedSql.Rule.Basic

/-!
# The order of data types

Widening is a partial order in which the types above a given type form a chain. Two types with a
common lower bound are therefore comparable, and their meet is the narrower one. The same holds
entry by entry for lists of types: two lists with a common lower bound have a meet, which is the
largest such bound.
-/

namespace TypedSql

namespace DataType

/-- Types at the same place of the same chain are equal. -/
theorem chain_injective {a b : DataType} {p : Chain × Nat} (ha : a.chain = some p)
    (hb : b.chain = some p) : a = b := by
  have h : a.chain = b.chain := ha.trans hb.symm
  clear ha hb
  revert h
  cases a <;> cases b <;> simp [chain]

/-- A type widens to itself and to the types behind it in its chain. -/
theorem widensTo_iff {a b : DataType} :
    a.widensTo b = true ↔
      a = b ∨ ∃ c r s, a.chain = some (c, r) ∧ b.chain = some (c, s) ∧ r ≤ s := by
  unfold widensTo
  rcases a.chain with _ | ⟨c, r⟩
  · simp
  · rcases b.chain with _ | ⟨c', s⟩
    · simp
    · simp only [Bool.or_eq_true, Bool.and_eq_true, decide_eq_true_eq, Option.some.injEq,
        Prod.mk.injEq]
      refine or_congr_right ⟨?_, ?_⟩
      · rintro ⟨rfl, hrs⟩
        exact ⟨c, r, s, ⟨rfl, rfl⟩, ⟨rfl, rfl⟩, hrs⟩
      · rintro ⟨_, _, _, ⟨rfl, rfl⟩, ⟨rfl, rfl⟩, hrs⟩
        exact ⟨rfl, hrs⟩

@[simp] theorem widensTo_refl (a : DataType) : a.widensTo a = true := by
  simp [widensTo]

theorem widensTo_trans {a b c : DataType} (hab : a.widensTo b = true) (hbc : b.widensTo c = true) :
    a.widensTo c = true := by
  rw [widensTo_iff] at hab hbc
  rcases hab with rfl | ⟨k, r, s, ha, hb, hrs⟩
  · exact widensTo_iff.2 hbc
  · rcases hbc with rfl | ⟨k', s', u, hb', hc, hsu⟩
    · exact widensTo_iff.2 (Or.inr ⟨k, r, s, ha, hb, hrs⟩)
    · rw [hb] at hb'
      obtain ⟨rfl, rfl⟩ : k = k' ∧ s = s' := by simpa using hb'
      exact widensTo_iff.2 (Or.inr ⟨k, r, u, ha, hc, Nat.le_trans hrs hsu⟩)

theorem widensTo_antisymm {a b : DataType} (hab : a.widensTo b = true)
    (hba : b.widensTo a = true) : a = b := by
  rw [widensTo_iff] at hab hba
  rcases hab with rfl | ⟨k, r, s, ha, hb, hrs⟩
  · rfl
  · rcases hba with rfl | ⟨k', s', r', hb', ha', hsr⟩
    · rfl
    · rw [hb] at hb'
      rw [ha] at ha'
      obtain ⟨rfl, rfl⟩ : k = k' ∧ s = s' := by simpa using hb'
      obtain rfl : r = r' := by simpa using ha'
      have hrs' : r = s := Nat.le_antisymm hrs hsr
      exact chain_injective ha (hrs' ▸ hb)

/-- Two types that a third one widens to are comparable: they belong to its chain. -/
theorem widensTo_total {t a b : DataType} (ha : t.widensTo a = true) (hb : t.widensTo b = true) :
    a.widensTo b = true ∨ b.widensTo a = true := by
  rcases widensTo_iff.1 ha with rfl | ⟨k, r, s, ht, hs, _⟩
  · exact Or.inl hb
  · rcases widensTo_iff.1 hb with rfl | ⟨k', r', s', ht', hs', _⟩
    · exact Or.inr ha
    · rw [ht] at ht'
      obtain ⟨rfl, rfl⟩ : k = k' ∧ r = r' := by simpa using ht'
      rcases Nat.le_total s s' with h | h
      · exact Or.inl (widensTo_iff.2 (Or.inr ⟨k, s, s', hs, hs', h⟩))
      · exact Or.inr (widensTo_iff.2 (Or.inr ⟨k, s', s, hs', hs, h⟩))

/-- Two types that widen to a third one are comparable too. -/
theorem widensTo_total_below {t a b : DataType} (ha : a.widensTo t = true)
    (hb : b.widensTo t = true) : a.widensTo b = true ∨ b.widensTo a = true := by
  rcases widensTo_iff.1 ha with rfl | ⟨k, r, s, hr, hs, _⟩
  · exact Or.inr hb
  · rcases widensTo_iff.1 hb with rfl | ⟨k', r', s', hr', hs', _⟩
    · exact Or.inl ha
    · rw [hs] at hs'
      obtain ⟨rfl, rfl⟩ : k = k' ∧ s = s' := by simpa using hs'
      rcases Nat.le_total r r' with h | h
      · exact Or.inl (widensTo_iff.2 (Or.inr ⟨k, r, r', hr, hr', h⟩))
      · exact Or.inr (widensTo_iff.2 (Or.inr ⟨k, r', r, hr', hr, h⟩))

theorem eq_null_of_widensTo {a : DataType} (h : a.widensTo null = true) : a = null := by
  rcases widensTo_iff.1 h with rfl | ⟨_, _, _, _, hnull, _⟩
  · rfl
  · cases hnull

theorem eq_bool_of_widensTo {a : DataType} (h : a.widensTo bool = true) : a = bool := by
  rcases widensTo_iff.1 h with rfl | ⟨k, r, s, hr, hbool, hrs⟩
  · rfl
  · obtain ⟨rfl, rfl⟩ : Chain.numeric = k ∧ 0 = s := by simpa [chain] using hbool
    obtain rfl : r = 0 := Nat.le_zero.1 hrs
    exact chain_injective hr rfl

/-! ### Common types -/

@[simp] theorem null_widen (b : DataType) : null.widen b = some b := by
  cases b <;> rfl

@[simp] theorem widen_null (a : DataType) : a.widen null = some a := by
  cases a <;> rfl

theorem widen_cases {a b t : DataType} (h : a.widen b = some t) :
    (a = null ∧ b = t) ∨ (b = null ∧ a = t) ∨ a.widensTo t = true ∧ b.widensTo t = true := by
  unfold widen at h
  split at h
  · rename_i hab
    cases h
    exact Or.inr (Or.inr ⟨widensTo_refl a, hab ▸ widensTo_refl a⟩)
  split at h
  · rename_i ha
    cases h
    exact Or.inl ⟨ha, rfl⟩
  split at h
  · rename_i hb
    cases h
    exact Or.inr (Or.inl ⟨hb, rfl⟩)
  split at h
  · rename_i hab
    cases h
    exact Or.inr (Or.inr ⟨hab, widensTo_refl b⟩)
  split at h
  · rename_i hba
    cases h
    exact Or.inr (Or.inr ⟨widensTo_refl a, hba⟩)
  · cases h

/-- Two types below a third one have a common type that is below it too. -/
theorem exists_widen_below {a b t : DataType} (ha : a.widensTo t = true)
    (hb : b.widensTo t = true) : ∃ u, a.widen b = some u ∧ u.widensTo t = true := by
  by_cases hnull : a = null
  · subst hnull
    exact ⟨b, null_widen b, hb⟩
  by_cases hnull' : b = null
  · subst hnull'
    exact ⟨a, widen_null a, ha⟩
  unfold widen
  by_cases hab : a = b
  · exact ⟨a, by rw [if_pos hab], ha⟩
  rw [if_neg hab, if_neg hnull, if_neg hnull']
  by_cases hle : a.widensTo b = true
  · exact ⟨b, by rw [if_pos hle], hb⟩
  · have hge : b.widensTo a = true := (widensTo_total_below ha hb).resolve_left hle
    exact ⟨a, by rw [if_neg hle, if_pos hge], ha⟩

/-! ### Meets -/

theorem widensTo_of_meet {a b m : DataType} (h : a.meet b = some m) :
    m.widensTo a = true ∧ m.widensTo b = true := by
  unfold meet at h
  split at h
  · rename_i hab
    cases h
    exact ⟨widensTo_refl a, hab⟩
  · split at h
    · rename_i hba
      cases h
      exact ⟨hba, widensTo_refl b⟩
    · cases h

/-- Two types with a common lower bound have a meet, which is a lower bound of both and above every
other one. -/
theorem exists_meet {t a b : DataType} (ha : t.widensTo a = true) (hb : t.widensTo b = true) :
    ∃ m, a.meet b = some m ∧ t.widensTo m = true ∧ m.widensTo a = true ∧ m.widensTo b = true := by
  unfold meet
  by_cases hab : a.widensTo b = true
  · exact ⟨a, by simp [hab], ha, widensTo_refl a, hab⟩
  · have hba : b.widensTo a = true := (widensTo_total ha hb).resolve_left hab
    exact ⟨b, by simp [hab, hba], hb, hba, widensTo_refl b⟩

end DataType

/-! ## Lists of types -/

/-- The order of lists of types: the same length, and each type widens to its counterpart. -/
def Narrower (as bs : List DataType) : Prop :=
  List.Forall₂ (fun a b => a.widensTo b = true) as bs

theorem widenAll_iff {as bs : List DataType} : widenAll as bs = true ↔ Narrower as bs := by
  induction as generalizing bs with
  | nil => cases bs <;> simp [widenAll, Narrower]
  | cons a as ih =>
    cases bs with
    | nil => simp [widenAll, Narrower]
    | cons b bs => simp [widenAll, Narrower, ih]

namespace Narrower

theorem refl (as : List DataType) : Narrower as as :=
  List.forall₂_same.2 fun a _ => DataType.widensTo_refl a

theorem trans {as bs cs : List DataType} (hab : Narrower as bs) (hbc : Narrower bs cs) :
    Narrower as cs := by
  induction hab generalizing cs with
  | nil => exact hbc
  | cons hab _ ih =>
    cases hbc with
    | cons hbc hrest => exact .cons (DataType.widensTo_trans hab hbc) (ih hrest)

theorem antisymm {as bs : List DataType} (hab : Narrower as bs) (hba : Narrower bs as) :
    as = bs := by
  induction hab with
  | nil => rfl
  | cons hab _ ih =>
    cases hba with
    | cons hba hrest => rw [DataType.widensTo_antisymm hab hba, ih hrest]

/-- The meet of two lists of types is a lower bound of both. -/
theorem of_meetAll {as bs ms : List DataType} (h : meetAll as bs = some ms) :
    Narrower ms as ∧ Narrower ms bs := by
  induction as generalizing bs ms with
  | nil =>
    cases bs with
    | nil =>
      cases h
      exact ⟨.nil, .nil⟩
    | cons b bs => cases h
  | cons a as ih =>
    cases bs with
    | nil => cases h
    | cons b bs =>
      obtain ⟨m, hm, h⟩ := Option.bind_eq_some_iff.1 h
      obtain ⟨ms, hms, h⟩ := Option.bind_eq_some_iff.1 h
      cases h
      obtain ⟨hma, hmb⟩ := DataType.widensTo_of_meet hm
      obtain ⟨hmas, hmbs⟩ := ih hms
      exact ⟨.cons hma hmas, .cons hmb hmbs⟩

/-- Two lists of types with a common lower bound have a meet, which is a lower bound of both and
above every other one. -/
theorem exists_meetAll {ts as bs : List DataType} (ha : Narrower ts as) (hb : Narrower ts bs) :
    ∃ ms, meetAll as bs = some ms ∧ Narrower ts ms ∧ Narrower ms as ∧ Narrower ms bs := by
  induction ha generalizing bs with
  | nil =>
    cases hb
    exact ⟨[], rfl, .nil, .nil, .nil⟩
  | cons ha _ ih =>
    cases hb with
    | cons hb hrest =>
      obtain ⟨m, hm, htm, hma, hmb⟩ := DataType.exists_meet ha hb
      obtain ⟨ms, hms, htms, hmas, hmbs⟩ := ih hrest
      exact ⟨m :: ms, by simp [meetAll, hm, hms], .cons htm htms, .cons hma hmas, .cons hmb hmbs⟩

end Narrower

end TypedSql
