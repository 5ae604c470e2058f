import Mathlib

/-!
# Ranges

A range is a struct of two ends in the engine, where `UNBOUNDED` is `NULL`. The rules compare the
ends with `<` and `<=`, which give `NULL` for such an end; and `RANGE_CONTAINS` compares an end with
its second argument also when that is a range.
-/

namespace Bqemulator

variable {T : Type} [LinearOrder T]

/-- Half-open ranges. -/
structure Range (T : Type) where
  start : Option T
  stop : Option T

inductive RangeArg (T : Type) where
  | value (x : T)
  | range (s : Range T)

/-! ## Expressions -/

def sqlLt : Option T → Option T → Option Bool
  | some a, some b => some (decide (a < b))
  | _, _ => none

def sqlLe : Option T → Option T → Option Bool
  | some a, some b => some (decide (a ≤ b))
  | _, _ => none

def sqlAnd : Option Bool → Option Bool → Option Bool
  | some false, _ | _, some false => some false
  | some true, some true => some true
  | _, _ => none

/-- `RANGE_CONTAINS`. The engine rejects a comparison of an end with a struct. -/
def rangeContains (r : Range T) : RangeArg T → Except String (Option Bool)
  | .value x => .ok (sqlAnd (sqlLe r.start (some x)) (sqlLt (some x) r.stop))
  | .range _ => .error "Cannot compare values of type STRUCT"

variable (r s : Range T)

def rangeOverlaps : Option Bool :=
  sqlAnd (sqlLt r.start s.stop) (sqlLt s.start r.stop)

def rangeIntersect : Option (Range T) :=
  if rangeOverlaps r s = some true then
    some ⟨Option.merge max r.start s.start, Option.merge min r.stop s.stop⟩
  else none

/-! ## Sets of points -/

namespace Range

/-- The points of a range. -/
def Mem (r : Range T) (x : T) : Prop := (∀ a ∈ r.start, a ≤ x) ∧ ∀ b ∈ r.stop, x < b

def Meets : Prop := ∃ x, r.Mem x ∧ s.Mem x

end Range

/-- A condition has the truth value `b`. -/
def HasTruth (b : Option Bool) (p : Prop) : Prop := ∃ v, b = some v ∧ (v = true ↔ p)

/-- The result of `RANGE_INTERSECT` is the intersection, if there is one. -/
def IsIntersection (t : Option (Range T)) : Prop :=
  (t = none ↔ ¬ r.Meets s) ∧ ∀ u ∈ t, ∀ x, u.Mem x ↔ r.Mem x ∧ s.Mem x

/-- **The functions follow the sets of points.** -/
structure FollowsSets (r s : Range T) (x : T) : Prop where
  containsValue : ∃ b, rangeContains r (.value x) = .ok b ∧ HasTruth b (r.Mem x)
  containsRange : ∃ b, rangeContains r (.range s) = .ok b ∧ HasTruth b (∀ y, s.Mem y → r.Mem y)
  overlaps : HasTruth (rangeOverlaps r s) (r.Meets s)
  intersect : IsIntersection r s (rangeIntersect r s)

section Bounded

variable {a b c d x : T}

theorem mem_bounded : (⟨some a, some b⟩ : Range T).Mem x ↔ a ≤ x ∧ x < b := by
  simp [Range.Mem]

/-- Bounded ranges meet where the later of them begins. -/
theorem meets_bounded (ha : a < b) (hc : c < d) :
    (⟨some a, some b⟩ : Range T).Meets ⟨some c, some d⟩ ↔ a < d ∧ c < b := by
  simp only [Range.Meets, mem_bounded]
  constructor
  · rintro ⟨x, ⟨hax, hx⟩, hcx, hxd⟩
    exact ⟨hax.trans_lt hxd, hcx.trans_lt hx⟩
  · rintro ⟨had, hcb⟩
    exact ⟨max a c, ⟨le_max_left a c, max_lt ha hcb⟩, le_max_right a c, max_lt had hc⟩

theorem rangeOverlaps_bounded (ha : a < b) (hc : c < d) :
    HasTruth (rangeOverlaps ⟨some a, some b⟩ ⟨some c, some d⟩)
      ((⟨some a, some b⟩ : Range T).Meets ⟨some c, some d⟩) := by
  rw [meets_bounded ha hc]
  by_cases had : a < d <;> by_cases hcb : c < b <;>
    simp [HasTruth, rangeOverlaps, sqlLt, sqlAnd, had, hcb]

theorem rangeIntersect_bounded (ha : a < b) (hc : c < d) :
    IsIntersection ⟨some a, some b⟩ ⟨some c, some d⟩
      (rangeIntersect (⟨some a, some b⟩ : Range T) ⟨some c, some d⟩) := by
  obtain ⟨v, hv, hm⟩ := rangeOverlaps_bounded ha hc
  rw [rangeIntersect, hv]
  split
  · next ht =>
    refine ⟨by simp [hm.1 (Option.some.inj ht)], fun u hu x => ?_⟩
    obtain rfl := Option.some.inj hu
    simp only [Option.merge_some_some, mem_bounded, max_le_iff, lt_min_iff]
    tauto
  · next hf => simpa [IsIntersection, ← hm] using hf

end Bounded

theorem not_followsSets (x : T) :
    ¬ FollowsSets r s x ∧ ∀ a b c d, r = ⟨some a, some b⟩ → s = ⟨some c, some d⟩ → a < b → c < d →
      (∃ v, rangeContains r (.value x) = .ok v ∧ HasTruth v (r.Mem x)) ∧
      HasTruth (rangeOverlaps r s) (r.Meets s) ∧ IsIntersection r s (rangeIntersect r s) := by
  refine ⟨fun h => ?_, ?_⟩
  · obtain ⟨b, hb, -⟩ := h.containsRange
    cases hb
  rintro a b c d rfl rfl ha hc
  refine ⟨⟨_, rfl, ?_⟩, rangeOverlaps_bounded ha hc, rangeIntersect_bounded ha hc⟩
  rw [mem_bounded]
  by_cases hax : a ≤ x <;> by_cases hx : x < b <;>
    simp [HasTruth, sqlLe, sqlLt, sqlAnd, hax, hx]

/-- `RANGE_CONTAINS` of a range with an open end does not find a point of it. -/
theorem followsSets_fails : (⟨none, some 5⟩ : Range Int).Mem 3 ∧
    rangeContains (⟨none, some 5⟩ : Range Int) (.value 3) = .ok none ∧
    ¬ FollowsSets (⟨none, some 5⟩ : Range Int) ⟨some 1, some 4⟩ 3 := by
  refine ⟨by simp [Range.Mem], rfl, fun h => ?_⟩
  obtain ⟨_, hb, -⟩ := h.containsRange
  cases hb

end Bqemulator
