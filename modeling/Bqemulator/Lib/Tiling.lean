import Mathlib

/-!
# Ranges laid end to end

A list of half-open ranges tiles an interval when each starts where the one before it ends. A list
that tiles in some order partitions the interval: every index lies in exactly one range. Cutting a
range in two keeps a partition.
-/

namespace Tiling

open List

variable {ρ : Type} (lo hi : ρ → Nat)

/-- **The ranges lead from `a` to `b`**: each starts where the one before it ends. -/
def Tiles : Nat → Nat → List ρ → Prop
  | a, b, [] => a = b
  | a, b, r :: rs => lo r = a ∧ a ≤ hi r ∧ Tiles (hi r) b rs

/-- The ranges tile the interval in some order. -/
def Partitions (a b : Nat) (rs : List ρ) : Prop := ∃ l, l.Perm rs ∧ Tiles lo hi a b l

def Covers (i : Nat) (r : ρ) : Bool := lo r ≤ i && i < hi r

variable {lo hi} {a b : Nat}

theorem tiles_append {l₁ l₂ : List ρ} :
    Tiles lo hi a b (l₁ ++ l₂) ↔ ∃ c, Tiles lo hi a c l₁ ∧ Tiles lo hi c b l₂ := by
  induction l₁ generalizing a with
  | nil =>
    refine ⟨fun h => ⟨a, rfl, h⟩, ?_⟩
    rintro ⟨c, rfl, h⟩
    exact h
  | cons r l₁ ih =>
    rw [cons_append, Tiles, ih]
    constructor
    · rintro ⟨hl, hle, c, h₁, h₂⟩
      exact ⟨c, ⟨hl, hle, h₁⟩, h₂⟩
    · rintro ⟨c, ⟨hl, hle, h₁⟩, h₂⟩
      exact ⟨hl, hle, c, h₁, h₂⟩

variable {l rs : List ρ} {r p : ρ}

theorem Tiles.le (h : Tiles lo hi a b l) : a ≤ b := by
  induction l generalizing a with
  | nil => exact Nat.le_of_eq h
  | cons r l ih => exact Nat.le_trans h.2.1 (ih h.2.2)

/-- Every index of the interval is covered once, and no other index is. -/
theorem Tiles.countP (h : Tiles lo hi a b l) (i : Nat) :
    l.countP (Covers lo hi i) = if a ≤ i ∧ i < b then 1 else 0 := by
  induction l generalizing a with
  | nil =>
    have hab : a = b := h
    rw [countP_nil, if_neg (by omega)]
  | cons r l ih =>
    obtain ⟨hl, hle, hr⟩ := h
    have he : hi r ≤ b := hr.le
    rw [countP_cons, ih hr]
    simp only [Covers, hl, Bool.and_eq_true, decide_eq_true_eq]
    -- the index lies before the end of the first range or after it
    rcases Nat.lt_or_ge i (hi r) with hi | hi
    · rw [if_neg (by omega), Nat.zero_add]
      by_cases ha : a ≤ i
      · rw [if_pos (by omega), if_pos (by omega)]
      · rw [if_neg (by omega), if_neg (by omega)]
    · rw [if_neg (show ¬(a ≤ i ∧ i < _) by omega), Nat.add_zero]
      by_cases hb : i < b
      · rw [if_pos (by omega), if_pos (by omega)]
      · rw [if_neg (by omega), if_neg (by omega)]

/-- The slices of a tiling are the slice of the interval. -/
theorem Tiles.flatMap_slice {α : Type} (xs : List α) (h : Tiles lo hi a b l) :
    l.flatMap (fun r => (xs.drop (lo r)).take (hi r - lo r)) = (xs.drop a).take (b - a) := by
  induction l generalizing a with
  | nil =>
    have ha : a = b := h
    rw [flatMap_nil, ha, Nat.sub_self, take_zero]
  | cons r l ih =>
    obtain ⟨hl, hle, hr⟩ := h
    have he : hi r ≤ b := hr.le
    rw [flatMap_cons, ih hr, hl]
    rw [show b - a = (hi r - a) + (b - hi r) by omega, take_add, drop_drop,
      show a + (hi r - a) = hi r by omega]

theorem Partitions.perm {r' : List ρ} (h : Partitions lo hi a b rs) (hp : rs.Perm r') :
    Partitions lo hi a b r' := by
  obtain ⟨l, hl, ht⟩ := h
  exact ⟨l, hl.trans hp, ht⟩

theorem Partitions.countP (h : Partitions lo hi a b rs) (i : Nat) :
    rs.countP (Covers lo hi i) = if a ≤ i ∧ i < b then 1 else 0 := by
  obtain ⟨l, hl, ht⟩ := h
  rw [← hl.countP_eq, ht.countP]

theorem Partitions.around (h : Partitions lo hi a b rs) (hr : r ∈ rs) :
    ∃ l₁ l₂, (l₁ ++ r :: l₂).Perm rs ∧ Tiles lo hi a (lo r) l₁ ∧ lo r ≤ hi r ∧
      Tiles lo hi (hi r) b l₂ := by
  obtain ⟨l, hl, ht⟩ := h
  obtain ⟨l₁, l₂, rfl⟩ := append_of_mem (hl.mem_iff.2 hr)
  obtain ⟨c, h₁, hlo, hle, h₂⟩ := tiles_append.1 ht
  subst hlo
  exact ⟨l₁, l₂, hl, h₁, hle, h₂⟩

/-- A range may be cut in two. -/
theorem Partitions.replace {q : ρ} (h : Partitions lo hi a b (r :: rs)) (hp : lo p = lo r)
    (hc : lo q = hi p) (hq : hi q = hi r) (hlo : lo p ≤ hi p) (hh : lo q ≤ hi q) :
    Partitions lo hi a b (p :: q :: rs) := by
  obtain ⟨l₁, l₂, hl, h₁, hle, h₂⟩ := h.around mem_cons_self
  have hr : (l₁ ++ l₂).Perm rs := (perm_middle.symm.trans hl).cons_inv
  refine ⟨l₁ ++ p :: q :: l₂, ?_, tiles_append.2 ⟨lo r, h₁, hp, ?_, ?_, ?_, ?_⟩⟩
  · exact perm_middle.trans ((perm_middle.trans (hr.cons q)).cons p)
  · omega
  · exact hc
  · omega
  · rw [hq]; exact h₂

/-- Adding an empty range where one of the ranges starts keeps a partition. -/
theorem Partitions.insert (h : Partitions lo hi a b rs) (hr : r ∈ rs) (hlo : lo p = lo r)
    (hh : hi p = lo r) : Partitions lo hi a b (p :: rs) := by
  obtain ⟨l₁, l₂, hl, h₁, hle, h₂⟩ := h.around hr
  refine ⟨l₁ ++ p :: r :: l₂, perm_middle.trans (hl.cons p),
    tiles_append.2 ⟨lo r, h₁, hlo, Nat.le_of_eq hh.symm, hh.symm, ?_, h₂⟩⟩
  omega

end Tiling
