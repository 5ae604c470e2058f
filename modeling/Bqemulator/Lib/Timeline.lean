import Mathlib

/-!
# Timelines

A list of entries, each with a time, in order of time. The entry in force at a moment is the last
one not after it; the first one of the largest time has the same value when entries of one instant
agree.
-/

namespace Timeline

open List

variable {α T V : Type} [LinearOrder T]

/-- The last entry of `l` not after `τ`. -/
def asOf (time : α → T) (l : List α) (τ : T) : Option α :=
  (l.filter fun a => time a ≤ τ).getLast?

variable {t : α → T} {l : List α}

theorem asOf_concat {a : α} {τ : T} (h : t a ≤ τ) : asOf t (l ++ [a]) τ = some a := by
  simp [asOf, h]

theorem exists_asOf {τ : T} (h : ∃ a ∈ l, t a ≤ τ) : ∃ a, asOf t l τ = some a := by
  obtain ⟨a, ha, hτ⟩ := h
  rw [asOf, ← Option.isSome_iff_exists, getLast?_isSome]
  have hm : a ∈ l.filter fun a => t a ≤ τ := mem_filter.2 ⟨ha, by simpa using hτ⟩
  exact ne_nil_of_mem hm

/-- The first entry of the largest time has the value of the last entry. -/
theorem map_argmax_eq (v : α → V) (hs : l.Pairwise fun a b => t a ≤ t b)
    (hv : ∀ a ∈ l, ∀ b ∈ l, t a = t b → v a = v b) :
    (l.argmax t).map v = l.getLast?.map v := by
  rcases eq_nil_or_concat' l with rfl | ⟨l, b, rfl⟩
  · rfl
  obtain ⟨a, ha⟩ : ∃ a, (l ++ [b]).argmax t = some a := by
    rw [← Option.ne_none_iff_exists', ne_eq, argmax_eq_none]
    simp
  have hl : t b ≤ t a := le_of_mem_argmax (by simp) ha
  rw [ha, getLast?_concat, Option.map_some, Option.map_some]
  rcases mem_append.1 (argmax_mem ha) with hm | hm
  · -- an earlier entry of the largest time is of the same instant as the last one
    have hg := (pairwise_append.1 hs).2.2 a hm b (by simp)
    rw [hv a (mem_append_left _ hm) b (by simp) (le_antisymm hg hl)]
  · rw [mem_singleton.1 hm]

/-- A later entry of the same time is not selected. -/
theorem argmax_concat_of_le {a b : α} (ha : a ∈ l) (hl : t b ≤ t a) :
    (l ++ [b]).argmax t = l.argmax t := by
  rw [argmax_concat]
  cases hm : l.argmax t with
  | none =>
    rw [argmax_eq_none] at hm
    subst hm
    cases ha
  | some m => simp [not_lt.2 (hl.trans (le_of_mem_argmax ha hm))]

end Timeline
