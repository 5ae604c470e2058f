import Mathlib

/-!
# Words joined by a doubled letter

Two words are joined by writing a letter twice between them. If the words may have the letter
themselves, a joined word can be taken apart in more than one way.
-/

namespace Separated

open List

variable {α : Type} {u : α} {x y x' y' : List α}

/-- The words `x` and `y` with `u` twice between them. -/
def joined (u : α) (x y : List α) : List α :=
  x ++ [u, u] ++ y

/-- The first word takes a part of the second: one letter of the separator, or a part up to a
separator of its own. -/
def Shifted (u : α) (x y x' y' : List α) : Prop :=
  (x' = x ++ [u] ∧ y = u :: y') ∨ ∃ v, x' = x ++ [u, u] ++ v ∧ y = v ++ [u, u] ++ y'

/-- The separator of one pair lies elsewhere in the other. -/
def Confused (u : α) (x y x' y' : List α) : Prop :=
  Shifted u x y x' y' ∨ Shifted u x' y' x y

theorem Shifted.joined_eq (h : Shifted u x y x' y') : joined u x y = joined u x' y' := by
  rcases h with ⟨rfl, rfl⟩ | ⟨v, rfl, rfl⟩
  · simp [joined]
  · simp [joined]

theorem Shifted.length_lt (h : Shifted u x y x' y') : x.length < x'.length := by
  rcases h with ⟨rfl, rfl⟩ | ⟨v, rfl, rfl⟩
  · simp
  · simp only [length_append, length_cons]
    omega

theorem shifted_of_append {a : List α} (h : [u, u] ++ y = a ++ ([u, u] ++ y')) (ha : a ≠ []) :
    Shifted u x y (x ++ a) y' := by
  match a, ha with
  | [b], _ =>
    obtain ⟨rfl, -, rfl⟩ := h
    exact .inl ⟨rfl, rfl⟩
  | b :: c :: v, _ =>
    obtain ⟨rfl, rfl, rfl⟩ := h
    exact .inr ⟨v, by simp, by simp⟩

/-- Which pairs of words are joined to the same word. -/
theorem joined_eq_iff :
    joined u x y = joined u x' y' ↔ (x = x' ∧ y = y') ∨ Confused u x y x' y' := by
  refine ⟨fun h => ?_, fun h => ?_⟩
  · rw [joined, joined, append_assoc, append_assoc, append_eq_append_iff] at h
    rcases h with ⟨a, rfl, h⟩ | ⟨a, rfl, h⟩
    · by_cases ha : a = []
      · subst ha
        exact .inl ⟨by simp, append_cancel_left h⟩
      · exact .inr (.inl (shifted_of_append h ha))
    · by_cases ha : a = []
      · subst ha
        exact .inl ⟨by simp, (append_cancel_left h).symm⟩
      · exact .inr (.inr (shifted_of_append h ha))
  · rcases h with ⟨rfl, rfl⟩ | h | h
    · rfl
    · exact h.joined_eq
    · exact h.joined_eq.symm

theorem Confused.ne (h : Confused u x y x' y') : x ≠ x' := by
  rintro rfl
  rcases h with h | h <;> exact absurd h.length_lt (Nat.lt_irrefl _)

/-- Words without a letter are told apart by one. -/
theorem append_cons_inj (hx : u ∉ x) (hx' : u ∉ x') (h : x ++ u :: y = x' ++ u :: y') :
    x = x' ∧ y = y' := by
  rcases append_eq_append_iff.1 h with ⟨a, rfl, ha⟩ | ⟨a, rfl, ha⟩
  · cases a with
    | nil => exact ⟨by simp, (cons.inj ha).2⟩
    | cons b a =>
      obtain rfl := (cons.inj ha).1
      simp at hx'
  · cases a with
    | nil => exact ⟨by simp, (cons.inj ha).2.symm⟩
    | cons b a =>
      obtain rfl := (cons.inj ha).1
      simp at hx

end Separated
