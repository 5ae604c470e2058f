import Mathlib

/-!
# Logs addressed by offsets

A log is written in batches, each sent with the number of the entry it is to start at. Its reader
has received a leading part of it, piece by piece.
-/

namespace OffsetLog

open List

variable {α : Type} (batches : List (Int × List α))

/-- The entries of a list of batches. -/
def rows : List α :=
  batches.flatMap Prod.snd

/-- Every batch starts where the ones before it end. -/
def InOrder : Prop :=
  ∀ (before : List (Int × List α)) (batch : Int × List α) (after : List (Int × List α)),
    batches = before ++ batch :: after → batch.1 = ((rows before).length : Int)

/-- How far deliveries reach. -/
def upTo (offsets : List Int) : Nat :=
  (offsets.foldl max 0).toNat

@[simp] theorem rows_nil : rows ([] : List (Int × List α)) = [] := rfl

@[simp] theorem rows_concat (o : Int) (e : List α) :
    rows (batches ++ [(o, e)]) = rows batches ++ e := by
  simp [rows]

theorem inOrder_nil : InOrder ([] : List (Int × List α)) := by
  intro before b after h
  simp at h

/-- A log with one more batch. -/
theorem inOrder_concat {batches : List (Int × List α)} {o : Int} {e : List α}
    (h : InOrder batches) (ho : o = (rows batches).length) :
    InOrder (batches ++ [(o, e)]) := by
  intro before b after heq
  rcases eq_nil_or_concat after with rfl | ⟨a', l, rfl⟩
  · obtain ⟨rfl, hb⟩ := append_inj' heq rfl
    obtain rfl := head_eq_of_cons_eq hb
    exact ho
  · rw [concat_eq_append, ← cons_append, ← append_assoc] at heq
    exact h before b a' (append_inj' heq rfl).1

@[simp] theorem upTo_nil : upTo [] = 0 := rfl

theorem upTo_concat {o : List Int} {offset : Int} (h : (upTo o : Int) < offset) :
    upTo (o ++ [offset]) = offset.toNat := by
  rw [upTo, foldl_append]
  simp only [upTo, foldl_cons, foldl_nil] at h ⊢
  omega

/-- A delivery that starts where the last one ended. -/
theorem take_append_slice (e : List α) {m n : Nat} (h : m ≤ n) :
    e.take m ++ (e.drop m).take (n - m) = e.take n := by
  rw [← take_add, Nat.add_sub_cancel' h]

end OffsetLog
