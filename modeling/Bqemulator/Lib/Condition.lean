import Mathlib

/-!
# Three-valued conditions

The truth values of a query language with nulls, and conditions built from atoms by disjunction.
A row passes a filter only when the condition is *true* of it: false and unknown both reject.
-/

/-- Kleene's truth values. -/
inductive Truth where
  | yes
  | no
  | unknown
deriving DecidableEq

namespace Truth

def or : Truth → Truth → Truth
  | .yes, _ => .yes
  | _, .yes => .yes
  | .no, .no => .no
  | _, _ => .unknown

theorem or_eq_yes_iff {a b : Truth} : a.or b = .yes ↔ a = .yes ∨ b = .yes := by
  cases a <;> cases b <;> simp [or]

end Truth

/-- Disjunctions of atoms `α`, with the false condition. -/
inductive Condition (α : Type) where
  | atom (a : α)
  | never
  | or (l r : Condition α)
deriving DecidableEq

namespace Condition

variable {α : Type}

def value (v : α → Truth) : Condition α → Truth
  | .atom a => v a
  | .never => .no
  | .or l r => (l.value v).or (r.value v)

/-- Whether a filter with this condition lets through: the condition is true, not unknown. -/
def holds (v : α → Truth) (c : Condition α) : Bool :=
  c.value v = .yes

variable (v : α → Truth)

@[simp] theorem holds_atom (a : α) : holds v (.atom a) = decide (v a = .yes) := rfl

@[simp] theorem holds_never : holds v .never = false := rfl

@[simp] theorem holds_or (l r : Condition α) : holds v (.or l r) = (holds v l || holds v r) := by
  simp [holds, value, Truth.or_eq_yes_iff]

/-- The disjunction of a list of conditions, nested to the left. -/
def anyOf : List (Condition α) → Condition α
  | [] => .never
  | c :: cs => cs.foldl .or c

theorem holds_foldl_or (cs : List (Condition α)) (c : Condition α) :
    holds v (cs.foldl .or c) = (holds v c || cs.any (holds v)) := by
  induction cs generalizing c with
  | nil => simp
  | cons d ds ih => simp [ih, Bool.or_assoc]

/-- A disjunction holds iff one of its members does. -/
theorem holds_anyOf (cs : List (Condition α)) : holds v (anyOf cs) = cs.any (holds v) := by
  cases cs with
  | nil => rfl
  | cons => simp [anyOf, holds_foldl_or]

end Condition
