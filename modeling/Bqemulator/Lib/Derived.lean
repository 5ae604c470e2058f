import Mathlib

/-!
# Values derived along dependencies

Some items have a stored value, others a body whose value is computed from the values of the items
it refers to. Where the bodies refer to items of lower rank only, the value of every item is
well defined.
-/

namespace Derived

variable {ι β α : Type}

/-- What bodies refer to, and their values. -/
structure Semantics (ι β α : Type) where
  refs : β → List ι
  eval : β → (ι → α) → α
  eval_congr : ∀ b f g, (∀ i ∈ refs b, f i = g i) → eval b f = eval b g

variable (S : Semantics ι β α)

/-- The values, with bodies computed to a depth. -/
def valueAt (body : ι → Option β) (stored : ι → α) : Nat → ι → α
  | 0, i => stored i
  | depth + 1, i => (body i).elim (stored i) fun b => S.eval b (valueAt body stored depth)

/-- Bodies refer to items of lower rank. -/
structure Ranked (body : ι → Option β) (rank : ι → Nat) (depth : Nat) : Prop where
  lt : ∀ i b, body i = some b → ∀ j ∈ S.refs b, rank j < rank i
  lt_depth : ∀ i, rank i < depth

/-- The items that some items refer to, directly or through bodies. -/
inductive Reaches (body : ι → Option β) (items : List ι) : ι → Prop
  | here {i : ι} (h : i ∈ items) : Reaches body items i
  | through {i j : ι} {b : β} (h : Reaches body items i) (hb : body i = some b)
      (hj : j ∈ S.refs b) : Reaches body items j

variable {S} {body body' : ι → Option β} {stored stored' : ι → α} {r : ι → Nat} {depth : Nat}
  {items : List ι}

theorem Ranked.of_subset (h : Ranked S body' r depth)
    (hs : ∀ i b, body i = some b → body' i = some b) : Ranked S body r depth where
  lt i b hb := h.lt i b (hs i b hb)
  lt_depth := h.lt_depth

variable {i : ι}

theorem valueAt_of_none (h : body i = none) : valueAt S body stored depth i = stored i := by
  cases depth with
  | zero => rfl
  | succ => rw [valueAt, h, Option.elim_none]

theorem valueAt_eq_valueAt (hl : ∀ i b, body i = some b → ∀ j ∈ S.refs b, r j < r i)
    {n m : Nat} (hn : r i < n) (hm : r i < m) :
    valueAt S body stored n i = valueAt S body stored m i := by
  induction n generalizing i m with
  | zero => omega
  | succ n ih =>
    obtain ⟨m, rfl⟩ := Nat.exists_eq_add_one_of_ne_zero (Nat.ne_zero_of_lt hm)
    rw [valueAt, valueAt]
    cases hb : body i with
    | none => rfl
    | some b =>
      refine S.eval_congr b _ _ fun j hj => ?_
      have hr := hl i b hb j hj
      exact ih (by omega) (by omega)

/-- To a depth above all ranks, an item has the value of its body. -/
theorem valueAt_of_body (h : Ranked S body r depth) {b : β} (hb : body i = some b) :
    valueAt S body stored depth i = S.eval b (valueAt S body stored depth) := by
  obtain ⟨n, rfl⟩ := Nat.exists_eq_add_one_of_ne_zero (Nat.ne_zero_of_lt (h.lt_depth i))
  rw [valueAt, hb, Option.elim_some]
  refine S.eval_congr b _ _ fun j hj => ?_
  have hr := h.lt i b hb j hj
  have hi := h.lt_depth i
  exact valueAt_eq_valueAt h.lt (by omega) (by omega)

/-- Two valuations agree on what is reached if they do where no body is found. -/
theorem valueAt_eq_of_reaches (h : Ranked S body' r depth)
    (hsu : ∀ i b, body i = some b → body' i = some b)
    (hs : ∀ i, Reaches S body items i → body i = none →
      stored i = valueAt S body' stored' depth i) (hi : Reaches S body items i) :
    valueAt S body stored depth i = valueAt S body' stored' depth i := by
  -- by induction on the rank, which is lower where a body refers to
  induction hr : r i using Nat.strongRecOn generalizing i with
  | _ n ih =>
    subst hr
    cases hb : body i with
    | none =>
      rw [valueAt_of_none hb]
      exact hs i hi hb
    | some b =>
      rw [valueAt_of_body (h.of_subset hsu) hb, valueAt_of_body h (hsu i b hb)]
      refine S.eval_congr b _ _ fun j hj => ?_
      exact ih (r j) (h.lt i b (hsu i b hb) j hj) (hi.through hb hj) rfl

theorem eval_eq_of_reaches (h : Ranked S body' r depth)
    (hsu : ∀ i b, body i = some b → body' i = some b) {b : β}
    (hs : ∀ i, Reaches S body (S.refs b) i → body i = none →
      stored i = valueAt S body' stored' depth i) :
    S.eval b (valueAt S body stored depth) = S.eval b (valueAt S body' stored' depth) :=
  S.eval_congr b _ _ fun _ hi => valueAt_eq_of_reaches h hsu hs (.here hi)

end Derived
