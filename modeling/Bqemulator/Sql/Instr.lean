import Mathlib

/-!
# Occurrences of a string

The four-argument `INSTR`: the search begins at a start position, which is counted from the end if
it is negative, and runs forward in either case, one match at a time.
-/

namespace Bqemulator

open List

/-- `t` stands in `s` at position `i`. -/
def occursAt (s t : List Char) (i : ℕ) : Bool := t.isPrefixOf (s.drop i)

/-- Python's `haystack.find(needle, index)`: the first match at or after `index`. -/
def findFrom (s t : List Char) (i : ℕ) : Option ℕ :=
  (range' i (s.length + 1 - i)).find? (occursAt s t)

/-- `_find_nth_occurrence`, with the number of matches still to find. -/
def findNthOccurrence (s t : List Char) (index : ℕ) : ℕ → ℕ
  | 0 => 0
  | k + 1 =>
    -- `index <= len(haystack) - len(needle)`
    if index + t.length ≤ s.length then
      match findFrom s t index with
      | none => 0
      | some position => if k = 0 then position + 1 else findNthOccurrence s t (position + 1) k
    else 0

/-- `_resolve_instr_start_index`. -/
def resolveInstrStartIndex (start : ℤ) (n : ℕ) : Option ℕ :=
  if 0 < start then some (start - 1).toNat
  else if 0 ≤ n + start then some (n + start).toNat else none

/-- `bqemu_instr_occurrence`: `none` is SQL's NULL. -/
def instrOccurrence (haystack needle : Option (List Char)) (start occurrence : Option ℤ) :
    Option ℕ := do
  let (s, t, p, k) := (← haystack, ← needle, ← start, ← occurrence)
  if t = [] then return 0
  if k < 1 ∨ p = 0 then none
  match resolveInstrStartIndex p s.length with
  | none => return 0
  | some i => return findNthOccurrence s t i k.toNat

/-- The positions at or after `i` at which `t` stands in `s`, in order. -/
def matchesFrom (s t : List Char) (i : ℕ) : List ℕ :=
  (range' i (s.length + 1 - i)).filter (occursAt s t)

/-- The positions at or before `i`, backwards. -/
def matchesBackFrom (s t : List Char) (i : ℕ) : List ℕ :=
  ((range (i + 1)).filter (occursAt s t)).reverse

/-- A position counted from `1`, and `0` if there is none. -/
def oneBased : Option ℕ → ℕ
  | none => 0
  | some i => i + 1

variable {s t : List Char} {i j : ℕ}

theorem matchesFrom_of_findFrom_eq_none (h : findFrom s t i = none) : matchesFrom s t i = [] :=
  filter_eq_nil_iff.2 (find?_eq_none.1 h)

theorem matchesFrom_of_findFrom_eq_some (h : findFrom s t i = some j) :
    matchesFrom s t i = j :: matchesFrom s t (j + 1) := by
  obtain ⟨hj, as, bs, he, ha⟩ := find?_eq_some_iff_append.1 h
  -- what stands behind the first match is the range that starts behind it
  obtain ⟨k, hk, rfl, hb⟩ := range'_eq_append_iff.1 he
  obtain ⟨rfl, hn, rfl⟩ := range'_eq_cons_iff.1 hb.symm
  have hl : s.length + 1 - i - k - 1 = s.length + 1 - (i + k * 1 + 1) := by omega
  rw [matchesFrom, he, filter_append, filter_eq_nil_iff.2 (by simpa using ha),
    nil_append, filter_cons_of_pos hj, hl]
  rfl

/-- No match begins so late that the rest of the text is shorter than the needle. -/
theorem matchesFrom_eq_nil (h : s.length < i + t.length) : matchesFrom s t i = [] := by
  refine filter_eq_nil_iff.2 fun j hj ho => ?_
  have hp : t <+: s.drop j := List.isPrefixOf_iff_prefix.1 ho
  have hl := hp.length_le
  rw [length_drop] at hl
  rw [mem_range'_1] at hj
  omega

/-- The loop returns the `k`-th match at or after its index. -/
theorem findNthOccurrence_eq (k i : ℕ) :
    findNthOccurrence s t i (k + 1) = oneBased (matchesFrom s t i)[k]? := by
  induction k using Nat.strong_induction_on generalizing i with
  | _ k ih =>
    rw [findNthOccurrence]
    split
    · cases hf : findFrom s t i with
      | none => rw [matchesFrom_of_findFrom_eq_none hf]; rfl
      | some j =>
        rw [matchesFrom_of_findFrom_eq_some hf]
        cases k with
        | zero => rfl
        | succ k => simp [ih k]
    · rw [matchesFrom_eq_nil (by omega)]
      rfl

theorem resolveInstrStartIndex_eq (p : ℤ) (n : ℕ) :
    resolveInstrStartIndex p n =
      if p < -n then none else some (if 0 < p then p - 1 else n + p).toNat := by
  unfold resolveInstrStartIndex
  split_ifs <;> first | rfl | omega

/-- **`INSTR`** with a start other than `0` is the position of the match with the number `k + 1` at
or after the start, and `0` if there are fewer. A negative start is counted from the end. -/
theorem instrOccurrence_eq (p : ℤ) (k : ℕ) (ht : t ≠ []) (hp : p ≠ 0) :
    instrOccurrence (some s) (some t) (some p) (some (k + 1)) = some
      (if p < -s.length then 0
      else oneBased (matchesFrom s t (if 0 < p then p - 1 else s.length + p).toNat)[k]?) := by
  have hk : ¬ ((k + 1 : ℤ) < 1 ∨ p = 0) := by omega
  have hn : (k + 1 : ℤ).toNat = k + 1 := by omega
  simp only [instrOccurrence, Option.bind_eq_bind, Option.bind_some, if_neg ht, if_neg hk, hn]
  rw [resolveInstrStartIndex_eq]
  by_cases hs : p < -s.length
  · simp only [if_pos hs]
    rfl
  · simp only [if_neg hs]
    exact congrArg some (findNthOccurrence_eq k _)

theorem instrOccurrence_eq_overlapping :
    instrOccurrence (some ['a', 'a', 'a']) (some ['a', 'a']) (some 1) (some 2) = some 2 :=
  (instrOccurrence_eq 1 1 (by decide) (by decide)).trans (by decide)

/-- From the middle of the text the last character is found. A search to the front finds the
first. -/
theorem instrOccurrence_ahead :
    instrOccurrence (some ['l', 'o', 'l']) (some ['l']) (some (-2)) (some 1) ≠
      some (oneBased (matchesBackFrom ['l', 'o', 'l'] ['l'] 1)[0]?) := by
  decide

end Bqemulator
