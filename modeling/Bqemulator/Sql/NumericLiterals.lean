import Mathlib

/-!
# `BIGNUMERIC` literals

A `BIGNUMERIC` literal becomes a cast to the widest decimal that holds its digits, or a call of a
function with ten digits after the point, which cannot hold an integer of 29 to 38 digits.
-/

namespace Bqemulator

/-- A decimal literal: its sign, the digits before the point, and those after it if it has one. -/
structure DecimalLiteral where
  negative : Bool
  integer : List (Fin 10)
  fractional : Option (List (Fin 10))

def digitsValue (ds : List (Fin 10)) : ℕ := Nat.ofDigits 10 (ds.reverse.map Fin.val)

/-- An expression, with the literal in its text. -/
inductive BignumericExpr where
  | cast (literal : DecimalLiteral) (scale : ℕ)
  | toBignumeric (literal : DecimalLiteral)

namespace DecimalLiteral

variable (l : DecimalLiteral)

def decimals : List (Fin 10) := l.fractional.getD []

def significant : ℕ := (l.integer.dropWhile (· = 0)).length

def splitDecimalDigits : ℕ × ℕ :=
  match l.fractional with
  | none => (if l.significant = 0 then 1 else l.significant, 0)
  | some digits => (l.significant, digits.length)

def truncateFractional (maxScale : ℕ) : DecimalLiteral :=
  match l.fractional with
  | none => l
  | some digits =>
    { l with fractional := if maxScale = 0 then none else some (digits.take maxScale) }

/-- The expression of a literal. -/
def rewriteBignumeric : BignumericExpr :=
  let (integerDigits, fractionalDigits) := l.splitDecimalDigits
  let totalDigits := integerDigits + fractionalDigits
  if 10 ≤ fractionalDigits ∧ totalDigits ≤ 38 then .cast l fractionalDigits
  else if 38 < totalDigits ∧ integerDigits ≤ 38 then
    .cast (l.truncateFractional (38 - integerDigits)) (38 - integerDigits)
  else .toBignumeric l

/-- The digits as one integer, with the sign. -/
def unscaled : ℤ :=
  (if l.negative then -1 else 1) * digitsValue (l.integer ++ l.decimals)

/-- The number that a literal stands for. -/
def value : ℚ := l.unscaled / 10 ^ l.decimals.length

end DecimalLiteral

/-- **The database**: how it rounds to an integer. -/
structure DecimalEngine where
  round : ℚ → ℤ
  round_int : ∀ n : ℤ, round n = n

namespace DecimalEngine

variable (E : DecimalEngine)

/-- A cast to `DECIMAL(38, scale)`. -/
def castDecimal (scale : ℕ) (v : ℚ) : Option ℚ :=
  let n := E.round (v * 10 ^ scale)
  if |n| < 10 ^ 38 then some (n / 10 ^ scale) else none

/-- What an expression evaluates to. -/
def eval : BignumericExpr → Option ℚ
  | .cast l scale => E.castDecimal scale l.value
  | .toBignumeric l => E.castDecimal 10 l.value

end DecimalEngine

/-- A value without the digits after a scale. -/
def truncateTo (scale : ℕ) (v : ℚ) : ℚ :=
  (if v < 0 then ⌈v * 10 ^ scale⌉ else ⌊v * 10 ^ scale⌋) / 10 ^ scale

theorem digitsValue_append (a b : List (Fin 10)) :
    digitsValue (a ++ b) = digitsValue a * 10 ^ b.length + digitsValue b := by
  simp [digitsValue, Nat.ofDigits_append, add_comm, mul_comm]

theorem digitsValue_lt (ds : List (Fin 10)) : digitsValue ds < 10 ^ ds.length := by
  simpa [digitsValue] using
    Nat.ofDigits_lt_base_pow_length (l := ds.reverse.map Fin.val) (by simp : 1 < 10) (by simp)

theorem digitsValue_dropWhile (ds : List (Fin 10)) :
    digitsValue (ds.dropWhile (· = 0)) = digitsValue ds := by
  induction ds with
  | nil => rfl
  | cons d ds ih =>
    by_cases hd : d = 0
    · rw [List.dropWhile_cons_of_pos (by simpa using hd), ih, hd, ← List.singleton_append,
        digitsValue_append]
      simp [digitsValue]
    · simp [hd]

section Rounding

variable {E : DecimalEngine} {n : ℤ} {k scale : ℕ}

theorem scaled_eq (hk : k ≤ scale) :
    (n / 10 ^ k : ℚ) = (n * 10 ^ (scale - k) : ℤ) / 10 ^ scale := by
  obtain ⟨m, rfl⟩ := Nat.exists_eq_add_of_le hk
  push_cast
  rw [Nat.add_sub_cancel_left, pow_add]
  field_simp

/-- A cast keeps a value of no more digits after the point, if it has room for it. -/
theorem castDecimal_eq (hk : k ≤ scale) : E.castDecimal scale (n / 10 ^ k) =
    if |n| * 10 ^ (scale - k) < 10 ^ 38 then some (n / 10 ^ k : ℚ) else none := by
  rw [scaled_eq hk, DecimalEngine.castDecimal, div_mul_cancel₀ _ (by positivity), E.round_int,
    abs_mul, abs_pow]
  rfl

theorem truncateTo_eq (hk : k ≤ scale) : truncateTo scale (n / 10 ^ k) = n / 10 ^ k := by
  rw [scaled_eq hk, truncateTo, div_mul_cancel₀ _ (by positivity), Int.ceil_intCast,
    Int.floor_intCast, ite_self]

end Rounding

namespace DecimalLiteral

variable {l : DecimalLiteral}

theorem abs_unscaled : |l.unscaled| = digitsValue (l.integer ++ l.decimals) := by
  unfold unscaled
  cases l.negative <;> simp

theorem digitsValue_lt_pow :
    digitsValue (l.integer ++ l.decimals) < 10 ^ (l.significant + l.decimals.length) := by
  rw [digitsValue_append, ← digitsValue_dropWhile, pow_add]
  have hi := digitsValue_lt (l.integer.dropWhile (· = 0))
  have hd := digitsValue_lt l.decimals
  calc _ < (digitsValue (l.integer.dropWhile (· = 0)) + 1) * 10 ^ l.decimals.length := by linarith
    _ ≤ _ := Nat.mul_le_mul_right _ hi

theorem pow_le_digitsValue {m : ℕ} (h : m < l.significant) :
    10 ^ (m + l.decimals.length) ≤ digitsValue (l.integer ++ l.decimals) := by
  rw [digitsValue_append, ← digitsValue_dropWhile, pow_add]
  unfold significant at h
  cases hdi : l.integer.dropWhile (· = 0) with
  | nil => simp [hdi] at h
  | cons d ds =>
    rw [hdi, List.length_cons] at h
    have hd : d ≠ 0 := by
      simpa [hdi] using List.head_dropWhile_not (p := (· = 0)) (l := l.integer)
    have ho : 1 ≤ (d : ℕ) := Nat.one_le_iff_ne_zero.2 (Fin.val_ne_zero_iff.2 hd)
    have hl : 10 ^ m ≤ digitsValue (d :: ds) :=
      calc 10 ^ m ≤ 10 ^ ds.length := Nat.pow_le_pow_right (by simp) (Nat.le_of_lt_succ h)
        _ ≤ d * 10 ^ ds.length := Nat.le_mul_of_pos_left _ ho
        _ ≤ _ := by simp [digitsValue, Nat.ofDigits_append, mul_comm]
    exact (Nat.mul_le_mul_right _ hl).trans (Nat.le_add_right _ _)

theorem truncateTo_neg (k : ℕ) (v : ℚ) : truncateTo k (-v) = -truncateTo k v := by
  unfold truncateTo
  rcases lt_trichotomy v 0 with hv | rfl | hv
  · rw [if_neg (by linarith), if_pos hv, neg_mul, Int.floor_neg]
    push_cast
    ring
  · simp
  · rw [if_pos (by linarith), if_neg (by linarith), neg_mul, Int.ceil_neg]
    push_cast
    ring

theorem decimals_truncateFractional (k : ℕ) :
    (l.truncateFractional k).decimals = l.decimals.take k := by
  obtain ⟨n, i, - | digits⟩ := l
  · exact List.take_nil.symm
  · rcases k with - | k <;> rfl

theorem significant_truncateFractional (k : ℕ) :
    (l.truncateFractional k).significant = l.significant := by
  obtain ⟨n, i, - | digits⟩ := l <;> rfl

/-- The digits that are cut off are those after the scale. -/
theorem truncateTo_value {k : ℕ} (h : k < l.decimals.length) :
    truncateTo k l.value = (l.truncateFractional k).value := by
  obtain ⟨n, i, - | digits⟩ := l
  · exact absurd h (Nat.not_lt_zero k)
  replace h : k ≤ digits.length := h.le
  have hp : truncateTo k (digitsValue (i ++ digits) / 10 ^ digits.length) =
      digitsValue (i ++ digits.take k) / 10 ^ k := by
    have hs : (digitsValue (i ++ digits) / 10 ^ digits.length * 10 ^ k : ℚ) =
        digitsValue (i ++ digits.take k) +
          digitsValue (digits.drop k) / 10 ^ (digits.drop k).length := by
      have hl : digits.length = k + (digits.drop k).length := by simp [h]
      conv_lhs => rw [← List.take_append_drop k digits, ← List.append_assoc, digitsValue_append,
        List.take_append_drop, hl]
      push_cast
      rw [pow_add]
      field_simp
    have hr : (digitsValue (digits.drop k) / 10 ^ (digits.drop k).length : ℚ) < 1 := by
      rw [div_lt_one (by positivity)]
      exact_mod_cast digitsValue_lt (digits.drop k)
    have hf : ⌊(digitsValue (i ++ digits) / 10 ^ digits.length * 10 ^ k : ℚ)⌋ =
        digitsValue (i ++ digits.take k) := by
      rw [Int.floor_eq_iff, hs]
      exact ⟨le_add_of_nonneg_right (by positivity), add_lt_add_right hr _⟩
    rw [truncateTo, if_neg (not_lt.2 (by positivity)), hf, Int.cast_natCast]
  have hl : (digits.take k).length = k := by simpa using h
  simp only [value, unscaled, decimals_truncateFractional]
  simp only [decimals, Option.getD_some, hl]
  cases n with
  | false => simpa [decimals, truncateFractional] using hp
  | true =>
    have hn := congrArg Neg.neg hp
    rw [← truncateTo_neg] at hn
    simpa [decimals, truncateFractional, neg_div] using hn

theorem splitDecimalDigits_eq : ∃ n, l.splitDecimalDigits = (n, l.decimals.length) ∧
    (n = l.significant ∨ l.significant = 0 ∧ n = 1 ∧ l.decimals.length = 0) := by
  obtain ⟨negative, i, - | digits⟩ := l
  · by_cases h : significant ⟨negative, i, none⟩ = 0
    · exact ⟨1, by simp [splitDecimalDigits, h, decimals], .inr ⟨h, rfl, rfl⟩⟩
    · exact ⟨_, by simp [splitDecimalDigits, h, decimals], .inl rfl⟩
  · exact ⟨_, rfl, .inl rfl⟩

theorem castDecimal_value {E : DecimalEngine} {s : ℕ} (hs : l.decimals.length ≤ s)
    (hr : l.significant + s ≤ 38) : E.castDecimal s l.value = some l.value := by
  rw [value, castDecimal_eq hs, if_pos]
  rw [abs_unscaled]
  have hl := l.digitsValue_lt_pow
  calc (digitsValue (l.integer ++ l.decimals) * 10 ^ (s - l.decimals.length) : ℤ)
      < 10 ^ (l.significant + l.decimals.length) * 10 ^ (s - l.decimals.length) := by
        gcongr
        exact_mod_cast hl
    _ ≤ 10 ^ 38 := by
      rw [← pow_add]
      exact pow_le_pow_right₀ (by norm_num) (by omega)

variable (E : DecimalEngine) (l) in
/-- A literal keeps as many digits after the point as there is room for. -/
def Represented : Prop :=
  l.significant ≤ 38 →
    E.eval l.rewriteBignumeric = some (truncateTo (38 - l.significant) l.value)

variable {E : DecimalEngine}

/-- **A literal is represented** unless its 29 digits or more before the point leave it to the
function. -/
theorem represented_iff : l.Represented E ↔ (l.significant ≤ 38 → l.significant ≤ 28 ∨
    10 ≤ l.decimals.length ∨ 38 < l.significant + l.decimals.length) := by
  refine imp_congr_right fun hsi => ?_
  obtain ⟨i, hs, hi⟩ := l.splitDecimalDigits_eq
  simp only [rewriteBignumeric, hs]
  split_ifs with hf hc
  · -- all digits fit, ten or more of them after the point
    have hk : l.decimals.length ≤ 38 - l.significant := by omega
    rw [DecimalEngine.eval, castDecimal_value le_rfl (by omega), value, truncateTo_eq hk]
    exact iff_of_true rfl (.inr (.inl hf.1))
  · -- the digits after the point are cut to those that fit
    obtain rfl : i = l.significant := by omega
    rw [DecimalEngine.eval, truncateTo_value (by omega), castDecimal_value]
    · exact iff_of_true rfl (.inr (.inr hc.1))
    · rw [decimals_truncateFractional]
      exact List.length_take_le _ _
    · rw [significant_truncateFractional]
      omega
  · -- the function keeps ten digits after the point, which leaves 28 before it
    have hk : l.decimals.length ≤ 38 - l.significant := by omega
    rw [DecimalEngine.eval, value, truncateTo_eq hk, ← value]
    by_cases hr : l.significant ≤ 28
    · rw [castDecimal_value (by omega) (by omega)]
      exact iff_of_true rfl (.inl hr)
    refine iff_of_false ?_ (by omega)
    rw [value, castDecimal_eq (by omega), if_neg]
    · exact nofun
    have hl := l.pow_le_digitsValue (m := 28) (by omega)
    rw [not_lt, abs_unscaled]
    calc (10 ^ 38 : ℤ) = 10 ^ (28 + l.decimals.length) * 10 ^ (10 - l.decimals.length) := by
          rw [← pow_add]
          congr 1
          omega
      _ ≤ _ := by
        gcongr
        exact_mod_cast hl

/-- Twenty-nine ones fit into a decimal of scale 0, but not into one of scale 10. -/
theorem not_represented_ones :
    ¬ Represented ⟨false, .replicate 29 1, none⟩ ⟨Int.floor, Int.floor_intCast⟩ := by
  intro h
  have he := h (by decide)
  revert he
  decide +kernel

end DecimalLiteral

end Bqemulator
