import Mathlib

/-!
# Rounding to doubles

Integer code that goes through floating point is right as long as no rounding gets in its way. All
that is used of the rounding is that it is monotone and keeps the numbers that are doubles.
-/

/-- **A rounding to doubles**: it keeps the order, and the numbers of 53 binary digits. -/
structure Rounding where
  round : ℚ → ℚ
  mono : Monotone round
  keeps : ∀ (n : ℤ) (d : ℕ), |n| ≤ 2 ^ 53 → d ≤ 1000 → round (n / 2 ^ d) = n / 2 ^ d

namespace Rounding

variable (D : Rounding)

theorem round_int {n : ℤ} (h : |n| ≤ 2 ^ 53) : D.round n = n := by
  simpa using D.keeps n 0 h (Nat.zero_le _)

/-- The power of two at or after a positive number. -/
theorem exists_pow_ge {b : ℤ} (hb : 0 < b) : ∃ d : ℕ, b ≤ 2 ^ d ∧ 2 ^ d < 2 * b := by
  lift b to ℕ using hb.le
  have hb' : b ≠ 0 := by omega
  refine ⟨Nat.clog 2 b, by exact_mod_cast Nat.le_pow_clog (by norm_num) b, ?_⟩
  rcases Nat.lt_or_ge 1 b with h | h
  · have hp := Nat.pow_pred_clog_lt_self (b := 2) (by norm_num) h
    have hc := Nat.clog_pos (b := 2) (by norm_num) h
    rw [← Nat.succ_pred_eq_of_pos hc, pow_succ]
    zify at hp
    linarith
  · obtain rfl : b = 1 := by omega
    simp

/-- The floor of a quotient survives its rounding: a double lies between it and the next whole
number. -/
theorem floor_div {a b : ℤ} (ha : 0 ≤ a) (hb : 0 < b) (h : a + b ≤ 2 ^ 52) :
    ⌊D.round (a / b)⌋ = a / b := by
  have hq : (0 : ℚ) < b := by exact_mod_cast hb
  obtain ⟨d, hbd, hdb⟩ := exists_pow_ge hb
  have hd : (0 : ℚ) < 2 ^ d := by positivity
  have hn : 0 ≤ a / b := Int.ediv_nonneg ha hb.le
  have hle := Int.ediv_mul_le a hb.ne'
  have hlt := Int.lt_ediv_add_one_mul_self a hb
  have hna : a / b ≤ a := Int.ediv_le_self _ ha
  generalize a / b = n at hn hle hlt hna ⊢
  rw [Int.floor_eq_iff]
  constructor
  · rw [← D.round_int (n := n) (by rw [abs_of_nonneg hn]; linarith)]
    refine D.mono ((le_div_iff₀ hq).2 ?_)
    exact_mod_cast hle
  have h1 : 1 ≤ (n + 1) * 2 ^ d := by nlinarith
  have hr := D.keeps ((n + 1) * 2 ^ d - 1) d ?_ ?_
  · calc D.round (a / b) ≤ D.round (((n + 1) * 2 ^ d - 1 : ℤ) / 2 ^ d) := by
          refine D.mono ((div_le_div_iff₀ hq hd).2 ?_)
          have : a * 2 ^ d ≤ ((n + 1) * 2 ^ d - 1) * b := by nlinarith
          exact_mod_cast this
      _ = ((n + 1) * 2 ^ d - 1 : ℤ) / 2 ^ d := hr
      _ < n + 1 := by
          rw [div_lt_iff₀ hd]
          push_cast
          linarith
  · rw [abs_of_nonneg (by linarith)]
    nlinarith
  · by_contra hd'
    have : (2 : ℤ) ^ 53 ≤ 2 ^ d := pow_le_pow_right₀ (by norm_num) (by omega)
    linarith

end Rounding
