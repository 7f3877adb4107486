/-
# Comparing a decimal with a whole number

The comparisons of a decimal look at its digits and its power of ten, and form no power of ten that is
much longer than the digits at hand. They are comparisons of its value all the same: a decimal is below
zero if its value is (`Decimal.belowZero_iff`), and exceeds a bound if its absolute value does
(`Decimal.exceeds_iff`). So the range of amounts is one of values (`Decimal.inRange_iff`).

Key theorems: `Text.pow_le_of_digitCount`, `Decimal.abs_value_lt`, `Decimal.le_abs_value`,
`Decimal.belowZero_iff`, `Decimal.exceeds_iff`, `Decimal.inRange_iff`.
-/
import TokenLedger.Proofs.Schema.Accepted

namespace TokenLedger

/-- A natural other than zero is at least the power of ten of its leading digit. -/
theorem Text.pow_le_of_digitCount {n : ℕ} (h : n ≠ 0) : 10 ^ (digitCount n - 1) ≤ n := by
  by_cases hone : digitCount n = 1
  · rw [hone]
    exact Nat.one_le_iff_ne_zero.mpr h
  · have hpos := digitCount_pos n
    have hnot : ¬ digitCount n ≤ digitCount n - 1 := by omega
    rw [digitCount_le_iff (by omega)] at hnot
    exact Nat.le_of_not_lt hnot

namespace Decimal

variable {d : Decimal} {bound : ℕ}

/-! ### The leading digit -/

/-- The absolute value is less than the power of ten behind the leading digit. -/
theorem abs_value_lt (d : Decimal) : |d.value| < 10 ^ (d.leading + 1) := by
  have hc : (d.coefficient : ℚ) < 10 ^ Text.digitCount d.coefficient := by
    exact_mod_cast Text.lt_pow_digitCount d.coefficient
  have hexponent : (0 : ℚ) < 10 ^ d.exponent := zpow_pos (by norm_num) _
  have hleading : d.leading + 1 = (Text.digitCount d.coefficient : ℤ) + d.exponent := by
    unfold leading
    ring
  calc |d.value| = d.coefficient * 10 ^ d.exponent := abs_value d
    _ < 10 ^ Text.digitCount d.coefficient * 10 ^ d.exponent :=
      mul_lt_mul_of_pos_right hc hexponent
    _ = 10 ^ (d.leading + 1) := by
      rw [hleading, zpow_add₀ (by norm_num), zpow_natCast]

/-- The absolute value is at least the power of ten of the leading digit. -/
theorem le_abs_value (h : d.coefficient ≠ 0) : 10 ^ d.leading ≤ |d.value| := by
  have hc : (10 : ℚ) ^ (Text.digitCount d.coefficient - 1) ≤ d.coefficient := by
    exact_mod_cast Text.pow_le_of_digitCount h
  have hexponent : (0 : ℚ) < 10 ^ d.exponent := zpow_pos (by norm_num) _
  have hpos := Text.digitCount_pos d.coefficient
  have hleading : d.leading = ((Text.digitCount d.coefficient - 1 : ℕ) : ℤ) + d.exponent := by
    unfold leading
    omega
  calc (10 : ℚ) ^ d.leading = 10 ^ (Text.digitCount d.coefficient - 1) * 10 ^ d.exponent := by
        rw [hleading, zpow_add₀ (by norm_num), zpow_natCast]
    _ ≤ d.coefficient * 10 ^ d.exponent := mul_le_mul_of_nonneg_right hc hexponent.le
    _ = |d.value| := (abs_value d).symm

/-- A leading digit behind the point is that of a value below one. -/
theorem abs_value_lt_one (h : d.leading < 0) : |d.value| < 1 := by
  have hpow : (10 : ℚ) ^ (d.leading + 1) ≤ 10 ^ (0 : ℤ) :=
    zpow_le_zpow_right₀ (by norm_num) (by omega)
  rw [zpow_zero] at hpow
  exact (abs_value_lt d).trans_le hpow

/-- A leading digit before all digits of a natural number is that of a value above it. -/
theorem lt_abs_value_of_digitCount_le (hc : d.coefficient ≠ 0)
    (h : (Text.digitCount bound : ℤ) ≤ d.leading) : (bound : ℚ) < |d.value| := by
  have hbound : (bound : ℚ) < 10 ^ Text.digitCount bound := by
    exact_mod_cast Text.lt_pow_digitCount bound
  calc (bound : ℚ) < 10 ^ (Text.digitCount bound : ℤ) := by rwa [zpow_natCast]
    _ ≤ 10 ^ d.leading := zpow_le_zpow_right₀ (by norm_num) h
    _ ≤ |d.value| := le_abs_value hc

/-! ### Comparisons -/

/-- A decimal is below zero if its value is; a zero is not, whatever its sign. -/
theorem belowZero_iff (d : Decimal) : d.belowZero = true ↔ d.value < 0 := by
  rw [belowZero, Bool.and_eq_true, bne_iff_ne]
  by_cases h : d.coefficient = 0
  · have hzero : d.value = 0 := value_eq_zero_iff.mpr h
    rw [hzero]
    simp [h]
  · rw [← negative_iff_value_neg h]
    exact and_iff_left h

theorem abs_value_of_nonneg_exponent (h : 0 ≤ d.exponent) :
    |d.value| = (d.coefficient * 10 ^ d.exponent.toNat : ℕ) := by
  rw [abs_value]
  push_cast
  rw [← zpow_natCast, Int.toNat_of_nonneg h]

theorem abs_value_mul_of_neg_exponent (h : d.exponent < 0) :
    |d.value| * 10 ^ (-d.exponent).toNat = d.coefficient := by
  have hexponent : ((-d.exponent).toNat : ℤ) = -d.exponent := Int.toNat_of_nonneg (by omega)
  rw [abs_value, ← zpow_natCast, hexponent, mul_assoc, ← zpow_add₀ (by norm_num), add_neg_cancel,
    zpow_zero, mul_one]

/-- **A decimal exceeds a bound if its absolute value does.** -/
theorem exceeds_iff (d : Decimal) (bound : ℕ) : d.exceeds bound = true ↔ (bound : ℚ) < |d.value| := by
  unfold exceeds
  by_cases hc : d.coefficient = 0
  · have hzero : d.value = 0 := value_eq_zero_iff.mpr hc
    rw [if_pos hc, hzero, abs_zero]
    simp
  rw [if_neg hc]
  by_cases hlong : (Text.digitCount bound : ℤ) ≤ d.leading
  · rw [if_pos hlong]
    exact iff_of_true rfl (lt_abs_value_of_digitCount_le hc hlong)
  rw [if_neg hlong]
  by_cases hexponent : 0 ≤ d.exponent
  · rw [if_pos hexponent, decide_eq_true_eq, abs_value_of_nonneg_exponent hexponent, Nat.cast_lt,
      Nat.pow_eq]
  rw [if_neg hexponent]
  by_cases hleading : d.leading < 0
  · -- the value lies between zero and one
    have hone : |d.value| < 1 := abs_value_lt_one hleading
    have hpos : 0 < |d.value| := abs_pos.mpr fun h => hc (value_eq_zero_iff.mp h)
    rw [if_pos hleading, decide_eq_true_eq]
    constructor
    · rintro rfl
      exact_mod_cast hpos
    · intro hlt
      have hsmall : (bound : ℚ) < (1 : ℕ) := by
        push_cast
        exact hlt.trans hone
      exact Nat.lt_one_iff.mp (Nat.cast_lt.mp hsmall)
  · have hscale : (0 : ℚ) < 10 ^ (-d.exponent).toNat := by positivity
    rw [if_neg hleading, decide_eq_true_eq, ← mul_lt_mul_iff_left₀ hscale,
      abs_value_mul_of_neg_exponent (lt_of_not_ge hexponent), Nat.pow_eq]
    norm_cast

/-- **The range of amounts is one of values.** -/
theorem inRange_iff (d : Decimal) : d.InRange ↔ 0 ≤ d.value ∧ d.value ≤ 2 ^ 64 - 1 := by
  have hmax : ((maxAmount : ℕ) : ℚ) = 2 ^ 64 - 1 := by
    have hnat : maxAmount = 2 ^ 64 - 1 := rfl
    rw [hnat]
    norm_num
  have hbelow : d.belowZero = false ↔ 0 ≤ d.value := by
    rw [← Bool.not_eq_true, belowZero_iff, not_lt]
  have hexceeds : d.exceeds maxAmount = false ↔ |d.value| ≤ 2 ^ 64 - 1 := by
    rw [← Bool.not_eq_true, exceeds_iff, not_lt, hmax]
  rw [InRange, hbelow, hexceeds]
  refine and_congr_right fun hnonneg => ?_
  rw [abs_of_nonneg hnonneg]

end Decimal
end TokenLedger
