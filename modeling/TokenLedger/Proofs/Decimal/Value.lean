/-
# The value of a decimal

The rational number that a decimal stands for. Decimals of one value and sign have one reduced form
(`reduced_eq_reduced_iff`): `reduced` keeps the value, and a reduced coefficient has no zero at its
end, so two of one value have the same power of ten. The sign adds to the value at zero only.

Key definitions: `Decimal.value`, `Decimal.IsReduced`.
Key theorems: `Decimal.value_reduced`, `Decimal.isReduced_reduced`, `Decimal.IsReduced.ext`,
`Decimal.reduced_eq_reduced_iff`.
-/
import Mathlib
import TokenLedger.Number.Decimal

namespace TokenLedger
namespace Decimal

/-- The number that a decimal stands for. -/
def value (d : Decimal) : ℚ :=
  (if d.negative then -(d.coefficient : ℚ) else d.coefficient) * 10 ^ d.exponent

/-- The coefficient has no zero at its end, and a zero has no power of ten. -/
def IsReduced (d : Decimal) : Prop :=
  if d.coefficient = 0 then d.exponent = 0 else d.coefficient % 10 ≠ 0

theorem abs_value (d : Decimal) : |d.value| = d.coefficient * 10 ^ d.exponent := by
  have hp : (0 : ℚ) < 10 ^ d.exponent := zpow_pos (by norm_num) _
  unfold value
  rw [abs_mul, abs_of_pos hp]
  split <;> simp

theorem value_eq_zero_iff {d : Decimal} : d.value = 0 ↔ d.coefficient = 0 := by
  have hp : (10 : ℚ) ^ d.exponent ≠ 0 := zpow_ne_zero _ (by norm_num)
  rw [← abs_eq_zero, abs_value, mul_eq_zero, or_iff_left hp, Nat.cast_eq_zero]

/-- The value of anything but zero shows the sign. -/
theorem negative_iff_value_neg {d : Decimal} (h : d.coefficient ≠ 0) :
    d.negative = true ↔ d.value < 0 := by
  have hp : (0 : ℚ) < 10 ^ d.exponent := zpow_pos (by norm_num) _
  have hc : (0 : ℚ) < d.coefficient := by exact_mod_cast Nat.pos_of_ne_zero h
  cases hn : d.negative
  · simp only [value, hn, Bool.false_eq_true, ↓reduceIte, false_iff, not_lt]
    positivity
  · simp only [value, hn, ↓reduceIte, true_iff]
    exact mul_neg_of_neg_of_pos (neg_neg_of_pos hc) hp

/-- Two decimals of one value have one sign, unless they are zero. -/
theorem negative_eq_of_value_eq {d e : Decimal} (h : d.value = e.value) (h0 : d.value ≠ 0) :
    d.negative = e.negative := by
  have hd : d.coefficient ≠ 0 := fun hc => h0 (value_eq_zero_iff.mpr hc)
  have he : e.coefficient ≠ 0 := fun hc => h0 (h.trans (value_eq_zero_iff.mpr hc))
  rw [Bool.eq_iff_iff, negative_iff_value_neg hd, negative_iff_value_neg he, h]

/-! ### The reduced form -/

/-- A zero at the end of the coefficient may move to the power of ten. -/
theorem value_tenth (n : Bool) (c : ℕ) (e : ℤ) :
    value ⟨n, c, e + 1⟩ = value ⟨n, 10 * c, e⟩ := by
  simp only [value, zpow_add₀ (by norm_num : (10 : ℚ) ≠ 0), zpow_one]
  push_cast
  split <;> ring

theorem reduced_zero (n : Bool) (e : ℤ) : reduced ⟨n, 0, e⟩ = ⟨n, 0, 0⟩ := by
  rw [reduced, dif_pos rfl]

/-- The reduced form is blind to a zero at the end of the coefficient. -/
theorem reduced_tenfold (n : Bool) (c : ℕ) (e : ℤ) :
    reduced ⟨n, 10 * c, e⟩ = reduced ⟨n, c, e + 1⟩ := by
  rcases Nat.eq_zero_or_pos c with rfl | hc
  · rw [Nat.mul_zero, reduced_zero, reduced_zero]
  · rw [reduced, dif_neg (by simp only; omega), if_pos (by simp only; omega)]
    simp only
    rw [Nat.mul_div_cancel_left c (by norm_num)]

/-- What holds of a zero, of a coefficient without a zero at its end, and of ten times a coefficient
if it holds of that coefficient, holds of every decimal. -/
theorem reduction_induction {P : Decimal → Prop} (zero : ∀ n e, P ⟨n, 0, e⟩)
    (last : ∀ n c e, c % 10 ≠ 0 → P ⟨n, c, e⟩)
    (tenfold : ∀ n c e, c ≠ 0 → P ⟨n, c, e + 1⟩ → P ⟨n, 10 * c, e⟩) (d : Decimal) : P d := by
  obtain ⟨n, c, e⟩ := d
  induction c using Nat.strong_induction_on generalizing e with
  | _ c ih =>
    by_cases h0 : c = 0
    · rw [h0]; exact zero n e
    · by_cases h1 : c % 10 = 0
      · obtain ⟨k, rfl⟩ := Nat.dvd_of_mod_eq_zero h1
        exact tenfold n k e (by omega) (ih k (by omega) (e + 1))
      · exact last n c e h1

theorem reduced_of_last {n : Bool} {c : ℕ} {e : ℤ} (h : c % 10 ≠ 0) :
    reduced ⟨n, c, e⟩ = ⟨n, c, e⟩ := by
  rw [reduced, dif_neg (by simp only; omega), if_neg h]

theorem reduced_negative (d : Decimal) : d.reduced.negative = d.negative := by
  induction d using reduction_induction with
  | zero n e => rw [reduced_zero]
  | last n c e h => rw [reduced_of_last h]
  | tenfold n c e _ ih => rw [reduced_tenfold, ih]

theorem value_reduced (d : Decimal) : d.reduced.value = d.value := by
  induction d using reduction_induction with
  | zero n e => rw [reduced_zero]; simp [value]
  | last n c e h => rw [reduced_of_last h]
  | tenfold n c e _ ih => rw [reduced_tenfold, ih, value_tenth]

/-- Zeros are only taken off the end of a coefficient, so no place is added. -/
theorem min_le_exponent_reduced (d : Decimal) : min d.exponent 0 ≤ d.reduced.exponent := by
  induction d using reduction_induction with
  | zero n e =>
    rw [reduced_zero]
    exact min_le_right e 0
  | last n c e h =>
    rw [reduced_of_last h]
    exact min_le_left e 0
  | tenfold n c e _ ih =>
    rw [reduced_tenfold]
    simp only at ih ⊢
    omega

theorem coefficient_reduced_le (d : Decimal) : d.reduced.coefficient ≤ d.coefficient := by
  induction d using reduction_induction with
  | zero n e => rw [reduced_zero]
  | last n c e h => rw [reduced_of_last h]
  | tenfold n c e _ ih =>
    rw [reduced_tenfold]
    simp only at ih ⊢
    omega

theorem isReduced_reduced (d : Decimal) : d.reduced.IsReduced := by
  induction d using reduction_induction with
  | zero n e => rw [reduced_zero]; simp [IsReduced]
  | last n c e h =>
    rw [reduced_of_last h]
    simp only [IsReduced]
    rw [if_neg (by omega)]
    exact h
  | tenfold n c e _ ih => rwa [reduced_tenfold]

/-- Of two reduced decimals of one value, neither has the greater power of ten. -/
theorem IsReduced.exponent_le {d e : Decimal} (hd : d.IsReduced) (he : e.IsReduced)
    (h : |d.value| = |e.value|) : e.exponent ≤ d.exponent := by
  by_contra hlt
  have h10 : (10 : ℚ) ≠ 0 := by norm_num
  obtain ⟨k, hk⟩ : ∃ k : ℕ, e.exponent = d.exponent + (k + 1 : ℕ) :=
    ⟨(e.exponent - d.exponent - 1).toNat, by omega⟩
  have hc : d.coefficient = e.coefficient * 10 ^ (k + 1) := by
    rw [abs_value, abs_value, hk, zpow_add₀ h10, zpow_natCast] at h
    have hp : (10 : ℚ) ^ d.exponent ≠ 0 := zpow_ne_zero _ h10
    have : (d.coefficient : ℚ) = e.coefficient * 10 ^ (k + 1) := by
      apply mul_right_cancel₀ hp
      rw [h]; ring
    exact_mod_cast this
  unfold IsReduced at hd he
  rcases Nat.eq_zero_or_pos e.coefficient with h0 | h0
  · rw [if_pos h0] at he
    rw [if_pos (by rw [hc, h0, Nat.zero_mul])] at hd
    omega
  · have hpos : 0 < e.coefficient * 10 ^ (k + 1) := by positivity
    rw [if_neg (by omega), hc, pow_succ, ← mul_assoc, Nat.mul_mod_left] at hd
    exact hd rfl

/-- **A reduced decimal is its sign and its value.** -/
theorem IsReduced.ext {d e : Decimal} (hd : d.IsReduced) (he : e.IsReduced)
    (hn : d.negative = e.negative) (h : d.value = e.value) : d = e := by
  have habs : |d.value| = |e.value| := by rw [h]
  have hexp : d.exponent = e.exponent :=
    le_antisymm (he.exponent_le hd habs.symm) (hd.exponent_le he habs)
  have hc : d.coefficient = e.coefficient := by
    rw [abs_value, abs_value, hexp] at habs
    exact_mod_cast mul_right_cancel₀ (zpow_ne_zero _ (by norm_num)) habs
  obtain ⟨n, c, x⟩ := d
  obtain ⟨n', c', x'⟩ := e
  simp only at hn hexp hc
  rw [hn, hexp, hc]

/-- **One value and sign have one reduced form.** -/
theorem reduced_eq_reduced_iff {d e : Decimal} :
    d.reduced = e.reduced ↔ d.negative = e.negative ∧ d.value = e.value := by
  constructor
  · intro h
    rw [← reduced_negative d, ← reduced_negative e, ← value_reduced d, ← value_reduced e, h]
    exact ⟨rfl, rfl⟩
  · rintro ⟨hn, hv⟩
    refine (isReduced_reduced d).ext (isReduced_reduced e) ?_ ?_
    · rw [reduced_negative, reduced_negative, hn]
    · rw [value_reduced, value_reduced, hv]

end Decimal
end TokenLedger
