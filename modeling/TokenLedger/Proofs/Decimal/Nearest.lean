/-
# Rounding to the nearest

Rounding a decimal to a power of ten gives the multiple of it that is nearest, and the even one of two
that are equally near (`Decimal.isNearest_roundTo`); there is only one such (`IsNearest.unique`). So what
a precision rounds a number to is told without decimals (`Precision.Rounds`): a number keeps the places
from its leading digit on, counted by its logarithm, down to a least place. A decimal cannot be rounded
exactly if the rounded value is too large (`Decimal.rounded_eq_overflow_iff`), and the digits of what it is
rounded to lie within the precision (`Decimal.within_of_rounded`).

Key definitions: `IsNearest`, `Precision.place`, `Precision.Rounds`.
Key theorems: `IsNearest.unique`, `isNearest_roundHalfEven`, `Decimal.log_abs_value`,
`Decimal.isNearest_roundTo`, `Decimal.rounds_roundTo`, `Decimal.rounded_eq_overflow_iff`,
`Decimal.within_of_rounded`.
-/
import TokenLedger.Proofs.Decimal.Bounds

namespace TokenLedger

/-- A number is the multiple of a unit that is nearest to `x`: it is within half a unit, and if `x` lies
halfway between two multiples it is the even one. -/
def IsNearest (unit x y : ℚ) : Prop :=
  ∃ n : ℤ, y = n * unit ∧ 2 * |x - y| ≤ unit ∧ (2 * |x - y| = unit → Even n)

namespace IsNearest

variable {unit x y z : ℚ}

/-- There is no other. -/
theorem unique (hunit : 0 < unit) (hy : IsNearest unit x y) (hz : IsNearest unit x z) : y = z := by
  obtain ⟨n, rfl, hn, hneven⟩ := hy
  obtain ⟨m, rfl, hm, hmeven⟩ := hz
  by_contra hne
  have hnm : n ≠ m := fun h => hne (by rw [h])
  -- the distance between two multiples is at least a unit, so both are half a unit away
  have hint : 1 ≤ |n - m| := Int.one_le_abs (sub_ne_zero.mpr hnm)
  have hcast : (1 : ℚ) ≤ |(n : ℚ) - m| := by exact_mod_cast hint
  have hapart : |(n : ℚ) - m| * unit ≤ |x - n * unit| + |x - m * unit| := by
    calc |(n : ℚ) - m| * unit = |(x - m * unit) - (x - n * unit)| := by
          rw [← abs_of_pos hunit, ← abs_mul, abs_of_pos hunit]
          congr 1
          ring
      _ ≤ |x - m * unit| + |x - n * unit| := abs_sub _ _
      _ = |x - n * unit| + |x - m * unit| := add_comm _ _
  have hone : unit ≤ |(n : ℚ) - m| * unit := le_mul_of_one_le_left hunit.le hcast
  have hnhalf : 2 * |x - n * unit| = unit := by linarith
  have hmhalf : 2 * |x - m * unit| = unit := by linarith
  have hexact : |(n : ℚ) - m| ≤ 1 := by
    have : |(n : ℚ) - m| * unit ≤ 1 * unit := by linarith
    exact le_of_mul_le_mul_right this hunit
  have hdiff : |n - m| = 1 := le_antisymm (by exact_mod_cast hexact) hint
  have heven : Even (n - m) := (hneven hnhalf).sub (hmeven hmhalf)
  obtain ⟨k, hk⟩ := heven
  rcases abs_cases (n - m) with h | h <;> omega

theorem self (n : ℤ) (hunit : 0 < unit) : IsNearest unit (n * unit) (n * unit) := by
  refine ⟨n, rfl, ?_, fun h => ?_⟩
  · rw [sub_self, abs_zero, mul_zero]
    exact hunit.le
  · rw [sub_self, abs_zero, mul_zero] at h
    exact absurd h hunit.ne

theorem neg (h : IsNearest unit x y) : IsNearest unit (-x) (-y) := by
  obtain ⟨n, rfl, hn, heven⟩ := h
  have habs : |-x - -(n * unit)| = |x - n * unit| := by
    rw [← abs_neg]
    congr 1
    ring
  refine ⟨-n, by push_cast; ring, ?_, fun h => ?_⟩
  · rw [habs]
    exact hn
  · rw [habs] at h
    exact (heven h).neg

theorem scale {s : ℚ} (hs : 0 < s) (h : IsNearest unit x y) : IsNearest (unit * s) (x * s) (y * s) := by
  obtain ⟨n, rfl, hn, heven⟩ := h
  have habs : 2 * |x * s - n * unit * s| = 2 * |x - n * unit| * s := by
    rw [← sub_mul, abs_mul, abs_of_pos hs, mul_assoc]
  refine ⟨n, by ring, ?_, fun h => ?_⟩
  · rw [habs]
    exact mul_le_mul_of_nonneg_right hn hs.le
  · rw [habs] at h
    exact heven (mul_right_cancel₀ hs.ne' h)

end IsNearest

/-- A half is rounded to the even neighbour. -/
theorem even_roundHalfEven {num den : ℕ} (h : 0 < den)
    (hhalf : 2 * num = 2 * (den * roundHalfEven num den) + den ∨
      2 * (den * roundHalfEven num den) = 2 * num + den) : Even (roundHalfEven num den) := by
  have e : den * (num / den) + num % den = num := Nat.div_add_mod num den
  have l : num % den < den := Nat.mod_lt _ h
  rw [Nat.even_iff]
  simp only [roundHalfEven] at hhalf ⊢
  generalize num / den = q at *
  generalize num % den = r at *
  have hs : den * (q + 1) = den * q + den := by rw [Nat.mul_add, Nat.mul_one]
  split at hhalf
  · omega
  · split at hhalf
    · rw [hs] at hhalf
      omega
    · split at hhalf
      · rename_i h1 h2 h3
        rw [if_neg h1, if_neg h2, if_pos h3]
        exact h3
      · rename_i h1 h2 h3
        rw [if_neg h1, if_neg h2, if_neg h3]
        omega

/-- **The rounded quotient is the nearest.** -/
theorem isNearest_roundHalfEven (num : ℕ) {den : ℕ} (h : 0 < den) :
    IsNearest den num ((roundHalfEven num den : ℕ) * den) := by
  obtain ⟨hlow, hhigh⟩ := roundHalfEven_near num den h
  have hlow' : (2 * (den * roundHalfEven num den) : ℚ) ≤ 2 * num + den := by exact_mod_cast hlow
  have hhigh' : (2 * num : ℚ) ≤ 2 * (den * roundHalfEven num den) + den := by exact_mod_cast hhigh
  refine ⟨roundHalfEven num den, rfl, ?_, fun hhalf => ?_⟩
  · have habs : |(num : ℚ) - roundHalfEven num den * den| ≤ den / 2 := by
      rw [abs_le]
      constructor <;> linarith
    linarith
  · have heven : Even (roundHalfEven num den) := by
      apply even_roundHalfEven h
      rcases abs_cases ((num : ℚ) - roundHalfEven num den * den) with ⟨habs, -⟩ | ⟨habs, -⟩
      · left
        rw [habs] at hhalf
        have : (2 * num : ℚ) = 2 * (den * roundHalfEven num den) + den := by linarith
        exact_mod_cast this
      · right
        rw [habs] at hhalf
        have : (2 * (den * roundHalfEven num den) : ℚ) = 2 * num + den := by linarith
        exact_mod_cast this
    exact_mod_cast heven

/-- The power of ten of the last digit that is kept of a number: as many places below its leading digit
as there are digits, or the least. -/
def Precision.place (p : Precision) (x : ℚ) : ℤ :=
  max (Int.log 10 |x| - (p.digits - 1)) p.minExponent

/-- A number is rounded to another: to the nearest with no more digits, a half to the even one. -/
def Precision.Rounds (p : Precision) (x y : ℚ) : Prop :=
  IsNearest (10 ^ p.place x) x y

namespace Decimal

variable {p : Precision} {d r : Decimal}

/-- **The logarithm of the value is the place of the leading digit.** -/
theorem log_abs_value (h : d.coefficient ≠ 0) : Int.log 10 |d.value| = d.leading := by
  have hpos : 0 < |d.value| := abs_pos.mpr fun h0 => h (value_eq_zero_iff.mp h0)
  have hlow : d.leading ≤ Int.log 10 |d.value| := by
    rw [← Int.zpow_le_iff_le_log (by norm_num) hpos]
    exact_mod_cast le_abs_value h
  have hhigh : Int.log 10 |d.value| < d.leading + 1 := by
    rw [← Int.lt_zpow_iff_log_lt (by norm_num) hpos]
    exact_mod_cast abs_value_lt d
  omega

/-- **Rounding to a power of ten gives the nearest multiple of it.** -/
theorem isNearest_roundTo (d : Decimal) (x : ℤ) : IsNearest (10 ^ x) d.value (d.roundTo x).value := by
  have hten : (10 : ℚ) ≠ 0 := by norm_num
  rcases le_or_gt x d.exponent with h | h
  · -- the decimal is a multiple as it is
    obtain ⟨k, hk⟩ : ∃ k : ℕ, d.exponent = k + x := ⟨(d.exponent - x).toNat, by omega⟩
    have hmultiple : d.value = ((if d.negative then -(d.coefficient : ℤ) else d.coefficient) * 10 ^ k : ℤ)
        * 10 ^ x := by
      unfold value
      rw [hk, zpow_add₀ hten, zpow_natCast]
      push_cast
      ring
    rw [roundTo_of_le h, hmultiple]
    exact IsNearest.self _ (zpow_pos (by norm_num) x)
  · obtain ⟨k, hk⟩ : ∃ k : ℕ, x = k + d.exponent := ⟨(x - d.exponent).toNat, by omega⟩
    have hdropped : (x - d.exponent).toNat = k := by omega
    have hnearest := (isNearest_roundHalfEven d.coefficient (pow_pos (by norm_num : 0 < 10) k)).scale
      (zpow_pos (by norm_num : (0 : ℚ) < 10) d.exponent)
    have hunit : ((10 ^ k : ℕ) : ℚ) * 10 ^ d.exponent = 10 ^ x := by
      rw [hk, zpow_add₀ hten, zpow_natCast]
      push_cast
      rfl
    rw [mul_assoc _ ((10 ^ k : ℕ) : ℚ), hunit] at hnearest
    rw [roundTo_of_lt h, hdropped]
    unfold value
    simp only
    split
    · rw [neg_mul, neg_mul]
      exact hnearest.neg
    · exact hnearest

theorem roundTo_max_exponent (d : Decimal) (x : ℤ) : d.roundTo (max d.exponent x) = d.roundTo x := by
  rcases le_total x d.exponent with h | h
  · rw [max_eq_left h, roundTo_of_le le_rfl, roundTo_of_le h]
  · rw [max_eq_right h]

theorem value_roundTo_of_zero (h : d.coefficient = 0) (x : ℤ) : (d.roundTo x).value = 0 := by
  obtain ⟨n, c, e⟩ := d
  simp only at h
  rw [h, ← value_reduced, roundTo_zero, value_eq_zero_iff]

/-- **The rounded decimal has the rounded value.** -/
theorem rounds_roundTo (p : Precision) (d : Decimal) :
    p.Rounds d.value (d.roundTo (d.roundingExponent p)).value := by
  unfold Precision.Rounds
  by_cases h : d.coefficient = 0
  · have hzero := IsNearest.self 0 (zpow_pos (by norm_num : (0 : ℚ) < 10) (p.place 0))
    rw [value_roundTo_of_zero h, value_eq_zero_iff.mpr h]
    simpa using hzero
  · have hplace : p.place d.value = max (d.leading - (p.digits - 1)) p.minExponent := by
      unfold Precision.place
      rw [log_abs_value h]
    unfold roundingExponent
    rw [hplace, roundTo_max_exponent]
    exact isNearest_roundTo d _

theorem rounded_eq_error_iff {f : ArithmeticFault} : d.rounded p = .error f ↔ f = .overflow ∧
    d.coefficient ≠ 0 ∧ (d.roundTo (d.roundingExponent p)).coefficient ≠ 0 ∧
      p.maxLeading < (d.roundTo (d.roundingExponent p)).leading := by
  simp only [rounded]
  split
  · rename_i h
    simp [h, eq_comm]
  · rename_i h
    constructor
    · intro h'
      cases h'
    · rintro ⟨-, h'⟩
      exact absurd h' h

/-- **A decimal is not rounded exactly if the leading digit would be beyond the limit.** -/
theorem rounded_eq_overflow_iff (hp : 0 ≤ p.maxLeading) : d.rounded p = .error .overflow ↔
    d.value ≠ 0 ∧ p.maxLeading < Int.log 10 |(d.roundTo (d.roundingExponent p)).value| := by
  rw [rounded_eq_error_iff, ne_eq d.value, value_eq_zero_iff]
  by_cases hr : (d.roundTo (d.roundingExponent p)).coefficient = 0
  · rw [value_eq_zero_iff.mpr hr, abs_zero, Int.log_zero_right]
    simp [hr, hp]
  · rw [log_abs_value hr]
    simp [hr]

theorem le_exponent_roundTo (d : Decimal) (x : ℤ) : x ≤ (d.roundTo x).exponent := by
  rcases le_or_gt x d.exponent with h | h
  · rwa [roundTo_of_le h]
  · rw [roundTo_of_lt h]

/-- Rounding leaves no more digits than are kept, or lifts the first of them to a power of ten. -/
theorem coefficient_roundTo_le (p : Precision) (d : Decimal) :
    (d.roundTo (d.roundingExponent p)).coefficient ≤ 10 ^ p.digits := by
  have hcount := Text.lt_pow_digitCount d.coefficient
  have hplace : d.leading - (p.digits - 1) ≤ d.roundingExponent p :=
    le_max_of_le_right (le_max_left _ _)
  unfold leading at hplace
  rcases le_or_gt (d.roundingExponent p) d.exponent with h | h
  · have hdigits : Text.digitCount d.coefficient ≤ p.digits := by omega
    rw [roundTo_of_le h]
    exact hcount.le.trans (Nat.pow_le_pow_right (by norm_num) hdigits)
  · obtain ⟨k, hk⟩ : ∃ k : ℕ, d.roundingExponent p = d.exponent + k :=
      ⟨(d.roundingExponent p - d.exponent).toNat, by omega⟩
    have hdropped : (d.roundingExponent p - d.exponent).toNat = k := by omega
    have hdigits : Text.digitCount d.coefficient ≤ p.digits + k := by omega
    have hquotient : d.coefficient / 10 ^ k < 10 ^ p.digits := by
      rw [Nat.div_lt_iff_lt_mul (by positivity), ← pow_add]
      exact hcount.trans_le (Nat.pow_le_pow_right (by norm_num) hdigits)
    rw [roundTo_of_lt h, hdropped]
    exact (roundHalfEven_le _ _).trans hquotient

/-- A coefficient of no more than a power of ten has fewer digits in reduced form. -/
theorem coefficient_reduced_lt {k : ℕ} (hk : 1 ≤ k) (h : r.coefficient ≤ 10 ^ k) :
    r.reduced.coefficient < 10 ^ k := by
  rcases h.lt_or_eq with hlt | heq
  · exact r.coefficient_reduced_le.trans_lt hlt
  · -- the power of ten itself has zeros at its end
    obtain ⟨m, rfl⟩ : ∃ m, k = m + 1 := ⟨k - 1, by omega⟩
    obtain ⟨n, c, e⟩ := r
    simp only at heq
    rw [heq, pow_succ, mul_comm, reduced_tenfold]
    calc (reduced ⟨n, 10 ^ m, e + 1⟩).coefficient ≤ 10 ^ m := coefficient_reduced_le _
      _ < 10 * 10 ^ m := by
        have : 0 < 10 ^ m := by positivity
        omega

/-- Reducing a decimal leaves the place of its leading digit. -/
theorem leading_reduced (h : r.coefficient ≠ 0) : r.reduced.leading = r.leading := by
  have hreduced : r.reduced.coefficient ≠ 0 := by
    rwa [ne_eq, ← value_eq_zero_iff, value_reduced, value_eq_zero_iff]
  rw [← log_abs_value hreduced, value_reduced, log_abs_value h]

theorem leading_reduced_of_zero (h : r.coefficient = 0) : r.reduced.leading = 0 := by
  obtain ⟨n, c, e⟩ := r
  simp only at h
  rw [h, reduced_zero, leading]
  simp [Text.digitCount]

/-- **The digits of a rounded decimal lie within the precision.** -/
theorem within_of_rounded (hdigits : 1 ≤ p.digits) (hmin : p.minExponent ≤ 0) (hmax : 0 ≤ p.maxLeading)
    (h : d.rounded p = .ok r) : r.Within p := by
  obtain ⟨hok, rfl⟩ := rounded_eq_ok_iff.mp h
  have hexponent : p.minExponent ≤ (d.roundTo (d.roundingExponent p)).exponent :=
    le_trans (le_max_of_le_right (le_max_right _ _)) (le_exponent_roundTo d _)
  refine ⟨coefficient_reduced_lt hdigits (coefficient_roundTo_le p d), ?_, ?_⟩
  · have hpoint := (d.roundTo (d.roundingExponent p)).min_le_exponent_reduced
    omega
  · by_cases hr : (d.roundTo (d.roundingExponent p)).coefficient = 0
    · rwa [leading_reduced_of_zero hr]
    · have hd : d.coefficient ≠ 0 := fun hd =>
        hr (value_eq_zero_iff.mp (value_roundTo_of_zero hd _))
      rw [leading_reduced hr]
      by_contra hover
      exact hok ⟨hd, hr, not_le.mp hover⟩

end Decimal
end TokenLedger
