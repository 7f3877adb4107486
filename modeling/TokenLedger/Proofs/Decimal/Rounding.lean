/-
# Rounding sees the value of a decimal only

A zero at the end of a coefficient changes neither the place to which a decimal is rounded nor the
result, so decimals of one value and sign have one canonical text, however they are spelled
(`canonicalText_eq_of_value_eq`). Rounding lifts the leading digit by one place at most
(`leading_roundTo_le`), so a decimal whose leading digit stays below the limit has a canonical text
(`canonicalText_ok`), and it keeps the value of a decimal that has no more digits than the precision
(`rounded_of_within`).

Key definitions: `Decimal.Within`.
Key theorems: `roundHalfEven_mul_mul`, `Decimal.rounded_tenfold`,
`Decimal.canonicalText_eq_of_value_eq`, `Decimal.leading_roundTo_le`, `Decimal.canonicalText_ok`,
`Decimal.rounded_of_within`.
-/
import TokenLedger.Number.Rounded
import TokenLedger.Proofs.Decimal.Value

namespace TokenLedger

/-! ### Rounded quotients -/

theorem roundHalfEven_mul_mul {k : ℕ} (hk : 0 < k) (n d : ℕ) :
    roundHalfEven (k * n) (k * d) = roundHalfEven n d := by
  have h1 : 2 * (k * (n % d)) = k * (2 * (n % d)) := by ring
  simp only [roundHalfEven, Nat.mul_div_mul_left _ _ hk, Nat.mul_mod_mul_left, h1,
    Nat.mul_lt_mul_left hk]

theorem roundHalfEven_mul {d : ℕ} (hd : 0 < d) (q : ℕ) : roundHalfEven (d * q) d = q := by
  simp only [roundHalfEven, Nat.mul_div_cancel_left q hd, Nat.mul_mod_right, Nat.mul_zero, hd,
    ↓reduceIte]

theorem roundHalfEven_eq_zero {n d : ℕ} (h : 2 * n < d) : roundHalfEven n d = 0 := by
  have hn : n < d := by omega
  simp only [roundHalfEven, Nat.div_eq_of_lt hn, Nat.mod_eq_of_lt hn, h, ↓reduceIte]

theorem roundHalfEven_le (n d : ℕ) : roundHalfEven n d ≤ n / d + 1 := by
  simp only [roundHalfEven]
  split
  · omega
  · split
    · omega
    · split <;> omega

/-! ### Numbers of digits -/

namespace Text

theorem digitCount_pos (n : ℕ) : 0 < digitCount n := Nat.length_toDigits_pos

theorem digitCount_le_iff {n k : ℕ} (hk : 0 < k) : digitCount n ≤ k ↔ n < 10 ^ k :=
  Nat.length_toDigits_le_iff (by norm_num) hk

theorem lt_pow_digitCount (n : ℕ) : n < 10 ^ digitCount n :=
  (digitCount_le_iff (digitCount_pos n)).mp le_rfl

theorem digitCount_tenfold {c : ℕ} (hc : c ≠ 0) : digitCount (10 * c) = digitCount c + 1 := by
  rw [digitCount, Nat.toDigits_of_base_le (by norm_num) (by omega),
    Nat.mul_div_cancel_left c (by norm_num), List.length_append]
  rfl

end Text

namespace Decimal

variable {p : Precision} {d e : Decimal}

/-! ### The place of rounding -/

theorem leading_tenfold (n : Bool) {c : ℕ} (hc : c ≠ 0) (x : ℤ) :
    leading ⟨n, 10 * c, x⟩ = leading ⟨n, c, x + 1⟩ := by
  simp only [leading, Text.digitCount_tenfold hc]
  push_cast
  ring

theorem roundTo_of_le {x : ℤ} (h : x ≤ d.exponent) : d.roundTo x = d := if_pos h

/-- The short cut for a coefficient that is dropped whole agrees with the rounded quotient. -/
theorem roundTo_of_lt {x : ℤ} (h : d.exponent < x) :
    d.roundTo x = ⟨d.negative, roundHalfEven d.coefficient (10 ^ (x - d.exponent).toNat), x⟩ := by
  unfold roundTo
  rw [if_neg (not_le.mpr h)]
  simp only
  split
  · rename_i hlt
    have h1 := Text.lt_pow_digitCount d.coefficient
    have h2 : 10 ^ (Text.digitCount d.coefficient + 1) ≤ 10 ^ (x - d.exponent).toNat :=
      Nat.pow_le_pow_right (by norm_num) hlt
    rw [roundHalfEven_eq_zero (by omega)]
  · rfl

theorem roundTo_negative (d : Decimal) (x : ℤ) : (d.roundTo x).negative = d.negative := by
  rcases le_or_gt x d.exponent with h | h
  · rw [roundTo_of_le h]
  · rw [roundTo_of_lt h]

theorem rounded_eq_ok_iff {r : Decimal} : d.rounded p = .ok r ↔
    ¬ (d.coefficient ≠ 0 ∧ r.coefficient ≠ 0 ∧ p.maxLeading < r.leading) ∧
      r = d.roundTo (d.roundingExponent p) := by
  simp only [rounded]
  split
  · rename_i h
    constructor
    · intro h'; cases h'
    · rintro ⟨h1, rfl⟩; exact absurd h h1
  · rename_i h
    constructor
    · intro h'; cases h'; exact ⟨h, rfl⟩
    · rintro ⟨-, rfl⟩; rfl

theorem rounded_negative {r : Decimal} (h : d.rounded p = .ok r) : r.negative = d.negative := by
  rw [(rounded_eq_ok_iff.mp h).2, roundTo_negative]

/-! ### Zeros at the end do not matter -/

theorem roundTo_zero (n : Bool) (x y : ℤ) : ((⟨n, 0, x⟩ : Decimal).roundTo y).reduced = ⟨n, 0, 0⟩ := by
  rcases le_or_gt y x with h | h
  · rw [roundTo_of_le h, reduced_zero]
  · rw [roundTo_of_lt h]
    simp only
    rw [roundHalfEven_eq_zero (by positivity), reduced_zero]

theorem rounded_zero (p : Precision) (n : Bool) (x : ℤ) :
    ((⟨n, 0, x⟩ : Decimal).rounded p).map reduced = .ok ⟨n, 0, 0⟩ := by
  simp only [rounded, ne_eq, not_true_eq_false, false_and, ↓reduceIte, Except.map, roundTo_zero]

/-- With a zero at the end of the coefficient a decimal is rounded to the same result, or it is not
rounded at all. Where the place of rounding lies above both exponents, the quotients have a factor ten
in common; at the place between them, the zero is all that is dropped. -/
theorem roundTo_tenfold (p : Precision) (n : Bool) {c : ℕ} (hc : c ≠ 0) (x : ℤ) :
    let d : Decimal := ⟨n, 10 * c, x⟩
    let e : Decimal := ⟨n, c, x + 1⟩
    d.roundTo (d.roundingExponent p) = e.roundTo (e.roundingExponent p) ∨
      (d.roundTo (d.roundingExponent p) = d ∧ e.roundTo (e.roundingExponent p) = e) := by
  intro d e
  simp only [roundingExponent, d, e, leading_tenfold n hc x]
  generalize max (leading ⟨n, c, x + 1⟩ - (↑p.digits - 1)) p.minExponent = t
  rcases le_or_gt t x with h | h
  · right
    rw [max_eq_left h, max_eq_left (by omega : t ≤ x + 1)]
    exact ⟨roundTo_of_le le_rfl, roundTo_of_le le_rfl⟩
  · left
    rw [max_eq_right h.le, max_eq_right (by omega : x + 1 ≤ t), roundTo_of_lt h]
    obtain ⟨k, hk⟩ : ∃ k : ℕ, t = x + 1 + k := ⟨(t - (x + 1)).toNat, by omega⟩
    have hpow : (10 : ℕ) ^ (t - x).toNat = 10 * 10 ^ k := by
      rw [show (t - x).toNat = k + 1 by omega, pow_succ, mul_comm]
    simp only [hpow, roundHalfEven_mul_mul (by norm_num : 0 < 10)]
    rcases Nat.eq_zero_or_pos k with rfl | hk0
    · have hone : roundHalfEven c 1 = c := by simpa using roundHalfEven_mul one_pos c
      rw [roundTo_of_le (by simp only; omega), pow_zero, hone]
      simp only [Decimal.mk.injEq, true_and]
      omega
    · rw [roundTo_of_lt (by simp only; omega), show (t - (x + 1)).toNat = k by omega]

/-- Rounding is blind to a zero at the end of the coefficient. -/
theorem rounded_tenfold (p : Precision) (n : Bool) {c : ℕ} (hc : c ≠ 0) (x : ℤ) :
    ((⟨n, 10 * c, x⟩ : Decimal).rounded p).map reduced =
      ((⟨n, c, x + 1⟩ : Decimal).rounded p).map reduced := by
  have hc' : 10 * c ≠ 0 := by omega
  rcases roundTo_tenfold p n hc x with h | ⟨h, h'⟩
  · simp only [rounded, h, hc, hc', ne_eq, not_false_eq_true, true_and]
  · simp only [rounded, h, h', hc, hc', leading_tenfold n hc x, ne_eq, not_false_eq_true, true_and]
    split
    · rfl
    · simp only [Except.map, reduced_tenfold]

/-- Rounding a decimal and rounding its reduced form give one value. -/
theorem rounded_reduced (p : Precision) (d : Decimal) :
    (d.reduced.rounded p).map reduced = (d.rounded p).map reduced := by
  induction d using reduction_induction with
  | zero n x => rw [reduced_zero, rounded_zero, rounded_zero]
  | last n c x h => rw [reduced_of_last h]
  | tenfold n c x hc ih => rw [reduced_tenfold, rounded_tenfold p n hc, ih]

theorem canonicalText_eq (d : Decimal) :
    d.canonicalText = ((d.rounded .ledger).map reduced).map plain := by
  unfold canonicalText
  cases d.rounded .ledger <;> rfl

/-- **One value and sign have one canonical text**, however they are spelled. -/
theorem canonicalText_eq_of_value_eq (hn : d.negative = e.negative) (hv : d.value = e.value) :
    d.canonicalText = e.canonicalText := by
  rw [canonicalText_eq, canonicalText_eq, ← rounded_reduced .ledger d, ← rounded_reduced .ledger e,
    reduced_eq_reduced_iff.mpr ⟨hn, hv⟩]

/-! ### Where rounding succeeds -/

/-- Rounding lifts the leading digit by one place at most, or up to the least exponent. -/
theorem leading_roundTo_le (hp : 1 ≤ p.digits) (d : Decimal) :
    (d.roundTo (d.roundingExponent p)).leading ≤ max (d.leading + 1) p.minExponent := by
  rcases le_or_gt (d.roundingExponent p) d.exponent with h | h
  · rw [roundTo_of_le h]
    exact le_trans (by omega) (le_max_left _ _)
  · rw [roundTo_of_lt h]
    obtain ⟨k, hk⟩ : ∃ k : ℕ, d.roundingExponent p = d.exponent + k :=
      ⟨(d.roundingExponent p - d.exponent).toNat, by omega⟩
    have hx : d.roundingExponent p ≤ max (d.leading + 1) p.minExponent := by
      have : d.roundingExponent p = max (d.leading - (p.digits - 1)) p.minExponent := by
        unfold roundingExponent at h ⊢
        omega
      omega
    have hle := roundHalfEven_le d.coefficient (10 ^ k)
    have hlt := Text.lt_pow_digitCount d.coefficient
    simp only [leading, hk, show (d.exponent + k - d.exponent).toNat = k by omega] at hx ⊢
    rcases le_or_gt (Text.digitCount d.coefficient) k with hdk | hdk
    · -- every digit is dropped: what is left is zero or one
      have hq : d.coefficient / 10 ^ k = 0 :=
        Nat.div_eq_of_lt (lt_of_lt_of_le hlt (Nat.pow_le_pow_right (by norm_num) hdk))
      have : Text.digitCount (roundHalfEven d.coefficient (10 ^ k)) ≤ 1 :=
        (Text.digitCount_le_iff one_pos).mpr (by omega)
      omega
    · have hq : d.coefficient / 10 ^ k < 10 ^ (Text.digitCount d.coefficient - k) := by
        rw [Nat.div_lt_iff_lt_mul (by positivity), ← pow_add,
          show Text.digitCount d.coefficient - k + k = Text.digitCount d.coefficient by omega]
        exact hlt
      have hpow : 10 ^ (Text.digitCount d.coefficient - k) <
          10 ^ (Text.digitCount d.coefficient - k + 1) := Nat.pow_lt_pow_right (by norm_num) (by omega)
      have : Text.digitCount (roundHalfEven d.coefficient (10 ^ k)) ≤
          Text.digitCount d.coefficient - k + 1 :=
        (Text.digitCount_le_iff (by omega)).mpr (by omega)
      omega

/-- A decimal whose leading digit stays below the limit has a canonical text. -/
theorem canonicalText_ok (h : d.coefficient ≠ 0 → d.leading < 999999) :
    ∃ s, d.canonicalText = .ok s := by
  have hr : d.rounded .ledger = .ok (d.roundTo (d.roundingExponent .ledger)) := by
    rw [rounded_eq_ok_iff]
    refine ⟨fun ⟨hc, _, hover⟩ => ?_, rfl⟩
    have h1 := leading_roundTo_le (p := .ledger) (by decide) d
    have h2 := h hc
    simp only [Precision.ledger, Precision.minExponent] at h1 hover
    omega
  exact ⟨_, by rw [canonicalText, hr]; rfl⟩

/-- The digits of a decimal lie within a precision. -/
def Within (p : Precision) (d : Decimal) : Prop :=
  d.reduced.coefficient < 10 ^ p.digits ∧ p.minExponent ≤ d.reduced.exponent ∧
    d.reduced.leading ≤ p.maxLeading

/-- Rounding keeps the value of a decimal whose digits lie within the precision. -/
theorem rounded_of_within (hp : 1 ≤ p.digits) (h : d.Within p) :
    ∃ r, d.rounded p = .ok r ∧ r.value = d.value := by
  obtain ⟨h1, h2, h3⟩ := h
  have hdigits := (Text.digitCount_le_iff (by omega)).mpr h1
  have hred : d.reduced.rounded p = .ok d.reduced := by
    rw [rounded_eq_ok_iff]
    refine ⟨fun hover => by omega, ?_⟩
    rw [roundTo_of_le]
    unfold roundingExponent leading
    omega
  have hmap := rounded_reduced p d
  rw [hred] at hmap
  cases hr : d.rounded p with
  | error f => rw [hr] at hmap; cases hmap
  | ok r =>
    rw [hr] at hmap
    refine ⟨r, rfl, ?_⟩
    have hrr : d.reduced.reduced = r.reduced := by simpa [Except.map] using hmap
    rw [← value_reduced r, ← hrr, value_reduced, value_reduced]

end Decimal
end TokenLedger
