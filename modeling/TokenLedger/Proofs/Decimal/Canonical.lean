/-
# Canonical texts of decimals

The canonical text of a decimal is the plain text of its reduced rounded form. It has no exponent and no
superfluous zero (`Decimal.IsReduced.isPlain_plain`), and it is read back with the sign and the value of
the rounded decimal (`Decimal.read?_plain`), whose canonical text it is again. A decimal has no
canonical text exactly if its rounded value is too large. Decimals whose digits lie within the precision
have one canonical text if they have one value, and one sign if that is zero
(`Decimal.sameText_iff_of_within`).

Key definitions: `Decimal.Terse`, `Decimal.IsPlain`, `Decimal.writtenOut`.
Key theorems: `Decimal.IsReduced.isPlain_plain`, `Decimal.read?_plain`,
`Decimal.sameText_iff_of_within`, `Decimal.exists_read_of_rounded`, `Decimal.canonicalText_denotes`.
-/
import TokenLedger.Proofs.Decimal.Nearest
import TokenLedger.Proofs.Decimal.Reading

namespace TokenLedger
namespace Decimal

variable {d e r : Decimal}

/-! ### Plain texts without superfluous zeros -/

/-- Digits before and behind a point: no zero in front that is not alone, no zero at the end. -/
structure Terse (whole fraction : List Char) : Prop where
  whole_digits : ∀ c ∈ whole, c.isDigit = true
  whole_ne_nil : whole ≠ []
  fraction_digits : ∀ c ∈ fraction, c.isDigit = true
  first : whole.head? = some '0' → whole = ['0']
  last : fraction.getLast? ≠ some '0'

/-- A text is a sign or none, digits, and a point with digits behind it or neither; no power of ten
follows, and no zero is superfluous. -/
def IsPlain (s : String) : Prop :=
  ∃ negative whole fraction, Terse whole fraction ∧
    s = String.ofList (sign negative ++ (whole ++ Numeral.fractionText fraction))

theorem getLast?_toDigits (n : ℕ) : (Nat.toDigits 10 n).getLast? = some (Nat.digitChar (n % 10)) := by
  by_cases h : n < 10
  · rw [Nat.toDigits_of_lt_base h, Nat.mod_eq_of_lt h]
    rfl
  · rw [Nat.toDigits_of_base_le (by norm_num) (by omega), List.getLast?_concat]

theorem digitChar_ne_zero : ∀ m < 10, m ≠ 0 → Nat.digitChar m ≠ '0' := by
  decide

/-- **The plain text of a reduced decimal has no superfluous zeros.** -/
theorem IsReduced.isPlain_plain (h : d.IsReduced) : IsPlain d.plain := by
  obtain ⟨n, c, x⟩ := d
  unfold IsReduced at h
  simp only at h
  by_cases hc : c = 0
  · -- zero is a single digit
    obtain rfl : x = 0 := by rwa [if_pos hc] at h
    subst hc
    refine ⟨n, ['0'], [], ⟨by simp, by simp, by simp, fun _ => rfl, by simp⟩, ?_⟩
    simp [plain, positional, Numeral.fractionText]
  · rw [if_neg hc] at h
    obtain ⟨whole, fraction, hparts, hwhole, hne, hfraction, -, -, hfirst, hlast⟩ :=
      exists_positional_parts (fun _ => isDigit_of_mem_digits) (Nat.toDigits_ne_nil (n := c)) x
    refine ⟨n, whole, fraction, ⟨hwhole, hne, hfraction, fun hzero => ?_, fun hzero => ?_⟩, ?_⟩
    · rcases hfirst with hfirst | hfirst
      · obtain ⟨a, as, has, ha⟩ := exists_toDigits_eq_cons hc
        rw [hfirst, has, List.head?_cons, Option.some.injEq] at hzero
        exact absurd hzero ha
      · exact hfirst
    · have hfill : fraction ≠ [] := by
        rintro rfl
        cases hzero
      rw [hlast hfill, getLast?_toDigits, Option.some.injEq] at hzero
      exact absurd hzero (digitChar_ne_zero _ (Nat.mod_lt c (by norm_num)) h)
    · rw [plain, hparts]

/-! ### Plain texts read back -/

/-- The decimal with its power of ten written out, if that is not negative. -/
def writtenOut (d : Decimal) : Decimal :=
  ⟨d.negative, 10 ^ d.exponent.toNat * d.coefficient, -((-d.exponent).toNat : ℤ)⟩

theorem value_writtenOut (d : Decimal) : d.writtenOut.value = d.value := by
  have hten : (10 : ℚ) ≠ 0 := by norm_num
  have hexponent : (d.exponent.toNat : ℤ) + -((-d.exponent).toNat : ℤ) = d.exponent := by omega
  have hpow : ((10 ^ d.exponent.toNat : ℕ) : ℚ) = 10 ^ (d.exponent.toNat : ℤ) := by
    rw [zpow_natCast, Nat.cast_pow, Nat.cast_ofNat]
  have hscale : ((10 ^ d.exponent.toNat * d.coefficient : ℕ) : ℚ) * 10 ^ (-((-d.exponent).toNat : ℤ)) =
      d.coefficient * 10 ^ d.exponent := by
    calc ((10 ^ d.exponent.toNat * d.coefficient : ℕ) : ℚ) * 10 ^ (-((-d.exponent).toNat : ℤ))
        = d.coefficient * (10 ^ (d.exponent.toNat : ℤ) * 10 ^ (-((-d.exponent).toNat : ℤ))) := by
          rw [Nat.cast_mul, hpow]
          ring
      _ = d.coefficient * 10 ^ d.exponent := by rw [← zpow_add₀ hten, hexponent]
  unfold writtenOut value
  simp only
  split
  · rw [neg_mul, neg_mul, hscale]
  · exact hscale

/-- Writing out the power of ten leaves a decimal within the limits. -/
theorem readable_writtenOut (h : d.readable = true) : d.writtenOut.readable = true := by
  simp only [readable, Bool.and_eq_true, decide_eq_true_eq] at h ⊢
  obtain ⟨hleading, hexponent⟩ := h
  have hmin : minExponent ≤ 0 := by decide
  have hmax : 0 ≤ maxLeading := by decide
  constructor
  · by_cases hc : d.writtenOut.coefficient = 0
    · have hcount : Text.digitCount 0 = 1 := rfl
      rw [leading, hc, hcount]
      simp only [writtenOut]
      omega
    · have hc' : d.coefficient ≠ 0 := by
        rwa [← value_eq_zero_iff, value_writtenOut, value_eq_zero_iff] at hc
      rw [← log_abs_value hc, value_writtenOut, log_abs_value hc']
      exact hleading
  · simp only [writtenOut]
    omega

/-- **Reading the plain text of a decimal gives its sign and its value.** -/
theorem read?_plain (h : d.readable = true) :
    Numeral.read? d.plain = some (.finite d.writtenOut) := by
  obtain ⟨whole, fraction, hparts, hwhole, hne, hfraction, hsame, hlength, -, -⟩ :=
    exists_positional_parts (fun _ => isDigit_of_mem_digits) (Nat.toDigits_ne_nil (n := d.coefficient))
      d.exponent
  have hwritten : (⟨d.negative, Text.natOfDigits (whole ++ fraction), 0 - fraction.length⟩ : Decimal) =
      d.writtenOut := by
    rw [hsame, Text.natOfDigits_toDigits, hlength, zero_sub]
    rfl
  have hread : Numeral.read? (String.ofList (sign d.negative ++
      (whole ++ (Numeral.fractionText fraction ++ [])))) = some (.finite d.writtenOut) := by
    rw [← hwritten]
    exact Numeral.read?_parts hwhole hne hfraction (by simp) (by simp) rfl
      (hwritten ▸ readable_writtenOut h)
  rw [List.append_nil] at hread
  rw [plain, hparts, hread]

/-! ### Canonical texts -/

/-- A decimal whose digits lie within the precision has the text of its reduced form. -/
theorem canonicalText_of_within (h : d.Within .ledger) : d.canonicalText = .ok d.reduced.plain := by
  obtain ⟨r, hr, hvalue⟩ := rounded_of_within (by decide) h
  have hreduced : r.reduced = d.reduced :=
    reduced_eq_reduced_iff.mpr ⟨rounded_negative hr, hvalue⟩
  exact canonicalText_eq_ok_iff.mpr ⟨r, hr, by rw [hreduced]⟩

theorem Within.readable (h : d.Within .ledger) : d.reduced.readable = true := by
  obtain ⟨-, hexponent, hleading⟩ := h
  have hmin : minExponent ≤ Precision.ledger.minExponent := by decide
  have hmax : Precision.ledger.maxLeading ≤ maxLeading := by decide
  rw [Decimal.readable, decide_eq_true (hleading.trans hmax), decide_eq_true (hmin.trans hexponent),
    Bool.and_self]

/-- **Within the precision, one text is one value**, with one sign if it is zero. -/
theorem sameText_iff_of_within (hd : d.Within .ledger) (he : e.Within .ledger) :
    SameText d e ↔ d.value = e.value ∧ (d.value = 0 → d.negative = e.negative) := by
  have htexts : SameText d e ↔ d.reduced.plain = e.reduced.plain := by
    unfold SameText
    rw [canonicalText_of_within hd, canonicalText_of_within he]
    simp [eq_comm]
  rw [htexts]
  constructor
  · intro h
    obtain ⟨hnegative, hvalue⟩ := plain_eq_plain h
    rw [reduced_negative, reduced_negative] at hnegative
    rw [value_reduced, value_reduced] at hvalue
    exact ⟨hvalue, fun _ => hnegative⟩
  · rintro ⟨hvalue, hzero⟩
    have hnegative : d.negative = e.negative := by
      by_cases h : d.value = 0
      · exact hzero h
      · exact negative_eq_of_value_eq hvalue h
    rw [reduced_eq_reduced_iff.mpr ⟨hnegative, hvalue⟩]

theorem canonicalText_eq_overflow_iff : d.canonicalText = .error .overflow ↔
    d.rounded .ledger = .error .overflow := by
  unfold canonicalText
  cases d.rounded .ledger <;> simp [Except.map]

/-- **The text of a rounded decimal is plain and is read back**, with the sign of the decimal and the
rounded value, and has the text that was read for its own. -/
theorem exists_read_of_rounded (h : d.rounded .ledger = .ok r) :
    ∃ s e, d.canonicalText = .ok s ∧ IsPlain s ∧ Numeral.read? s = some (.finite e) ∧
      e.negative = d.negative ∧ e.value = r.value ∧ e.canonicalText = .ok s := by
  have hwithin : r.Within .ledger := within_of_rounded (by decide) (by decide) (by decide) h
  have hnegative : r.reduced.writtenOut.negative = r.negative := r.reduced_negative
  have hvalue : r.reduced.writtenOut.value = r.value := by
    rw [value_writtenOut, value_reduced]
  have hsame : r.reduced.writtenOut.canonicalText = .ok r.reduced.plain :=
    calc r.reduced.writtenOut.canonicalText = r.canonicalText := canonicalText_eq_of_value_eq hnegative hvalue
      _ = .ok r.reduced.plain := canonicalText_of_within hwithin
  exact ⟨r.reduced.plain, r.reduced.writtenOut, canonicalText_eq_ok_iff.mpr ⟨r, h, rfl⟩,
    r.isReduced_reduced.isPlain_plain, read?_plain hwithin.readable,
    hnegative.trans (rounded_negative h), hvalue, hsame⟩

/-- **The canonical text denotes the rounded value**: there is one such value, and there is no text
exactly if it is too large. Else the text is plain and is read back with this value and the sign of the
decimal, as a decimal of the same text. Within the precision, one text is one value, with one sign if
it is zero. -/
theorem canonicalText_denotes (d : Decimal) :
    ∃ y : ℚ, (∀ z, Precision.ledger.Rounds d.value z ↔ z = y) ∧
      (d.canonicalText = .error .overflow ↔
        d.value ≠ 0 ∧ Precision.ledger.maxLeading < Int.log 10 |y|) ∧
      (¬ (d.value ≠ 0 ∧ Precision.ledger.maxLeading < Int.log 10 |y|) →
        ∃ s e, d.canonicalText = .ok s ∧ IsPlain s ∧ Numeral.read? s = some (.finite e) ∧
          e.negative = d.negative ∧ e.value = y ∧ e.canonicalText = .ok s) ∧
      ∀ e : Decimal, d.Within .ledger → e.Within .ledger →
        (SameText d e ↔ d.value = e.value ∧ (d.value = 0 → d.negative = e.negative)) := by
  have hover := rounded_eq_overflow_iff (d := d) (p := .ledger) (by decide)
  have hrounds := rounds_roundTo .ledger d
  refine ⟨(d.roundTo (d.roundingExponent .ledger)).value, fun z => ⟨fun hz => ?_, ?_⟩,
    canonicalText_eq_overflow_iff.trans hover, fun hno => ?_, fun e => sameText_iff_of_within⟩
  · exact hz.unique (zpow_pos (by norm_num) _) hrounds
  · rintro rfl
    exact hrounds
  · rw [← hover] at hno
    cases hr : d.rounded .ledger with
    | error f =>
      obtain ⟨rfl, -⟩ := rounded_eq_error_iff.mp hr
      exact absurd hr hno
    | ok r =>
      rw [← (rounded_eq_ok_iff.mp hr).2]
      exact exists_read_of_rounded hr

end Decimal
end TokenLedger
