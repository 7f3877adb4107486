/-
# Decimals that can be written again

A decimal that was accepted as an amount is within the limits of what can be read, however it was
spelled (`Check.payable_of_amount`). A text or a list of parts beyond the limits is no numeral, and a
whole number has no power of ten. A binary number spells out a decimal whose places are bounded by its
power of two: the shortest decimal is found on one of seventeen grids below the leading digit
(`Double.exponent_shortest`), so a number of the format has at most 1091 places
(`Double.exponent_plainDecimal`).

Key definitions: `Decimal.Payable`, `Double.Regular`.
Key theorems: `Double.regular_ofDecimal`, `Double.exponent_shortest`, `Double.exponent_plainDecimal`,
`Check.payable_of_amount`.
-/
import TokenLedger.Proofs.Decimal.Bounds

namespace TokenLedger

/-! ### Limits -/

/-- A decimal is an amount. Beyond the limits of `Decimal.readable` there are no decimals that could be
written or read. -/
structure Decimal.Payable (d : Decimal) : Prop where
  range : 0 ≤ d.value ∧ d.value ≤ 2 ^ 64 - 1
  readable : d.readable = true

namespace Decimal

variable {d : Decimal}

theorem Payable.inRange (h : d.Payable) : d.InRange :=
  d.inRange_iff.mpr h.range

/-- A zero is an amount, whatever its sign and its places are. -/
theorem payable_of_zero (hc : d.coefficient = 0) (h : d.readable = true) : d.Payable := by
  refine ⟨?_, h⟩
  rw [value_eq_zero_iff.mpr hc]
  norm_num

theorem zero_payable : zero.Payable :=
  payable_of_zero rfl (by decide)

/-- Of a decimal in the range without a power of ten, only the number of places is limited. -/
theorem InRange.readable (h : d.InRange) (hplaces : minExponent ≤ d.exponent)
    (hpoint : d.exponent ≤ 0) : d.readable = true := by
  have hleading : d.leading < 20 := by
    by_cases hc : d.coefficient = 0
    · have hone : Text.digitCount d.coefficient = 1 := by rw [hc]; rfl
      unfold leading
      omega
    · exact h.leading_lt hc
  have hmax : d.leading ≤ maxLeading := hleading.le.trans (by decide)
  rw [Decimal.readable, decide_eq_true hmax, decide_eq_true hplaces, Bool.and_self]

end Decimal

/-! ### Binary numbers -/

namespace Double

variable {tie : Tie} {m : ℕ} {q : ℤ}

/-- If a number is finite, its power of two is not below the least one of the format. -/
def Regular (x : Double) : Prop :=
  ∀ negative m q, x = .finite negative m q → minExponent ≤ q

theorem minExponent_le_exponentOf (num den : ℕ) : minExponent ≤ exponentOf num den :=
  le_max_left _ _

theorem regular_ofFraction (negative : Bool) (num den : ℕ) : (ofFraction negative num den).Regular := by
  have hleast := minExponent_le_exponentOf num den
  intro n m q h
  unfold ofFraction at h
  simp only at h
  split_ifs at h with hcarry
  · cases h
    exact hleast.trans (by omega)
  · cases h
    exact hleast

/-- **The number nearest to a decimal is one of the format.** -/
theorem regular_ofDecimal (d : Decimal) : (ofDecimal d).Regular := by
  intro n m q h
  unfold ofDecimal at h
  split_ifs at h with hzero hlarge
  · cases h
    exact le_refl _
  · exact regular_ofFraction _ _ _ n m q h

/-! ### The places of the shortest decimal -/

/-- The grids that are searched are the seventeen below the leading digit. -/
theorem le_of_search {top i : ℤ} {left digits : ℕ} (h : search tie m q top left = some (digits, i)) :
    top - 17 ≤ i := by
  induction left with
  | zero => cases h
  | succ left ih =>
    unfold search at h
    simp only at h
    split at h
    · cases h
      omega
    · exact ih h

/-- The leading digit stands at most as many places behind the point as there are halvings. -/
theorem le_scale (m : ℕ) (q : ℤ) : -((-q).toNat : ℤ) ≤ scale m q := by
  unfold scale
  simp only [Nat.pow_eq]
  generalize (-q).toNat = k
  generalize m * 2 ^ q.toNat = whole
  by_cases hone : 2 ^ k ≤ whole
  · rw [if_pos hone]
    omega
  · have hpow : 2 ^ k / whole < 10 ^ (k + 1) :=
      calc 2 ^ k / whole ≤ 2 ^ k := Nat.div_le_self _ _
        _ ≤ 10 ^ k := Nat.pow_le_pow_left (by norm_num) k
        _ < 10 ^ (k + 1) := Nat.pow_lt_pow_right (by norm_num) (Nat.lt_succ_self k)
    have hcount := (Text.digitCount_le_iff k.succ_pos).mpr hpow
    rw [if_neg hone]
    split_ifs <;> omega

/-- **The shortest decimal has few places more than the number has halvings.** -/
theorem exponent_shortest (tie : Tie) (m : ℕ) (q : ℤ) :
    -((-q).toNat : ℤ) - 17 ≤ (shortest tie m q).exponent := by
  have hscale := le_scale m q
  unfold shortest
  simp only
  refine le_trans ?_ (Decimal.min_le_exponent_reduced _)
  split
  · rename_i digits i hfound
    have hgrid := le_of_search hfound
    simp only
    omega
  · simp only
    omega

/-- The positional form of a number of the format has at most 1091 places. -/
theorem exponent_plainDecimal (negative : Bool) (m : ℕ) (h : minExponent ≤ q) :
    -1091 ≤ (plainDecimal negative m q).exponent ∧ (plainDecimal negative m q).exponent ≤ 0 := by
  have hplaces := exponent_shortest .up m q
  unfold minExponent at h
  unfold plainDecimal
  split_ifs with hzero
  · exact ⟨by norm_num, le_refl 0⟩
  · simp only
    split_ifs with hwhole
    · exact ⟨by norm_num, le_refl 0⟩
    · exact ⟨(by omega : -1091 ≤ (shortest .up m q).exponent), (not_le.mp hwhole).le⟩

end Double

/-! ### Accepted decimals -/

namespace Numeral

theorem readable_of_readFinite? {negative : Bool} {cs : List Char} {d : Decimal}
    (h : readFinite? negative cs = some d) : d.readable = true := by
  unfold readFinite? at h
  simp only at h
  split_ifs at h
  obtain ⟨e, -, he⟩ := Option.bind_eq_some_iff.mp h
  split_ifs at he with hreadable
  cases he
  exact hreadable

theorem readNamed?_ne_finite {negative : Bool} {cs : List Char} (d : Decimal) :
    readNamed? negative cs ≠ some (.finite d) := by
  unfold readNamed?
  simp only
  split
  · nofun
  · nofun
  · split_ifs <;> nofun
  · split_ifs <;> nofun
  · nofun

/-- A text beyond the limits is no numeral. -/
theorem readable_of_read? {s : String} {d : Decimal} (h : read? s = some (.finite d)) :
    d.readable = true := by
  unfold read? at h
  obtain ⟨cs, -, hcs⟩ := Option.bind_eq_some_iff.mp h
  simp only at hcs
  split at hcs
  · rename_i hfinite
    cases hcs
    exact readable_of_readFinite? hfinite
  · exact absurd hcs (readNamed?_ne_finite d)

end Numeral

namespace Check

variable {v : Json} {d : Decimal}

theorem decimalOfNumeral_eq_ok {n : Numeral} (h : decimalOfNumeral n = .ok d) : n = .finite d := by
  cases n with
  | finite e =>
    cases h
    rfl
  | infinite negative => cases h
  | nan negative signalling payload => cases h

/-- A list of parts beyond the limits is no numeral. -/
theorem readable_of_numeralOfParts? {parts : List Json}
    (h : numeralOfParts? parts = some (.finite d)) : d.readable = true := by
  unfold numeralOfParts? at h
  split at h
  · obtain ⟨negative, -, h⟩ := Option.bind_eq_some_iff.mp h
    obtain ⟨digits, -, h⟩ := Option.bind_eq_some_iff.mp h
    simp only at h
    split at h
    · cases h
    · cases h
    · cases h
    · obtain ⟨e, -, he⟩ := Option.bind_eq_some_iff.mp h
      split_ifs at he with hreadable
      cases he
      exact hreadable
  · cases h

/-- **What is accepted as an amount can be written and read again**, if it was not spelled as a binary
number beyond the format. -/
theorem payable_of_amount (hv : ∀ x, v = .float x → x.Regular) (h : amount v = .ok d) : d.Payable := by
  obtain ⟨hdecimal, hrange⟩ := amount_eq_ok_iff.mp h
  refine ⟨d.inRange_iff.mp hrange, ?_⟩
  cases v with
  | whole n =>
    obtain rfl : Decimal.ofInt n = d := Except.ok.inj hdecimal
    exact hrange.readable (show Decimal.minExponent ≤ 0 by decide) (le_refl 0)
  | float x =>
    have hnumeral := decimalOfNumeral_eq_ok hdecimal
    cases x with
    | nan => cases hnumeral
    | infinite negative => cases hnumeral
    | finite negative m q =>
      obtain rfl : Double.plainDecimal negative m q = d := Numeral.finite.inj hnumeral
      have hq := hv _ rfl negative m q rfl
      obtain ⟨hplaces, hpoint⟩ := Double.exponent_plainDecimal negative m hq
      exact hrange.readable (le_trans (by decide) hplaces) hpoint
  | str s =>
    cases s with
    | unreadable codes => cases hdecimal
    | text s =>
      simp only [decimal] at hdecimal
      split at hdecimal
      · rename_i n hread
        rw [decimalOfNumeral_eq_ok hdecimal] at hread
        exact Numeral.readable_of_read? hread
      · cases hdecimal
  | arr parts =>
    simp only [decimal, Convention.payload] at hdecimal
    split at hdecimal
    · rename_i n _ hread
      rw [decimalOfNumeral_eq_ok hdecimal] at hread
      exact readable_of_numeralOfParts? hread
    · cases hdecimal
  | null => cases hdecimal
  | bool b => cases hdecimal
  | obj ms => cases hdecimal

end Check
end TokenLedger
