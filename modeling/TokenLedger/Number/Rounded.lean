/-
# Decimals of limited precision

A decimal rounded to a number of significant digits, a half to the even neighbour, with limits on
the power of ten of its leading digit: beyond the upper limit there is no rounded value, and near
the lower one fewer digits are kept. `canonicalText` is the one text of a value that the ledger
hashes: the rounded decimal without an exponent and without zeros at the end of its decimal places.

Key definitions: `Precision`, `Precision.ledger`, `Decimal.rounded`, `Decimal.canonicalText`.
-/
import TokenLedger.Number.Decimal
import TokenLedger.Number.Rounding

namespace TokenLedger

/-- How many significant digits are kept, and how far the leading digit may be from the point. -/
structure Precision where
  digits : Nat
  maxLeading : Int
  minLeading : Int

/-- The precision of the ledger. -/
def Precision.ledger : Precision :=
  ⟨28, 999999, -999999⟩

/-- The least exponent of a rounded decimal. -/
def Precision.minExponent (p : Precision) : Int :=
  p.minLeading - (p.digits - 1)

/-- Why a decimal has no canonical text. -/
inductive ArithmeticFault where
  /-- The leading digit is beyond the upper limit. -/
  | overflow
  /-- The text is no number, or stands for one that may not be computed with. -/
  | invalid
deriving DecidableEq, Repr

namespace Decimal

/-- The decimal rounded to a multiple of ten to `e`, unless its exponent is at least that already.
Where all digits are dropped and the first of them is below a half, the result is zero. -/
def roundTo (d : Decimal) (e : Int) : Decimal :=
  if e ≤ d.exponent then d
  else
    let dropped := (e - d.exponent).toNat
    if Text.digitCount d.coefficient < dropped then ⟨d.negative, 0, e⟩
    else ⟨d.negative, roundHalfEven d.coefficient (Nat.pow 10 dropped), e⟩

/-- The exponent that a decimal is rounded to: its own, or the least that leaves it no more digits
than the precision allows. -/
def roundingExponent (p : Precision) (d : Decimal) : Int :=
  max d.exponent (max (d.leading - (p.digits - 1)) p.minExponent)

/-- The decimal rounded to a precision. -/
def rounded (p : Precision) (d : Decimal) : Except ArithmeticFault Decimal :=
  let r := d.roundTo (d.roundingExponent p)
  if d.coefficient ≠ 0 ∧ r.coefficient ≠ 0 ∧ p.maxLeading < r.leading then .error .overflow
  else .ok r

/-- The text of a value: rounded to the ledger's precision, with no exponent and no superfluous
zeros. -/
def canonicalText (d : Decimal) : Except ArithmeticFault String :=
  (d.rounded .ledger).map fun r => r.reduced.plain

end Decimal
end TokenLedger
