/-
# Decimal numbers

A decimal number is a sign, a coefficient and a power of ten. The spelling is part of the number:
`3`, `3.0` and `30E-1` are three decimals of one value, and zero has two signs. `text` writes all of
it, `plain` writes the value without an exponent.

Key definitions: `Decimal`, `Decimal.text`, `Decimal.plain`, `Decimal.belowZero`, `Decimal.exceeds`,
`Decimal.reduced`, `Decimal.readable`.
-/
import TokenLedger.Text.Digit

namespace TokenLedger

/-- A finite decimal number: plus or minus the coefficient times ten to the exponent. -/
structure Decimal where
  negative : Bool
  coefficient : Nat
  exponent : Int
deriving DecidableEq, Repr

namespace Decimal

/-- The decimal of a whole number. -/
def ofInt (n : Int) : Decimal :=
  ⟨n < 0, n.natAbs, 0⟩

def zero : Decimal :=
  ofInt 0

/-- The power of ten of the leading digit. -/
def leading (d : Decimal) : Int :=
  d.exponent + Text.digitCount d.coefficient - 1

/-! ### Comparison with whole numbers -/

/-- Whether the value is less than zero; minus zero is not. -/
def belowZero (d : Decimal) : Bool :=
  d.negative && d.coefficient != 0

/-- Whether the absolute value is greater than a natural. An exponent far from zero decides by
itself, so no power of ten is formed that is much longer than the digits at hand. -/
def exceeds (d : Decimal) (bound : Nat) : Bool :=
  if d.coefficient = 0 then false
  else if (Text.digitCount bound : Int) ≤ d.leading then true
  else if 0 ≤ d.exponent then bound < d.coefficient * Nat.pow 10 d.exponent.toNat
  else if d.leading < 0 then bound = 0
  else bound * Nat.pow 10 (-d.exponent).toNat < d.coefficient

/-! ### Written forms -/

/-- The sign as it is written: nothing before a number that is not negative. -/
def sign (negative : Bool) : List Char :=
  if negative then ['-'] else []

/-- The digits of a coefficient with zeros behind them, or with a decimal point, as the power of
ten asks. -/
def positional (digits : List Char) (exponent : Int) : List Char :=
  if 0 ≤ exponent then digits ++ List.replicate exponent.toNat '0'
  else
    let places := (-exponent).toNat
    if places < digits.length then
      digits.take (digits.length - places) ++ '.' :: digits.drop (digits.length - places)
    else '0' :: '.' :: (List.replicate (places - digits.length) '0' ++ digits)

/-- A power of ten with its sign. -/
def signedExponent (e : Int) : List Char :=
  (if e < 0 then '-' else '+') :: Nat.toDigits 10 e.natAbs

/-- The digits with a point behind the first, if more follow. -/
def pointed : List Char → List Char
  | [] => []
  | [c] => [c]
  | c :: cs => c :: '.' :: cs

/-- The written form that keeps coefficient and exponent: positional if the exponent is at most zero
and the leading digit stands at the sixth decimal place or before it, otherwise with the power of
ten of the leading digit. -/
def text (d : Decimal) : String :=
  let digits := Nat.toDigits 10 d.coefficient
  let body :=
    if d.exponent ≤ 0 ∧ -6 ≤ d.leading then positional digits d.exponent
    else pointed digits ++ 'E' :: signedExponent d.leading
  String.ofList (sign d.negative ++ body)

/-- The written form without an exponent. -/
def plain (d : Decimal) : String :=
  String.ofList (sign d.negative ++ positional (Nat.toDigits 10 d.coefficient) d.exponent)

/-- The same value with the shortest coefficient: no zeros at its end, and exponent zero for
zero. -/
def reduced (d : Decimal) : Decimal :=
  if h : d.coefficient = 0 then ⟨d.negative, 0, 0⟩
  else if d.coefficient % 10 = 0 then reduced ⟨d.negative, d.coefficient / 10, d.exponent + 1⟩
  else d
termination_by d.coefficient
decreasing_by exact Nat.div_lt_self (Nat.pos_of_ne_zero h) (by decide)

/-! ### Limits -/

/-- The greatest power of ten of a leading digit. -/
def maxLeading : Int := 999999999999999999

/-- The least exponent. -/
def minExponent : Int := -1999999999999999997

/-- Whether a decimal lies within the limits of what can be read. -/
def readable (d : Decimal) : Bool :=
  d.leading ≤ maxLeading && minExponent ≤ d.exponent

end Decimal
end TokenLedger
