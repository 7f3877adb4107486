/-
# Binary floating-point numbers

A number of the format binary64: a sign, an integer below two to the fifty-third and a power of two.
`ofDecimal` takes the number nearest to a decimal, the even one of two; `shortest` finds the fewest
digits that identify a number, by testing both neighbours of it on ever finer decimal grids in exact
integer arithmetic. Two decimals of a number are built on them. `textDecimal` keeps a decimal place
where it is positional, settles a tie between two shortest decimals for the even digit, and is what
`text` writes, with a power of ten for numbers far from one. `plainDecimal` is always positional,
has no decimal place it does not need, and settles a tie for the greater digit.

Key definitions: `Double`, `Double.ofDecimal`, `Double.nearest`, `Double.readsBack`,
`Double.shortest`, `Double.text`, `Double.textDecimal`, `Double.plainDecimal`.
-/
import TokenLedger.Number.Numeral

namespace TokenLedger

/-- A number of the format binary64. A finite one is the significand times two to the exponent. -/
inductive Double where
  | nan
  | infinite (negative : Bool)
  | finite (negative : Bool) (significand : Nat) (exponent : Int)
deriving DecidableEq, Repr

namespace Double

/-- The least exponent. -/
def minExponent : Int := -1074

/-- The greatest exponent. -/
def maxExponent : Int := 971

/-- Whether a number has no fraction. -/
def isWhole (significand : Nat) (exponent : Int) : Bool :=
  if 0 ≤ exponent then true else significand % Nat.pow 2 (-exponent).toNat == 0

/-- The number without its fraction. -/
def wholePart (significand : Nat) (exponent : Int) : Nat :=
  if 0 ≤ exponent then significand * Nat.pow 2 exponent.toNat
  else significand / Nat.pow 2 (-exponent).toNat

/-! ### The nearest number to a decimal -/

/-- The quotient `num / den` over two to `e`, as a fraction of naturals. -/
def scaled (num den : Nat) (e : Int) : Nat × Nat :=
  if 0 ≤ e then (num, den * Nat.pow 2 e.toNat) else (num * Nat.pow 2 (-e).toNat, den)

/-- The exponent that gives `num / den` a significand of fifty-three bits, or the least one. -/
def exponentOf (num den : Nat) : Int :=
  let e : Int := (num.log2 : Int) - den.log2 - 53
  let (n, d) := scaled num den e
  max minExponent (if Nat.pow 2 53 ≤ n / d then e + 1 else e)

/-- The number nearest to a positive fraction. -/
def ofFraction (negative : Bool) (num den : Nat) : Double :=
  let e := exponentOf num den
  let (n, d) := scaled num den e
  let m := roundHalfEven n d
  let (m, e) := if m = Nat.pow 2 53 then (Nat.pow 2 52, e + 1) else (m, e)
  if maxExponent < e then .infinite negative else .finite negative m e

/-- The number nearest to a decimal. A leading digit far from the point decides by itself. -/
def ofDecimal (d : Decimal) : Double :=
  if d.coefficient = 0 ∨ d.leading < -400 then .finite d.negative 0 minExponent
  else if 400 < d.leading then .infinite d.negative
  else ofFraction d.negative (d.coefficient * Nat.pow 10 d.exponent.toNat)
    (Nat.pow 10 (-d.exponent).toNat)

/-- The number nearest to a fraction, as a fraction. One beyond the numbers is left as it is. -/
def nearest (num den : Nat) : Nat × Nat :=
  match ofFraction false num den with
  | .finite _ m q => (m * Nat.pow 2 q.toNat, Nat.pow 2 (-q).toNat)
  | _ => (num, den)

/-! ### The fewest digits -/

/-- Compares `a` times ten to `i` with `n` times two to `j`. -/
def compareScaled (a : Nat) (i : Int) (n : Nat) (j : Int) : Ordering :=
  compare (a * Nat.pow 10 i.toNat * Nat.pow 2 (-j).toNat)
    (n * Nat.pow 2 j.toNat * Nat.pow 10 (-i).toNat)

/-- Whether `digits` times ten to `i` lies among the reals whose nearest number is the positive
number `m` times two to `q`. Below a power of two the gap to the neighbour is half as wide. -/
def readsBack (m : Nat) (q : Int) (digits : Nat) (i : Int) : Bool :=
  let low := if m = Nat.pow 2 52 ∧ minExponent < q then 4 * m - 1 else 4 * m - 2
  let even := m % 2 == 0
  let atLow := compareScaled digits i low (q - 2)
  let atHigh := compareScaled digits i (4 * m + 2) (q - 2)
  (atLow == .gt || even && atLow == .eq) && (atHigh == .lt || even && atHigh == .eq)

/-- Which of two equally near decimals of one length is taken. -/
inductive Tie where
  | even
  | up
deriving DecidableEq, Repr

/-- The decimal on the grid of ten to `i` that identifies a number, the nearer of two. -/
def onGrid? (tie : Tie) (m : Nat) (q : Int) (i : Int) : Option Nat :=
  let below := (m * Nat.pow 2 q.toNat * Nat.pow 10 (-i).toNat) /
    (Nat.pow 2 (-q).toNat * Nat.pow 10 i.toNat)
  match readsBack m q below i, readsBack m q (below + 1) i with
  | false, false => none
  | true, false => some below
  | false, true => some (below + 1)
  | true, true =>
    match compareScaled (2 * below + 1) i (2 * m) q with
    | .lt => some (below + 1)
    | .gt => some below
    | .eq => some (if tie = .even ∧ below % 2 = 0 then below else below + 1)

/-- The power of ten above the leading digit of a positive number. -/
def scale (m : Nat) (q : Int) : Int :=
  let whole := m * Nat.pow 2 q.toNat
  let parts := Nat.pow 2 (-q).toNat
  if parts ≤ whole then Text.digitCount (whole / parts)
  else
    let places := Text.digitCount (parts / whole) - 1
    if whole * Nat.pow 10 places < parts then -(places : Int) else 1 - (places : Int)

/-- The first grid, of those with `n` to seventeen digits, on which a decimal identifies a
number. -/
def search (tie : Tie) (m : Nat) (q top : Int) : Nat → Option (Nat × Int)
  | 0 => none
  | left + 1 =>
    let i := top - (17 - left)
    match onGrid? tie m q i with
    | some digits => some (digits, i)
    | none => search tie m q top left

/-- The decimal of the fewest digits that identifies the positive number `m` times two to `q`,
without zeros at its end. Seventeen digits always suffice; the exact value stands in where they do
not. -/
def shortest (tie : Tie) (m : Nat) (q : Int) : Decimal :=
  let found : Decimal :=
    match search tie m q (scale m q) 17 with
    | some (digits, i) => ⟨false, digits, i⟩
    | none => ⟨false, m * Nat.pow 2 q.toNat * Nat.pow 5 (-q).toNat, -((-q).toNat : Int)⟩
  found.reduced

/-! ### Written forms -/

/-- The decimal that the form with a decimal place spells out: it has at least one place where it is
positional, that is where the leading digit stands from the fourth place behind the point to the
sixteenth before it. -/
def textDecimal (negative : Bool) (m : Nat) (q : Int) : Decimal :=
  if m = 0 then ⟨negative, 0, -1⟩
  else
    let d := shortest .even m q
    if -4 ≤ d.leading ∧ d.leading < 16 ∧ 0 ≤ d.exponent then
      ⟨negative, d.coefficient * Nat.pow 10 (d.exponent.toNat + 1), -1⟩
    else ⟨negative, d.coefficient, d.exponent⟩

/-- The decimal that the positional form spells out. -/
def plainDecimal (negative : Bool) (m : Nat) (q : Int) : Decimal :=
  if m = 0 then ⟨negative, 0, 0⟩
  else
    let d := shortest .up m q
    if 0 ≤ d.exponent then ⟨negative, d.coefficient * Nat.pow 10 d.exponent.toNat, 0⟩
    else ⟨negative, d.coefficient, d.exponent⟩

/-- A power of ten with its sign and at least two digits. -/
def wideExponent (e : Int) : List Char :=
  (if e < 0 then '-' else '+') :: Text.padLeft 2 '0' (Nat.toDigits 10 e.natAbs)

/-- The form with a decimal place, or with a power of ten where the number is far from one. -/
def text : Double → String
  | .nan => "NaN"
  | .infinite negative => String.ofList (Decimal.sign negative) ++ "Infinity"
  | .finite negative m q =>
    let d := textDecimal negative m q
    let digits := Nat.toDigits 10 d.coefficient
    let body :=
      if -4 ≤ d.leading ∧ d.leading < 16 then Decimal.positional digits d.exponent
      else Decimal.pointed digits ++ 'e' :: wideExponent d.leading
    String.ofList (Decimal.sign negative ++ body)

/-- What the form with a decimal place stands for, as a decimal numeral. -/
def textNumeral : Double → Numeral
  | .nan => .nan false false 0
  | .infinite negative => .infinite negative
  | .finite negative m q => .finite (textDecimal negative m q)

/-- What the positional form stands for, as a decimal numeral. -/
def plainNumeral : Double → Numeral
  | .nan => .nan false false 0
  | .infinite negative => .infinite negative
  | .finite negative m q => .finite (plainDecimal negative m q)

end Double
end TokenLedger
