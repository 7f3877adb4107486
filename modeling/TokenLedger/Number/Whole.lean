/-
# Whole numbers in text

A plain numeral is an optional minus sign and digits, of which the first is no zero unless it stands
alone. It has at most 4300 digits; a longer run of digits is refused as such, whatever follows it.
A text that is no plain numeral may still stand for one: around it there may be white space, before
it a plus sign, before its digits a zero with zeros and underscores behind it, within it single
underscores, and behind it a point and zeros. The zeros may stand before the minus sign or behind
it, but not on both sides. Only a plain numeral is refused for its length; any other text is then
malformed.

Key definitions: `Whole.Fault`, `Whole.readPlain`, `Whole.simplified?`, `Whole.read`, `Whole.text`,
`Whole.fits`.
-/
import TokenLedger.Number.Numeral

namespace TokenLedger
namespace Whole

/-- Why a text is no whole number. -/
inductive Fault where
  | malformed
  | tooLong
deriving DecidableEq, Repr

/-- Whether a whole number is one of the signed numbers of sixty-four bits. -/
def fits : Int → Bool
  | .ofNat k => k < Nat.pow 2 63
  -- this is minus `k + 1`
  | .negSucc k => k < Nat.pow 2 63

/-- The written form of a whole number. -/
def text (n : Int) : String :=
  String.ofList (Decimal.sign (n < 0) ++ Nat.toDigits 10 n.natAbs)

/-! ### Plain numerals -/

/-- The most digits of a plain numeral. -/
def maxLength : Nat := 4300

/-- Whether a numeral with these digits is too long. -/
def exceeds (digits : List Char) : Bool :=
  maxLength < digits.length

/-- The digits at the start of a text, a zero alone or digits that start with no zero, and the
rest. -/
def splitDigits : List Char → List Char × List Char
  | '0' :: cs => (['0'], cs)
  | cs => (cs.takeWhile Char.isDigit, cs.dropWhile Char.isDigit)

/-- The number of digits behind a sign. -/
def ofDigits (negative : Bool) (digits : List Char) : Int :=
  let n : Int := Text.natOfDigits digits
  if negative then -n else n

/-- The number of a plain numeral behind its sign. -/
def readUnsigned (negative : Bool) (cs : List Char) : Except Fault Int :=
  let (digits, rest) := splitDigits cs
  if exceeds digits then .error .tooLong
  else if digits = [] ∨ rest ≠ [] then .error .malformed
  else .ok (ofDigits negative digits)

/-- The number of a plain numeral. -/
def readPlain : List Char → Except Fault Int
  | '-' :: cs => readUnsigned true cs
  | cs => readUnsigned false cs

/-! ### Other spellings -/

/-- The text without a plus sign in front of it; a minus sign may not follow the plus sign. -/
def withoutPlus? : List Char → Option (List Char)
  | '+' :: '-' :: _ => none
  | '+' :: cs => some cs
  | cs => some cs

/-- What follows the zeros and underscores behind a zero: a number or its minus sign, or a point
with the character in front of it. If nothing follows, the last of those characters is left. -/
def afterZeros? (last : Char) : List Char → Option (List Char)
  | [] => some [last]
  | c :: cs =>
    if c = '0' ∨ c = '_' then afterZeros? c cs
    else if c = '-' ∨ c.isDigit then some (c :: cs)
    else if c = '.' then some (last :: c :: cs)
    else none

/-- The text without superfluous zeros in front of it. -/
def withoutZeros? : List Char → Option (List Char)
  | '0' :: cs => afterZeros? '0' cs
  | c :: cs => if c = '-' ∨ c.isDigit then some (c :: cs) else none
  | [] => none

/-- The text without superfluous zeros in front of it, or behind the minus sign in front of it. -/
def withoutSignedZeros? : List Char → Option (List Char)
  | '-' :: cs => (withoutZeros? cs).map ('-' :: ·)
  | cs => withoutZeros? cs

/-- The text without a point and zeros, at least one, at its end. -/
def withoutPlaces (cs : List Char) : List Char :=
  match cs.dropWhile (· != '.') with
  | '.' :: zeros =>
    if zeros ≠ [] ∧ zeros.all (· == '0') then cs.takeWhile (· != '.') else cs
  | _ => cs

/-- Whether two underscores stand side by side. -/
def hasGap : List Char → Bool
  | '_' :: '_' :: _ => true
  | _ :: cs => hasGap cs
  | [] => false

/-- The text without its underscores, if each of them stands alone between other characters. -/
def withoutUnderscores (cs : List Char) : List Char :=
  if cs.head? = some '_' ∨ cs.getLast? = some '_' ∨ hasGap cs then cs
  else cs.filter (· != '_')

/-- The plain numeral that a text stands for, if its characters allow one. -/
def simplified? (cs : List Char) : Option (List Char) := do
  let cs ← withoutPlus? (Text.trim Text.isSpace cs)
  let cs ← withoutSignedZeros? cs
  return withoutUnderscores (withoutPlaces cs)

/-- The whole number that a text stands for. -/
def read (s : String) : Except Fault Int :=
  match readPlain s.toList with
  | .ok n => .ok n
  | .error .tooLong => .error .tooLong
  | .error .malformed =>
    match (simplified? s.toList).map readPlain with
    | some (.ok n) => .ok n
    | _ => .error .malformed

end Whole
end TokenLedger
