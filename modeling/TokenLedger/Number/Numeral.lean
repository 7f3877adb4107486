/-
# Decimal numerals

The texts that stand for a decimal number, an infinity, or no number. Outer blanks do not count,
underscores count nowhere, and the digits may be of any script. A numeral whose exponent lies beyond
the limits of `Decimal.readable` is refused rather than rounded.

Key definitions: `Numeral`, `Numeral.read?`, `Numeral.canonicalText`.
-/
import TokenLedger.Number.Rounded
import TokenLedger.Text.Blank

namespace TokenLedger

/-- What a decimal numeral stands for. -/
inductive Numeral where
  | finite (d : Decimal)
  | infinite (negative : Bool)
  /-- No number, with the number that may follow its name; a signalling one may not be used. -/
  | nan (negative signalling : Bool) (payload : Nat)
deriving DecidableEq, Repr

namespace Numeral

/-- The ASCII form of a character: a digit of any script becomes its ASCII digit. -/
def asciiChar? (c : Char) : Option Char :=
  if 0 < c.toNat ∧ c.toNat < 128 then some c else (Text.digitValue? c).map Nat.digitChar

/-- The characters of a numeral without outer blanks and underscores, in ASCII. -/
def asciiChars? (cs : List Char) : Option (List Char) :=
  ((Text.trim Text.isBlank cs).filter (· != '_')).mapM asciiChar?

/-- The sign in front of a text, and the rest. -/
def splitSign : List Char → Bool × List Char
  | '-' :: cs => (true, cs)
  | '+' :: cs => (false, cs)
  | cs => (false, cs)

/-- The power of ten behind the digits: nothing, or a mark, a sign and at least one digit. -/
def readExponent? : List Char → Option Int
  | [] => some 0
  | c :: cs =>
    if c = 'e' ∨ c = 'E' then
      let (negative, ds) := splitSign cs
      if ds ≠ [] ∧ ds.all Char.isDigit then
        let n : Int := Text.natOfDigits ds
        some (if negative then -n else n)
      else none
    else none

/-- The digits behind the point, and the rest. -/
def splitFraction : List Char → List Char × List Char
  | '.' :: cs => (cs.takeWhile Char.isDigit, cs.dropWhile Char.isDigit)
  | cs => ([], cs)

/-- A finite number without its sign: digits with an optional point among them, and a power of
ten. -/
def readFinite? (negative : Bool) (cs : List Char) : Option Decimal :=
  let whole := cs.takeWhile Char.isDigit
  let (fraction, tail) := splitFraction (cs.dropWhile Char.isDigit)
  let digits := whole ++ fraction
  if digits = [] then none
  else do
    let e ← readExponent? tail
    let d : Decimal := ⟨negative, Text.natOfDigits digits, e - fraction.length⟩
    if d.readable then some d else none

/-- The name of a value that is not finite, in lower case, with the digits that may follow it. -/
def readNamed? (negative : Bool) (cs : List Char) : Option Numeral :=
  let payload? (signalling : Bool) (ds : List Char) : Option Numeral :=
    if ds.all Char.isDigit then some (.nan negative signalling (Text.natOfDigits ds)) else none
  match cs with
  | ['i', 'n', 'f'] => some (.infinite negative)
  | ['i', 'n', 'f', 'i', 'n', 'i', 't', 'y'] => some (.infinite negative)
  | 'n' :: 'a' :: 'n' :: ds => payload? false ds
  | 's' :: 'n' :: 'a' :: 'n' :: ds => payload? true ds
  | _ => none

/-- What a text stands for, if it is a numeral. -/
def read? (s : String) : Option Numeral := do
  let cs ← asciiChars? s.toList
  let (negative, body) := splitSign cs
  match readFinite? negative body with
  | some d => some (.finite d)
  | none => readNamed? negative (body.map Char.toLower)

/-- The canonical text of what a numeral stands for. The number behind a name is cut to the digits
of the ledger's precision. -/
def canonicalText : Numeral → Except ArithmeticFault String
  | .finite d => d.canonicalText
  | .infinite negative => .ok (String.ofList (Decimal.sign negative) ++ "Infinity")
  | .nan _ true _ => .error .invalid
  | .nan negative false payload =>
    let kept := payload % Nat.pow 10 Precision.ledger.digits
    .ok (String.ofList (Decimal.sign negative) ++ "NaN" ++
      (if kept = 0 then "" else String.ofList (Nat.toDigits 10 kept)))

end Numeral
end TokenLedger
