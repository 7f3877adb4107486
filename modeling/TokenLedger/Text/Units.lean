/-
# Sixteen-bit units

Characters beyond the first 65536 code points are spelled by two units of sixteen bits, a high and a
low surrogate. Joining the pairs of a list of units gives code points; a surrogate without its
partner stays, and is no character.

Key definitions: `isHigh`, `isLow`, `attached`, `joined`, `characters?`.
-/

namespace TokenLedger
namespace Text

/-- Whether a unit opens a pair. -/
def isHigh (n : Nat) : Bool :=
  0xD800 ≤ n && n ≤ 0xDBFF

/-- Whether a unit closes a pair. -/
def isLow (n : Nat) : Bool :=
  0xDC00 ≤ n && n ≤ 0xDFFF

/-- The code point that a pair of surrogates spells. -/
def paired (high low : Nat) : Nat :=
  0x10000 + (high - 0xD800) * 0x400 + (low - 0xDC00)

/-- A unit in front of code points; with the first of them it may make a pair. -/
def attached (n : Nat) : List Nat → List Nat
  | [] => [n]
  | m :: rest => if isHigh n && isLow m then paired n m :: rest else n :: m :: rest

/-- The code points of a list of units, every pair of surrogates taken as one. -/
def joined (units : List Nat) : List Nat :=
  units.foldr attached []

/-- The characters of a list of code points, if all of them are characters. -/
def characters? (codes : List Nat) : Option (List Char) :=
  codes.mapM fun n => if n.isValidChar then some (Char.ofNat n) else none

end Text
end TokenLedger
