/-
# Reading JSON

A strict reader of JSON text. White space is space, tab, line feed and carriage return; strings hold
no raw control character; beside the numbers of the grammar the tokens `NaN`, `Infinity` and
`-Infinity` are read. Surrogate escapes are joined in pairs; one without its partner is a fault, or
leaves the string no text. Nesting and the length of numbers are limited. A `Dialect` fixes what may
differ: the number of arrays and objects that may stand around a value, whether surrogates may stand
alone or even have a substitute, and which numbers are limited.

Each reader takes the characters at hand and returns what it read with those that follow. Nested
values are read with one less of depth, and the items of an array or object with the length of the
text as their bound, so all of it is structural recursion.

Key definitions: `Json.Dialect`, `Json.Fault`, `Json.Reader`, `Json.substitute`, `Json.value`,
`Json.readCharacters`, `Json.read`.
-/
import TokenLedger.Json.Value
import TokenLedger.Number.Whole

namespace TokenLedger
namespace Json

/-- Why a text is no JSON value. -/
inductive Fault where
  | malformed
  | longNumber
  | tooDeep
deriving DecidableEq, Repr

/-- Which numbers are limited in length, by the digits before the point. -/
inductive NumberLimit where
  | everyNumber
  | wholeNumbers
deriving DecidableEq, Repr

/-- What a reader accepts. -/
structure Dialect where
  /-- How many arrays and objects may stand around a value. -/
  depth : Nat
  /-- Whether a surrogate escape may stand without its partner. -/
  loneSurrogates : Bool
  /-- Whether what is no character has a substitute in strings. -/
  substitutes : Bool
  limit : NumberLimit

/-- A step of reading: a result and the rest of the text, or a fault. -/
abbrev Reader (α : Type) := List Char → Except Fault (α × List Char)

def isGap (c : Char) : Bool :=
  c == ' ' || c == '\t' || c == '\n' || c == '\r'

/-- The text without the white space at its start. -/
def skipGap (cs : List Char) : List Char :=
  cs.dropWhile isGap

/-! ### Strings -/

def hexValue? (c : Char) : Option Nat :=
  if '0' ≤ c ∧ c ≤ '9' then some (c.toNat - 48)
  else if 'a' ≤ c ∧ c ≤ 'f' then some (c.toNat - 87)
  else if 'A' ≤ c ∧ c ≤ 'F' then some (c.toNat - 55)
  else none

/-- The 16-bit unit of four hexadecimal digits. -/
def unit? (a b c d : Char) : Option Nat := do
  let a ← hexValue? a
  let b ← hexValue? b
  let c ← hexValue? c
  let d ← hexValue? d
  return ((a * 16 + b) * 16 + c) * 16 + d

/-- The character that a letter behind a backslash stands for. -/
def escaped? : Char → Option Char
  | '"' => some '"'
  | '\\' => some '\\'
  | '/' => some '/'
  | 'b' => some '\x08'
  | 'f' => some '\x0c'
  | 'n' => some '\n'
  | 'r' => some '\r'
  | 't' => some '\t'
  | _ => none

/-- A code point as it stands in a text: a character as it is, and a surrogate as a control
character and a character of the blocks behind Latin-1. No string holds a control character, so this
is the spelling of nothing else; the control character itself is doubled to be none of these
either. -/
def substitute (n : Nat) : List Char :=
  if n = 0x1A then ['\x1A', '\x1A']
  else if n.isValidChar then [Char.ofNat n]
  else ['\x1A', Char.ofNat (n - 0xD800 + 0x100)]

/-- The surrogate that is spelled by a control character and this character. -/
def substituted? (c : Char) : Option Nat :=
  if 0x100 ≤ c.toNat ∧ c.toNat < 0x900 then some (c.toNat - 0x100 + 0xD800) else none

/-- Whether a text starts with the escape of a unit. -/
def startsWithUnit : List Char → Bool
  | '\\' :: 'u' :: _ => true
  | _ => false

/-- The code points of a string up to its closing quote, and the text behind it. Two escapes side by
side may make a pair. -/
def codes (d : Dialect) : Reader (List Nat)
  | '"' :: rest => .ok ([], rest)
  | '\\' :: 'u' :: a :: b :: c :: e :: rest =>
    match unit? a b c e, codes d rest with
    | some n, .ok (ns, rest') =>
      .ok (if startsWithUnit rest then Text.attached n ns else n :: ns, rest')
    | _, _ => .error .malformed
  | '\\' :: e :: rest =>
    match escaped? e, codes d rest with
    | some c, .ok (ns, rest') => .ok (c.toNat :: ns, rest')
    | _, _ => .error .malformed
  | '\x1A' :: c :: rest =>
    if d.substitutes then
      match substituted? c, codes d rest with
      | some n, .ok (ns, rest') => .ok (n :: ns, rest')
      | _, _ => .error .malformed
    else .error .malformed
  | c :: rest =>
    if c.toNat < 0x20 ∨ c = '\\' then .error .malformed
    else match codes d rest with
      | .ok (ns, rest') => .ok (c.toNat :: ns, rest')
      | .error f => .error f
  | [] => .error .malformed

/-- A string behind its opening quote. -/
def string (d : Dialect) : Reader RawText := fun cs => do
  let (ns, rest) ← codes d cs
  let s := RawText.ofCodes ns
  if d.loneSurrogates || s.readable then return (s, rest) else throw .malformed

/-! ### Numbers -/

/-- The digits behind a point, if there are both, and the rest. -/
def fractionDigits : List Char → List Char × List Char
  | '.' :: cs =>
    match cs.takeWhile Char.isDigit with
    | [] => ([], '.' :: cs)
    | ds => (ds, cs.dropWhile Char.isDigit)
  | cs => ([], cs)

/-- The power of ten, if there are a mark and digits, and the rest. -/
def exponentPart : List Char → Option Int × List Char
  | c :: cs =>
    if c = 'e' ∨ c = 'E' then
      let (negative, body) := Numeral.splitSign cs
      match body.takeWhile Char.isDigit with
      | [] => (none, c :: cs)
      | ds => (some (Whole.ofDigits negative ds), body.dropWhile Char.isDigit)
    else (none, c :: cs)
  | [] => (none, [])

/-- Whether a number with these digits before its point is too long. -/
def NumberLimit.excludes (l : NumberLimit) (isWhole : Bool) (digits : List Char) : Bool :=
  match l with
  | .everyNumber => Whole.exceeds digits
  | .wholeNumbers => isWhole && Whole.exceeds digits

/-- A number behind its sign. A point or a power of ten makes it binary. -/
def number (d : Dialect) (negative : Bool) : Reader Json := fun cs =>
  let (digits, rest) := Whole.splitDigits cs
  let (fraction, rest) := fractionDigits rest
  let (power, rest) := exponentPart rest
  let isWhole := fraction = [] ∧ power = none
  if digits = [] then .error .malformed
  else if d.limit.excludes isWhole digits then .error .longNumber
  else if isWhole then .ok (.whole (Whole.ofDigits negative digits), rest)
  else
    let n := Text.natOfDigits (digits ++ fraction)
    .ok (.float (.ofDecimal ⟨negative, n, power.getD 0 - fraction.length⟩), rest)

/-! ### Values -/

/-- A word of the grammar other than a string or a plain number, and what it stands for. -/
def word? : List Char → Option (Json × List Char)
  | 'n' :: 'u' :: 'l' :: 'l' :: cs => some (.null, cs)
  | 't' :: 'r' :: 'u' :: 'e' :: cs => some (.bool true, cs)
  | 'f' :: 'a' :: 'l' :: 's' :: 'e' :: cs => some (.bool false, cs)
  | 'N' :: 'a' :: 'N' :: cs => some (.float .nan, cs)
  | 'I' :: 'n' :: 'f' :: 'i' :: 'n' :: 'i' :: 't' :: 'y' :: cs =>
    some (.float (.infinite false), cs)
  | '-' :: 'I' :: 'n' :: 'f' :: 'i' :: 'n' :: 'i' :: 't' :: 'y' :: cs =>
    some (.float (.infinite true), cs)
  | _ => none

/-- A word or a number. -/
def scalar (d : Dialect) : Reader Json := fun cs =>
  match word? cs with
  | some r => .ok r
  | none =>
    match cs with
    | '-' :: cs => number d true cs
    | cs => number d false cs

/-- Items with commas between them up to a closing mark, at least one; `bound` is more than their
number. -/
def items {α : Type} (item : Reader α) (close : Char) : Nat → Reader (List α)
  | 0 => fun _ => .error .malformed
  | bound + 1 => fun cs => do
    let (x, rest) ← item cs
    match skipGap rest with
    | c :: rest =>
      if c = ',' then
        let (xs, rest) ← items item close bound rest
        return (x :: xs, rest)
      else if c = close then return ([x], rest)
      else throw .malformed
    | [] => throw .malformed

/-- A member of an object: a name, a colon and a value. -/
def member (d : Dialect) (value : Reader Json) : Reader (RawText × Json) := fun cs =>
  match skipGap cs with
  | '"' :: cs => do
    let (name, rest) ← string d cs
    match skipGap rest with
    | ':' :: rest =>
      let (v, rest) ← value rest
      return ((name, v), rest)
    | _ => throw .malformed
  | _ => .error .malformed

/-- A value whose items and members, if it has any, are read by `nested`. -/
def valueWith (d : Dialect) (nested : Option (Reader Json)) : Reader Json := fun cs =>
  match skipGap cs with
  | '"' :: cs => do
    let (s, rest) ← string d cs
    return (.str s, rest)
  | '[' :: cs =>
    match skipGap cs with
    | ']' :: rest => .ok (.arr [], rest)
    | _ =>
      match nested with
      | none => .error .tooDeep
      | some value => do
        let (vs, rest) ← items value ']' (cs.length + 1) cs
        return (.arr vs, rest)
  | '\x7b' :: cs =>
    match skipGap cs with
    | '\x7d' :: rest => .ok (.obj [], rest)
    | _ =>
      match nested with
      | none => .error .tooDeep
      | some value => do
        let (ms, rest) ← items (member d value) '\x7d' (cs.length + 1) cs
        return (.obj ms, rest)
  | cs => scalar d cs

/-- A value around which `depth` more arrays and objects could still stand. -/
def value (d : Dialect) : Nat → Reader Json
  | 0 => valueWith d none
  | depth + 1 => valueWith d (some (value d depth))

/-- The value that a whole text stands for, given as characters. -/
def readCharacters (d : Dialect) (cs : List Char) : Except Fault Json := do
  let (v, rest) ← value d d.depth cs
  if skipGap rest = [] then return v else throw .malformed

/-- The value that a whole text stands for. -/
def read (d : Dialect) (s : String) : Except Fault Json :=
  readCharacters d s.toList

end Json
end TokenLedger
