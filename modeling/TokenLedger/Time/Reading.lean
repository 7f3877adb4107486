/-
# Reading points in time

A point in time is given as text or as a number. A text is a date of ten characters, or a date and a
time of day with a `T`, a space or an underscore between them; seconds and their fraction may be
absent, digits of the fraction behind the sixth are dropped, and a zone may follow, which does not
matter. A number, also as text, counts seconds from the start of 1970, or milliseconds if its
absolute value is greater than `millisecondsFrom`. One with a point, behind which a power of ten may
stand, is binary: its fraction is turned into microseconds by binary arithmetic, and a half of one
is rounded up.

Texts and counts reach the year zero, which the calendar does not have.

Key definitions: `DateTime.ofText?`, `DateTime.ofCount?`, `DateTime.ofDouble?`,
`DateTime.ofNumeral?`, `Check.dateTime`.
-/
import TokenLedger.Schema.Check
import TokenLedger.Time.DateTime

namespace TokenLedger
namespace DateTime

/-! ### Dates and times of day -/

/-- Two digits as a number. -/
def pair? (a b : Char) : Option Nat :=
  if a.isDigit && b.isDigit then some (Text.natOfDigits [a, b]) else none

/-- A date at the start of a text, and the rest. -/
def takeDate? : List Char → Option ((Nat × Nat × Nat) × List Char)
  | a :: b :: c :: d :: '-' :: e :: f :: '-' :: g :: h :: rest => do
    let century ← pair? a b
    let year ← pair? c d
    let month ← pair? e f
    let day ← pair? g h
    return ((century * 100 + year, month, day), rest)
  | _ => none

/-- The microseconds of the digits of a fraction; missing digits are zeros. -/
def microsecondOf (digits : List Char) : Nat :=
  Text.natOfDigits ((digits ++ List.replicate 6 '0').take 6)

/-- The seconds and microseconds behind hours and minutes, and the rest. -/
def takeSeconds? : List Char → Option ((Nat × Nat) × List Char)
  | ':' :: a :: b :: mark :: rest => do
    let second ← pair? a b
    if mark = '.' ∨ mark = ',' then
      match rest.takeWhile Char.isDigit with
      | [] => none
      | digits => return ((second, microsecondOf digits), rest.dropWhile Char.isDigit)
    else return ((second, 0), mark :: rest)
  | [':', a, b] => do
    let second ← pair? a b
    return ((second, 0), [])
  | ':' :: _ => none
  | rest => some ((0, 0), rest)

/-- Whether hours and minutes make a distance of less than a day from the zero meridian. -/
def isOffset (a b c d : Char) : Bool :=
  match pair? a b, pair? c d with
  | some hours, some minutes => hours < 24 && minutes < 60
  | _, _ => false

/-- Whether a text is a zone, or nothing. -/
def isZone : List Char → Bool
  | [] => true
  | [c] => c == 'Z' || c == 'z'
  | sign :: a :: b :: rest =>
    (sign == '+' || sign == '-' || sign == '\u2212') &&
      match rest with
      | [':', c, d] => isOffset a b c d
      | [c, d] => isOffset a b c d
      | _ => false
  | _ => false

/-- A time of day with what may follow it, and nothing else. -/
def timeOfDay? : List Char → Option (Nat × Nat × Nat × Nat)
  | a :: b :: ':' :: c :: d :: rest => do
    let hour ← pair? a b
    let minute ← pair? c d
    let ((second, microsecond), rest) ← takeSeconds? rest
    if isZone rest then return (hour, minute, second, microsecond) else none
  | _ => none

/-- The point in time that a date, or a date and a time of day, names. Its year may be zero. -/
def ofText? (cs : List Char) : Option DateTime := do
  let ((year, month, day), rest) ← takeDate? cs
  let t ← match rest with
    | [] => some ⟨year, month, day, 0, 0, 0, 0⟩
    | mark :: time =>
      if mark = 'T' ∨ mark = 't' ∨ mark = ' ' ∨ mark = '_' then
        (timeOfDay? time).map fun (hour, minute, second, microsecond) =>
          ⟨year, month, day, hour, minute, second, microsecond⟩
      else none
  if t.WellFormed then return t else none

/-! ### Counts -/

/-- The greatest absolute value that counts seconds; a greater one counts milliseconds. -/
def millisecondsFrom : Nat := 20000000000

/-- The first and the last second that a count can name: the years zero to 9999. -/
def firstSecond : Int := -62167219200

def lastSecond : Int := 253402300799

/-- The point in time that lies a number of microseconds after the start of 1970. Its year may be
zero. -/
def ofMicroseconds? (n : Int) : Option DateTime :=
  let seconds := n.fdiv 1000000
  if firstSecond ≤ seconds ∧ seconds ≤ lastSecond then
    some (ofSeconds seconds (n.fmod 1000000).toNat)
  else none

/-- The number of microseconds in a unit of a count. -/
def unitOf (isLarge : Bool) : Nat :=
  if isLarge then 1000 else 1000000

/-- The point in time of a whole count. -/
def ofCount? (n : Int) : Option DateTime :=
  ofMicroseconds? (n * unitOf (millisecondsFrom < n.natAbs))

/-- The microseconds of a fraction of a unit: the fraction as a binary number, times the
microseconds of the unit as a binary number, rounded. -/
def microsecondsOf (unit num den : Nat) : Nat :=
  let (num, den) := Double.nearest num den
  let (num, den) := Double.nearest (num * unit) den
  roundHalfUp num den

/-- The point in time of a count with a fraction: its floor, and the microseconds of what is above
it. -/
def ofDouble? : Double → Option DateTime
  | .finite negative m q =>
    let parts : Nat := Nat.pow 2 (-q).toNat
    let whole : Nat := m * Nat.pow 2 q.toNat
    let n : Int := if negative then -whole else whole
    let unit := unitOf (millisecondsFrom * parts < whole)
    ofMicroseconds? (n.fdiv parts * unit + microsecondsOf unit (n.fmod parts).toNat parts)
  | _ => none

/-- The point in time of a count given as text: digits with a sign, and perhaps a point and behind
it a power of ten. The digits on one side of the point may be absent; those in front of it make a
number of sixty-four bits. -/
def ofNumeral? (cs : List Char) : Option DateTime :=
  let (negative, body) := Numeral.splitSign cs
  let digits := body.takeWhile Char.isDigit
  match body.dropWhile Char.isDigit with
  | [] => if digits = [] then none else ofCount? (Whole.ofDigits negative digits)
  | '.' :: rest =>
    let places := rest.takeWhile Char.isDigit
    match Numeral.readExponent? (rest.dropWhile Char.isDigit) with
    | some e =>
      let n := Text.natOfDigits (digits ++ places)
      if digits ++ places = [] ∨ !Whole.fits (Text.natOfDigits digits) then none
      else ofDouble? (.ofDecimal ⟨negative, n, e - places.length⟩)
    | none => none
  | _ => none

end DateTime

/-! ### The check -/

namespace Check

/-- A point in time, if its year is one of the calendar. -/
def dated (t : DateTime) : Checked DateTime :=
  if t.year = 0 then .fail .dateTimeOutOfRange else .ok t

/-- A point in time that was counted. -/
def counted : Option DateTime → Checked DateTime
  | some t => dated t
  | none => .fail .dateTimeOutOfRange

/-- The point in time of a text. -/
def dateTimeOfText (s : String) : Checked DateTime :=
  match DateTime.ofText? s.toList with
  | some t => dated t
  | none =>
    match DateTime.ofNumeral? s.toList with
    | some t => dated t
    | none => .fail .unreadableDateTime

/-- The point in time of a whole number. One beyond the binary numbers is not even taken for a
count. -/
def dateTimeOfInt (n : Int) : Checked DateTime :=
  match Double.ofDecimal (.ofInt n) with
  | .infinite _ => .fail .notDateTime
  | _ => counted (DateTime.ofCount? n)

/-- A point in time, spelled as text or as a count. -/
def dateTime : Check DateTime
  | .str (.text s) => dateTimeOfText s
  | .whole n => dateTimeOfInt n
  | .float x => counted (DateTime.ofDouble? x)
  | .str (.unreadable _) => .fail .unreadableString
  | _ => .fail .notDateTime

end Check
end TokenLedger
