/-
# Points in time

A date of the Gregorian calendar and a time of day, without a zone. Days are counted from the first
of March of the year zero, so that the leap day is the last of its year: a day number is split into
cycles of four centuries, centuries, spans of four years, years and months. `ofSeconds` takes a
count of seconds from the start of 1970, `seconds` counts them by the lengths of years and months.

Key definitions: `DateTime`, `isLeap`, `daysInMonth`, `DateTime.WellFormed`, `DateTime.Valid`,
`DateTime.ofSeconds`, `DateTime.seconds`, `DateTime.text`.
-/
import TokenLedger.Text.Digit

namespace TokenLedger

/-- A date and a time of day. -/
structure DateTime where
  year : Nat
  month : Nat
  day : Nat
  hour : Nat
  minute : Nat
  second : Nat
  microsecond : Nat
deriving DecidableEq, Repr

/-- Whether a year has a leap day. -/
def isLeap (year : Nat) : Bool :=
  year % 4 == 0 && (year % 100 != 0 || year % 400 == 0)

/-- The number of days of a month. -/
def daysInMonth (year month : Nat) : Nat :=
  if month = 2 then (if isLeap year then 29 else 28)
  else if month = 4 ∨ month = 6 ∨ month = 9 ∨ month = 11 then 30
  else 31

namespace DateTime

/-- Whether the parts name a day of a month and a time of a day. -/
def WellFormed (t : DateTime) : Prop :=
  1 ≤ t.month ∧ t.month ≤ 12 ∧ 1 ≤ t.day ∧ t.day ≤ daysInMonth t.year t.month ∧ t.hour < 24 ∧
    t.minute < 60 ∧ t.second < 60 ∧ t.microsecond < 1000000

instance (t : DateTime) : Decidable t.WellFormed := by
  unfold WellFormed; infer_instance

/-- Whether the parts name a day of the calendar, which has the years 1 to 9999, and a time of that
day. -/
def Valid (t : DateTime) : Prop :=
  1 ≤ t.year ∧ t.year ≤ 9999 ∧ t.WellFormed

instance (t : DateTime) : Decidable t.Valid := by
  unfold Valid; infer_instance

/-! ### From a count of seconds -/

/-- The day number of the first of January 1970. -/
def epochDay : Nat := 719468

/-- The year of a day number, counted from March to February, and the day in that year. -/
def splitYear (n : Nat) : Nat × Nat :=
  let cycle := n / 146097
  let inCycle := n % 146097
  let century := min (inCycle / 36524) 3
  let inCentury := inCycle - century * 36524
  let span := inCentury / 1461
  let inSpan := inCentury % 1461
  let year := min (inSpan / 365) 3
  (400 * cycle + 100 * century + 4 * span + year, inSpan - year * 365)

/-- The number of days of a year from March on before its `m`-th month, March being the zeroth. -/
def daysBeforeMarchMonth (m : Nat) : Nat :=
  (153 * m + 2) / 5

/-- The year, month and day of a day number. -/
def dateOfDay (n : Nat) : Nat × Nat × Nat :=
  let (year, inYear) := splitYear n
  let m := (5 * inYear + 2) / 153
  let day := inYear - daysBeforeMarchMonth m + 1
  if m < 10 then (year, m + 3, day) else (year + 1, m - 9, day)

/-- The point in time that lies a number of seconds, which may be negative, after the start of 1970.
What lies before the first of March of the year zero is taken for its start. -/
def ofSeconds (seconds : Int) (microsecond : Nat) : DateTime :=
  let s := (seconds + (epochDay * 86400 : Nat)).toNat
  let (year, month, day) := dateOfDay (s / 86400)
  let r := s % 86400
  ⟨year, month, day, r / 3600, r % 3600 / 60, r % 60, microsecond⟩

/-! ### To a count of seconds -/

/-- The number of days from the start of the year zero to the start of a year. -/
def daysBeforeYear : Nat → Nat
  | 0 => 0
  | year + 1 => daysBeforeYear year + (if isLeap year then 366 else 365)

/-- The number of days of a year before a month. -/
def daysBeforeMonth (year : Nat) : Nat → Nat
  | 0 => 0
  | 1 => 0
  | month + 1 => daysBeforeMonth year month + daysInMonth year month

/-- The number of whole seconds from the start of 1970. -/
def seconds (t : DateTime) : Int :=
  let days : Int := (daysBeforeYear t.year + daysBeforeMonth t.year t.month + (t.day - 1) : Nat)
  (days - (daysBeforeYear 1970 : Nat)) * 86400 + (t.hour * 3600 + t.minute * 60 + t.second : Nat)

/-! ### Written form -/

/-- A natural with at least `width` digits. -/
def padded (width n : Nat) : List Char :=
  Text.padLeft width '0' (Nat.toDigits 10 n)

/-- The written form: date and time with a `T` between them, and six digits of a fraction unless
they are all zero. -/
def text (t : DateTime) : String :=
  String.ofList
    (padded 4 t.year ++ '-' :: padded 2 t.month ++ '-' :: padded 2 t.day ++ 'T' :: padded 2 t.hour
      ++ ':' :: padded 2 t.minute ++ ':' :: padded 2 t.second
      ++ if t.microsecond = 0 then [] else '.' :: padded 6 t.microsecond)

end DateTime
end TokenLedger
