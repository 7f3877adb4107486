/-
# Counting the seconds back

`DateTime.ofSeconds` splits a count of seconds into a date and a time of day, by cycles of the calendar.
`DateTime.seconds` counts them from the date, by the lengths of all years and months before it. The two
are inverse (`DateTime.seconds_ofSeconds`): the days before a year of the calendar are those before its
first of March, sixty days off (`DateTime.daysBeforeYear_add_toMarch`), and the months from March on
have their calendar lengths (`DateTime.daysBefore_calendarMonth`). So a timestamp within the calendar
names the point in time that lies so many seconds after the start of 1970, and two of them name one
point exactly if they agree in the seconds and in the whole microseconds
(`Timestamp.dateTime_within_calendar`).

Key definitions: `DateTime.daysBefore`, `DateTime.calendarYear`.
Key theorems: `DateTime.daysBeforeYear_add_toMarch`, `DateTime.daysBefore_dateOfDay`,
`DateTime.seconds_ofSeconds`, `Timestamp.dateTime_within_calendar`.
-/
import TokenLedger.Proofs.Time.Order

namespace TokenLedger
namespace DateTime

variable {n : ℕ}

/-! ### Days before a date -/

/-- The number of days from the start of the year zero to a day, which is a year, a month and a day of
it. -/
def daysBefore (date : ℕ × ℕ × ℕ) : ℕ :=
  daysBeforeYear date.1 + daysBeforeMonth date.1 date.2.1 + (date.2.2 - 1)

/-- The number of days from the first of January to the first of March. -/
theorem daysBeforeMonth_march (year : ℕ) :
    daysBeforeMonth year 3 = if isLeap year then 60 else 59 := by
  show daysBeforeMonth year 1 + daysInMonth year 1 + daysInMonth year 2 = _
  show 0 + 31 + (if isLeap year then 29 else 28) = _
  split <;> rfl

/-- **The first of March of a year**, counted from the first of January of the year zero and from its
first of March, which is sixty days later. -/
theorem daysBeforeYear_add_toMarch (year : ℕ) :
    daysBeforeYear year + daysBeforeMonth year 3 = daysBeforeMarch year + 60 := by
  induction year with
  | zero => rfl
  | succ year ih =>
    rw [daysBeforeMonth_march] at ih ⊢
    rw [daysBeforeMarch_succ, daysBeforeYear]
    split_ifs at ih ⊢ <;> omega

/-- The months from March to December are those of the calendar year from its first of March on. -/
theorem daysBeforeMonth_fromMarch (year : ℕ) {m : ℕ} (h : m < 10) :
    daysBeforeMonth year (m + 3) = daysBeforeMonth year 3 + daysBeforeMarchMonth m := by
  induction m with
  | zero => rfl
  | succ m ih =>
    have hmonth : calendarMonth m = m + 3 := if_pos (Nat.lt_of_succ_lt h)
    have hlength := daysBeforeMarchMonth_succ year (show m < 11 by omega)
    rw [hmonth] at hlength
    rw [hlength, ← Nat.add_assoc, ← ih (Nat.lt_of_succ_lt h)]
    rfl

/-- The year of a month that is the `m`-th one from a March on. -/
def calendarYear (year m : ℕ) : ℕ :=
  if m < 10 then year else year + 1

/-- **The days before a month**, counted by the calendar and from March on. January and February are
the last two months from a March on and the first two of the next year. -/
theorem daysBefore_calendarMonth (year : ℕ) {m : ℕ} (h : m ≤ 11) :
    daysBeforeYear (calendarYear year m) + daysBeforeMonth (calendarYear year m) (calendarMonth m) =
      daysBeforeMarch year + daysBeforeMarchMonth m + 60 := by
  have hmarch := daysBeforeYear_add_toMarch year
  rcases Nat.lt_or_ge m 10 with hm | hm
  · rw [calendarYear, if_pos hm, calendarMonth, if_pos hm, daysBeforeMonth_fromMarch year hm]
    omega
  · have hyear : daysBeforeYear (year + 1) = daysBeforeMarch year + 366 := by
      rw [daysBeforeMonth_march] at hmarch
      rw [daysBeforeYear]
      split_ifs at hmarch ⊢ <;> omega
    rw [calendarYear, if_neg (Nat.not_lt.mpr hm), hyear]
    obtain rfl | rfl : m = 10 ∨ m = 11 := by omega
    · rfl
    · rfl

/-- **Counting the days before the date of a day number gives the number back.** -/
theorem daysBefore_dateOfDay (n : ℕ) : daysBefore (dateOfDay n) = n + 60 := by
  obtain ⟨hn, hlt⟩ := splitYear_spec n
  rw [dateOfDay_eq]
  dsimp only [daysBefore]
  generalize (splitYear n).1 = year at *
  generalize (splitYear n).2 = d at *
  obtain ⟨hfrom, -⟩ := month_spec d
  have hm : (5 * d + 2) / 153 ≤ 11 := by
    split at hlt <;> omega
  generalize (5 * d + 2) / 153 = m at *
  have hmonth := daysBefore_calendarMonth year hm
  unfold calendarYear at hmonth
  omega

/-! ### Seconds before a point in time -/

theorem daysBeforeYear_epoch : daysBeforeYear 1970 = epochDay + 60 := by
  have hmarch := daysBeforeYear_add_toMarch 1970
  have hmonths : daysBeforeMonth 1970 3 = 59 := rfl
  have hdays : daysBeforeMarch 1970 = 719527 := rfl
  unfold epochDay
  omega

/-- **Counting the seconds of a point in time gives back the count that it was made from.** -/
theorem seconds_ofSeconds (seconds micro : ℕ) : (ofSeconds seconds micro).seconds = seconds := by
  obtain ⟨s, hs, hparts⟩ := exists_onDay seconds
  have hday := daysBefore_dateOfDay (s / 86400)
  rw [hparts, DateTime.seconds, daysBeforeYear_epoch]
  unfold daysBefore at hday
  dsimp only [onDay]
  rw [hday]
  have htime : s % 86400 / 3600 * 3600 + s % 86400 % 3600 / 60 * 60 + s % 86400 % 60 = s % 86400 := by
    omega
  rw [htime]
  push_cast
  omega

theorem microsecond_ofSeconds (seconds micro : ℕ) : (ofSeconds seconds micro).microsecond = micro := by
  obtain ⟨s, -, hparts⟩ := exists_onDay seconds
  rw [hparts]
  rfl

end DateTime

/-! ### Timestamps -/

namespace Timestamp

variable {t u : Timestamp}

/-- Seconds within the calendar count as they are. -/
theorem dateTime_of_le (h : t.seconds ≤ lastSecond) :
    t.dateTime = DateTime.ofSeconds t.seconds ((t.nanos : ℕ) / 1000) :=
  dateTime_eq (min_eq_left h)

theorem seconds_dateTime (h : t.seconds ≤ lastSecond) : t.dateTime.seconds = t.seconds := by
  rw [dateTime_of_le h, DateTime.seconds_ofSeconds]

theorem microsecond_dateTime (t : Timestamp) :
    t.dateTime.microsecond = (t.nanos : ℕ) / 1000 := by
  rw [dateTime_eq rfl, DateTime.microsecond_ofSeconds]

/-- **A timestamp within the calendar is converted exactly**: to a point in time of the years 1970 to
9999 that lies as many seconds after the start of 1970 as the timestamp says, with its whole
microseconds. So two such timestamps are one point in time exactly if they agree in both. -/
theorem dateTime_within_calendar (ht : t.seconds ≤ lastSecond) (hu : u.seconds ≤ lastSecond) :
    (1970 ≤ t.dateTime.year ∧ t.dateTime.Valid) ∧ t.dateTime.seconds = t.seconds ∧
      t.dateTime.microsecond = (t.nanos : ℕ) / 1000 ∧
      (t.dateTime = u.dateTime ↔
        t.seconds = u.seconds ∧ (t.nanos : ℕ) / 1000 = (u.nanos : ℕ) / 1000) := by
  have hseconds := seconds_dateTime ht
  have hmicro := t.microsecond_dateTime
  refine ⟨t.dateTime_valid, hseconds, hmicro, fun hsame => ⟨?_, ?_⟩, ?_⟩
  · rw [hsame, seconds_dateTime hu] at hseconds
    exact (Int.natCast_inj.mp hseconds).symm
  · rw [← hmicro, hsame, microsecond_dateTime]
  · rintro ⟨hsec, hnanos⟩
    rw [dateTime_of_le ht, dateTime_of_le hu, hsec, hnanos]

/-- The last leap day of a century that has one, to its last microsecond, and the last second of the
calendar. -/
theorem dateTime_of_leap_day :
    (⟨951868799, 999999999⟩ : Timestamp).seconds ≤ lastSecond ∧
      (⟨253402300799, 0⟩ : Timestamp).seconds ≤ lastSecond ∧
      (⟨951868799, 999999999⟩ : Timestamp).dateTime = ⟨2000, 2, 29, 23, 59, 59, 999999⟩ ∧
      (⟨2000, 2, 29, 23, 59, 59, 999999⟩ : DateTime).seconds = 951868799 ∧
      (⟨951868799, 999999999⟩ : Timestamp).dateTime ≠ (⟨253402300799, 0⟩ : Timestamp).dateTime := by
  have hleap : (⟨951868799, 999999999⟩ : Timestamp).seconds ≤ lastSecond := by
    norm_num [lastSecond]
  have hlast : (⟨253402300799, 0⟩ : Timestamp).seconds ≤ lastSecond := le_rfl
  have hparts : (⟨951868799, 999999999⟩ : Timestamp).dateTime = ⟨2000, 2, 29, 23, 59, 59, 999999⟩ := by
    decide
  obtain ⟨-, hseconds, -, hsame⟩ := dateTime_within_calendar hleap hlast
  rw [hparts] at hseconds
  refine ⟨hleap, hlast, hparts, hseconds, fun heq => ?_⟩
  exact absurd (hsame.mp heq).1 (by norm_num)

end Timestamp
end TokenLedger
