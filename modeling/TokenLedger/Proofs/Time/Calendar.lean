/-
# Days of the calendar

A day number falls into one year, counted from March to February, and into one month of it. The year
starts `DateTime.daysBeforeMarch` days after the first of March of the year zero, and a day that is
the last of a leap year falls into a February of twenty-nine days. So every day number names a day of
the calendar (`DateTime.dateOfDay_wellFormed`), and so does every timestamp, whatever its seconds and
nanoseconds (`Timestamp.dateTime_valid`).

Key definitions: `DateTime.daysBeforeMarch`, `DateTime.calendarMonth`.
Key theorems: `DateTime.splitYear_spec`, `DateTime.dateOfDay_wellFormed`, `DateTime.ofSeconds_valid`,
`Timestamp.dateTime_valid`.
-/
import Mathlib.Order.Monotone.Basic
import Mathlib.Tactic.IntervalCases
import TokenLedger.Transaction

namespace TokenLedger

theorem isLeap_iff {year : ℕ} :
    isLeap year = true ↔ year % 4 = 0 ∧ (year % 100 ≠ 0 ∨ year % 400 = 0) := by
  simp [isLeap]

namespace DateTime

variable {n : ℕ}

/-! ### Years from March to February -/

/-- The number of days from the first of March of the year zero to that of a year. -/
def daysBeforeMarch (year : ℕ) : ℕ :=
  365 * year + year / 4 - year / 100 + year / 400

/-- The parts of a year: cycles of four centuries, centuries, spans of four years, and years. -/
theorem daysBeforeMarch_parts {cycle century span year : ℕ} (hcentury : century ≤ 3)
    (hspan : span ≤ 24) (hyear : year ≤ 3) :
    daysBeforeMarch (400 * cycle + 100 * century + 4 * span + year) =
      146097 * cycle + 36524 * century + 1461 * span + 365 * year := by
  unfold daysBeforeMarch
  omega

/-- Four spans of one length, of which the last may be longer by one: a number falls into one of them,
and only in the last one as far in as the length. -/
theorem quarter_spec {length r : ℕ} (hpos : 0 < length) (h : r ≤ 4 * length) :
    min (r / length) 3 * length ≤ r ∧ r - min (r / length) 3 * length ≤ length ∧
      (r - min (r / length) 3 * length = length → min (r / length) 3 = 3) := by
  have hdiv : length * (r / length) + r % length = r := Nat.div_add_mod r length
  have hmod : r % length < length := Nat.mod_lt r hpos
  rcases Nat.lt_or_ge r (4 * length) with hlt | hge
  · have hquarter : r / length < 4 := Nat.div_lt_of_lt_mul (by rwa [Nat.mul_comm])
    rw [min_eq_left (Nat.le_of_lt_succ hquarter), Nat.mul_comm]
    omega
  · have hquarter : 4 ≤ r / length := (Nat.le_div_iff_mul_le hpos).mpr hge
    rw [min_eq_right (by omega)]
    omega

/-- A day number is split into the parts of its year and the day in that year. The last day of a leap
year is the last of a span, and the last of a century only at the end of a cycle. -/
theorem splitYear_parts (n : ℕ) : ∃ cycle century span year,
    century ≤ 3 ∧ span ≤ 24 ∧ year ≤ 3 ∧
    (splitYear n).1 = 400 * cycle + 100 * century + 4 * span + year ∧
    n = 146097 * cycle + 36524 * century + 1461 * span + 365 * year + (splitYear n).2 ∧
    (splitYear n).2 ≤ 365 ∧
    ((splitYear n).2 = 365 → year = 3 ∧ (span = 24 → century = 3)) := by
  have hcycle := Nat.div_add_mod n 146097
  have hinCycle : n % 146097 ≤ 4 * 36524 := Nat.le_of_lt_succ (Nat.mod_lt n (by decide))
  obtain ⟨hstart, hinCentury, hlast⟩ := quarter_spec (by decide) hinCycle
  have hcentury : min (n % 146097 / 36524) 3 ≤ 3 := min_le_right _ _
  unfold splitYear
  dsimp only
  generalize n / 146097 = cycle at *
  generalize min (n % 146097 / 36524) 3 = century at *
  generalize hr : n % 146097 = r at *
  generalize hd : r - century * 36524 = d at *
  have hspan := Nat.div_add_mod d 1461
  have hinSpan : d % 1461 ≤ 4 * 365 := Nat.le_of_lt_succ (Nat.mod_lt d (by decide))
  obtain ⟨hstart', hinYear, hlast'⟩ := quarter_spec (by decide) hinSpan
  have hyear : min (d % 1461 / 365) 3 ≤ 3 := min_le_right _ _
  generalize d / 1461 = span at *
  generalize min (d % 1461 / 365) 3 = year at *
  generalize d % 1461 = e at *
  clear hr
  refine ⟨cycle, century, span, year, hcentury, by omega, hyear, rfl, by omega, hinYear,
    fun hday => ⟨hlast' hday, fun hend => hlast ?_⟩⟩
  have hthree := hlast' hday
  omega

/-- The year that follows the last one of a span is a leap year, unless the span is the last of a
century that is not the last of its cycle. -/
theorem isLeap_of_last (cycle : ℕ) {century span : ℕ} (hspan : span ≤ 24)
    (hlast : span = 24 → century = 3) :
    isLeap (400 * cycle + 100 * century + 4 * span + 3 + 1) = true := by
  rw [isLeap_iff]
  refine ⟨by omega, ?_⟩
  rcases Nat.lt_or_eq_of_le hspan with hlt | hend
  · exact .inl (by omega)
  · have hcentury := hlast hend
    exact .inr (by omega)

/-- **A day number falls into one year**, from its first day on and before its end. -/
theorem splitYear_spec (n : ℕ) :
    n = daysBeforeMarch (splitYear n).1 + (splitYear n).2 ∧
      (splitYear n).2 < if isLeap ((splitYear n).1 + 1) then 366 else 365 := by
  obtain ⟨cycle, century, span, year, hcentury, hspan, hyear, hfst, hn, hle, hlast⟩ :=
    splitYear_parts n
  constructor
  · rw [hfst, daysBeforeMarch_parts hcentury hspan hyear]
    exact hn
  · rcases Nat.lt_or_eq_of_le hle with hlt | hend
    · exact lt_of_lt_of_le hlt (by split <;> decide)
    · obtain ⟨rfl, hcycle⟩ := hlast hend
      rw [hfst, isLeap_of_last cycle hspan hcycle, hend]
      decide

/-! ### Months -/

/-- The month of the calendar that is the `m`-th one from March on, March being the zeroth. -/
def calendarMonth (m : ℕ) : ℕ :=
  if m < 10 then m + 3 else m - 9

theorem calendarMonth_mem {m : ℕ} (h : m ≤ 11) : 1 ≤ calendarMonth m ∧ calendarMonth m ≤ 12 := by
  unfold calendarMonth
  split <;> omega

/-- A month other than the last one from March on has the same length in every year. -/
theorem daysBeforeMarchMonth_succ (year : ℕ) {m : ℕ} (h : m < 11) :
    daysBeforeMarchMonth (m + 1) =
      daysBeforeMarchMonth m + daysInMonth year (calendarMonth m) := by
  interval_cases m <;> rfl

/-- A day of a year falls into a month of it. -/
theorem month_spec (d : ℕ) :
    daysBeforeMarchMonth ((5 * d + 2) / 153) ≤ d ∧
      d < daysBeforeMarchMonth ((5 * d + 2) / 153 + 1) := by
  unfold daysBeforeMarchMonth
  omega

/-- January and February are months of the next year of the calendar. -/
theorem dateOfDay_eq (n : ℕ) :
    dateOfDay n =
      let m := (5 * (splitYear n).2 + 2) / 153
      (if m < 10 then (splitYear n).1 else (splitYear n).1 + 1, calendarMonth m,
        (splitYear n).2 - daysBeforeMarchMonth m + 1) := by
  unfold dateOfDay calendarMonth
  dsimp only
  split <;> rfl

/-- **A day number names a day of a month.** -/
theorem dateOfDay_wellFormed (n : ℕ) :
    1 ≤ (dateOfDay n).2.1 ∧ (dateOfDay n).2.1 ≤ 12 ∧ 1 ≤ (dateOfDay n).2.2 ∧
      (dateOfDay n).2.2 ≤ daysInMonth (dateOfDay n).1 (dateOfDay n).2.1 := by
  obtain ⟨-, hlt⟩ := splitYear_spec n
  rw [dateOfDay_eq]
  dsimp only
  generalize (splitYear n).1 = year at *
  generalize (splitYear n).2 = d at *
  obtain ⟨hfrom, hbefore⟩ := month_spec d
  have hm : (5 * d + 2) / 153 ≤ 11 := by
    split at hlt <;> omega
  generalize (5 * d + 2) / 153 = m at *
  obtain ⟨hone, htwelve⟩ := calendarMonth_mem hm
  refine ⟨hone, htwelve, Nat.succ_pos _, ?_⟩
  rcases Nat.lt_or_eq_of_le hm with hm | rfl
  · rw [daysBeforeMarchMonth_succ _ hm] at hbefore
    exact Nat.succ_le_of_lt (Nat.sub_lt_left_of_lt_add hfrom hbefore)
  · -- the last month is February, whose length depends on the year
    show d - 337 + 1 ≤ if isLeap (year + 1) then 29 else 28
    by_cases hleap : isLeap (year + 1) = true
    · rw [if_pos hleap] at hlt ⊢
      omega
    · rw [if_neg hleap] at hlt ⊢
      omega

/-! ### Points in time -/

theorem daysBeforeMarch_mono : Monotone daysBeforeMarch := by
  refine monotone_nat_of_le_succ fun year => ?_
  unfold daysBeforeMarch
  omega

/-- A day number from that of the start of 1970 to that of the end of 9999 falls into these years. -/
theorem year_mem (hfirst : epochDay ≤ n) (hlast : n ≤ 3652364) :
    1970 ≤ (dateOfDay n).1 ∧ (dateOfDay n).1 ≤ 9999 := by
  obtain ⟨hn, hlt⟩ := splitYear_spec n
  have hd : (splitYear n).2 < 366 := lt_of_lt_of_le hlt (by split <;> decide)
  rw [dateOfDay_eq]
  dsimp only
  generalize (splitYear n).1 = year at *
  generalize (splitYear n).2 = d at *
  have hlow : 1969 ≤ year := by
    by_contra hless
    have hstart : daysBeforeMarch year ≤ 718797 := daysBeforeMarch_mono (show year ≤ 1968 by omega)
    unfold epochDay at hfirst
    omega
  have hhigh : year ≤ 9999 := by
    by_contra hmore
    have hstart : 3652425 ≤ daysBeforeMarch year :=
      daysBeforeMarch_mono (show 10000 ≤ year by omega)
    omega
  -- the year from March on is that of the calendar or the one before
  constructor
  · by_contra hless
    obtain rfl : year = 1969 := by
      split at hless <;> omega
    have hstart : n = 719162 + d := hn
    unfold epochDay at hfirst
    split at hless <;> omega
  · by_contra hmore
    obtain rfl : year = 9999 := by
      split at hmore <;> omega
    have hstart : n = 3652059 + d := hn
    split at hmore <;> omega

/-- The parts of the point in time that lies a number of seconds after the start of day zero. -/
theorem ofSeconds_eq {seconds : ℤ} {microsecond s : ℕ}
    (hs : (seconds + (epochDay * 86400 : ℕ)).toNat = s) :
    ofSeconds seconds microsecond =
      ⟨(dateOfDay (s / 86400)).1, (dateOfDay (s / 86400)).2.1, (dateOfDay (s / 86400)).2.2,
        s % 86400 / 3600, s % 86400 % 3600 / 60, s % 86400 % 60, microsecond⟩ := by
  subst hs
  rfl

/-- **A count of seconds from 1970 to 9999 names a point in time of those years.** -/
theorem ofSeconds_valid {seconds microsecond : ℕ} (hseconds : seconds ≤ Timestamp.lastSecond)
    (hmicro : microsecond < 1000000) :
    1970 ≤ (ofSeconds seconds microsecond).year ∧ (ofSeconds seconds microsecond).Valid := by
  unfold Timestamp.lastSecond at hseconds
  obtain ⟨s, hs⟩ : ∃ s, s = seconds + 62162035200 := ⟨_, rfl⟩
  have hday : epochDay ≤ s / 86400 := by
    unfold epochDay
    omega
  rw [ofSeconds_eq (s := s) (by unfold epochDay; omega)]
  obtain ⟨hyear, hyear'⟩ := year_mem hday (by omega)
  obtain ⟨hmonth, hmonth', hday, hday'⟩ := dateOfDay_wellFormed (s / 86400)
  have hone : 1 ≤ (dateOfDay (s / 86400)).1 := by omega
  have hhour : s % 86400 / 3600 < 24 := by omega
  have hminute : s % 86400 % 3600 / 60 < 60 := by omega
  have hsecond : s % 86400 % 60 < 60 := by omega
  exact ⟨hyear, hone, hyear', hmonth, hmonth', hday, hday', hhour, hminute, hsecond, hmicro⟩

end DateTime

/-- **Every timestamp names a point in time** of the years 1970 to 9999. -/
theorem Timestamp.dateTime_valid (t : Timestamp) : 1970 ≤ t.dateTime.year ∧ t.dateTime.Valid := by
  have hnanos : (t.nanos : ℕ) / 1000 < 1000000 := by omega
  exact DateTime.ofSeconds_valid (min_le_right _ _) hnanos

end TokenLedger
