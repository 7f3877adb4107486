/-
# Points in time read back

The written form of a point in time has two digits for each of its parts, four for the year and six for
a fraction of a second, which is left out if it is zero. So it is read part by part, and the reading
gives the point in time back (`DateTime.ofText?_text`); if it is one of the calendar it is accepted as
it is (`Check.dateTime_text`).

Key theorems: `DateTime.natOfDigits_padded`, `DateTime.exists_padded_two`, `DateTime.timeOfDay?_text`,
`DateTime.ofText?_text`, `Check.dateTime_text`.
-/
import TokenLedger.Proofs.Address.Canonical
import TokenLedger.Proofs.Decimal.Plain
import TokenLedger.Time.Reading

namespace TokenLedger
namespace DateTime

/-! ### Digits of a fixed number -/

variable {n w : ℕ} {rest : List Char}

theorem isDigit_of_mem_padded {c : Char} (h : c ∈ padded w n) : c.isDigit = true := by
  rcases Text.mem_padLeft h with rfl | hc
  · rfl
  · exact Decimal.isDigit_of_mem_digits hc

theorem length_padded (hw : 0 < w) (h : n < 10 ^ w) : (padded w n).length = w := by
  rw [padded, Text.length_padLeft]
  exact max_eq_left ((Text.digitCount_le_iff hw).mpr h)

/-- Zeros in front of the digits do not count. -/
theorem natOfDigits_padded (w n : ℕ) : Text.natOfDigits (padded w n) = n := by
  rw [padded, Text.padLeft, Decimal.natOfDigits_zeros, Text.natOfDigits_toDigits]

theorem pair?_of_digits {a b : Char} (ha : a.isDigit = true) (hb : b.isDigit = true) :
    pair? a b = some (Text.natOfDigits [a, b]) := by
  simp only [pair?, ha, hb, Bool.and_self, if_true]

/-- Two digits are read back. -/
theorem exists_padded_two (h : n < 100) :
    ∃ a b, padded 2 n = [a, b] ∧ pair? a b = some n := by
  obtain ⟨a, b, hab⟩ := List.length_eq_two.mp (length_padded (by decide) (w := 2) h)
  have hdigit : ∀ c ∈ [a, b], c.isDigit = true := fun c hc => isDigit_of_mem_padded (hab ▸ hc)
  refine ⟨a, b, hab, ?_⟩
  rw [pair?_of_digits (hdigit a (by simp)) (hdigit b (by simp)), ← hab, natOfDigits_padded]

/-- Four digits are read back as two pairs. -/
theorem exists_padded_four (h : n < 10000) :
    ∃ a b c d x y, padded 4 n = [a, b, c, d] ∧ pair? a b = some x ∧ pair? c d = some y ∧
      x * 100 + y = n := by
  have hlength := length_padded (by decide) (w := 4) h
  obtain ⟨a, b, c, d, habcd⟩ : ∃ a b c d, padded 4 n = [a, b, c, d] := by
    match padded 4 n, hlength with
    | [a, b, c, d], _ => exact ⟨a, b, c, d, rfl⟩
  have hdigit : ∀ e ∈ [a, b, c, d], e.isDigit = true := fun e he =>
    isDigit_of_mem_padded (habcd ▸ he)
  refine ⟨a, b, c, d, _, _, habcd, pair?_of_digits (hdigit a (by simp)) (hdigit b (by simp)),
    pair?_of_digits (hdigit c (by simp)) (hdigit d (by simp)), ?_⟩
  rw [← natOfDigits_padded 4 n, habcd]
  simp [Text.natOfDigits, Nat.ofDigitChars]
  omega

/-- The digits of a fraction are its microseconds. -/
theorem microsecondOf_padded (h : n < 1000000) : microsecondOf (padded 6 n) = n := by
  have hlength : (padded 6 n).length = 6 := length_padded (by decide) h
  rw [microsecondOf, List.take_append_of_le_length hlength.ge, List.take_of_length_le hlength.le,
    natOfDigits_padded]

/-! ### Times of day -/

/-- The seconds as they are written, with the fraction if it is not zero. -/
def secondsText (second microsecond : ℕ) : List Char :=
  ':' :: (padded 2 second ++ if microsecond = 0 then [] else '.' :: padded 6 microsecond)

theorem takeSeconds?_text {second microsecond : ℕ} (hs : second < 60) (hm : microsecond < 1000000) :
    takeSeconds? (secondsText second microsecond) = some ((second, microsecond), []) := by
  obtain ⟨a, b, hab, hpair⟩ := exists_padded_two (n := second) (by omega)
  unfold secondsText
  rw [hab]
  by_cases hzero : microsecond = 0
  · subst hzero
    simp only [if_true, List.append_nil, takeSeconds?, hpair]
    rfl
  · have hdigits : ∀ c ∈ padded 6 microsecond, c.isDigit = true := fun c => isDigit_of_mem_padded
    have htake : (padded 6 microsecond).takeWhile Char.isDigit = padded 6 microsecond :=
      List.takeWhile_eq_self_iff.mpr hdigits
    have hdrop : (padded 6 microsecond).dropWhile Char.isDigit = [] :=
      List.dropWhile_eq_nil_iff.mpr hdigits
    have hlength : (padded 6 microsecond).length = 6 := length_padded (by decide) hm
    obtain ⟨c, cs, hcs⟩ : ∃ c cs, padded 6 microsecond = c :: cs :=
      List.exists_cons_of_length_pos (by omega)
    have hmicro := microsecondOf_padded hm
    rw [if_neg hzero]
    rw [hcs] at htake hdrop hmicro ⊢
    simp only [List.cons_append, List.nil_append, takeSeconds?, hpair, htake, hdrop, hmicro]
    rfl

theorem timeOfDay?_text {hour minute second microsecond : ℕ} (hh : hour < 24) (hmin : minute < 60)
    (hs : second < 60) (hm : microsecond < 1000000) :
    timeOfDay? (padded 2 hour ++ ':' :: (padded 2 minute ++ secondsText second microsecond)) =
      some (hour, minute, second, microsecond) := by
  obtain ⟨a, b, hab, hhour⟩ := exists_padded_two (n := hour) (by omega)
  obtain ⟨c, d, hcd, hminute⟩ := exists_padded_two (n := minute) (by omega)
  rw [hab, hcd]
  simp only [List.cons_append, List.nil_append, timeOfDay?, hhour, hminute, takeSeconds?_text hs hm]
  rfl

/-! ### Dates with a time of day -/

/-- **The written form of a point in time of the calendar reads as that point in time.** -/
theorem ofText?_text {t : DateTime} (h : t.Valid) : ofText? t.text.toList = some t := by
  obtain ⟨hfirst, hlast, hformed⟩ := h
  obtain ⟨hmonth, hmonth', hday, hday', hhour, hminute, hsecond, hmicrosecond⟩ := hformed
  have hdays : t.day ≤ 31 := by
    have hmax : daysInMonth t.year t.month ≤ 31 := by
      unfold daysInMonth
      split_ifs <;> omega
    omega
  obtain ⟨a, b, c, d, century, year, hyear, hcentury, hshort, hsum⟩ :=
    exists_padded_four (n := t.year) (by omega)
  obtain ⟨e, f, hef, hmonths⟩ := exists_padded_two (n := t.month) (by omega)
  obtain ⟨g, i, hgi, hdays'⟩ := exists_padded_two (n := t.day) (by omega)
  have htext : t.text.toList = a :: b :: c :: d :: '-' :: e :: f :: '-' :: g :: i :: 'T' ::
      (padded 2 t.hour ++ ':' :: (padded 2 t.minute ++ secondsText t.second t.microsecond)) := by
    simp only [text, String.toList_ofList, hyear, hef, hgi, secondsText, List.cons_append,
      List.nil_append, List.append_assoc]
  have htime := timeOfDay?_text hhour hminute hsecond hmicrosecond
  have hdate : (⟨century * 100 + year, t.month, t.day, t.hour, t.minute, t.second,
      t.microsecond⟩ : DateTime) = t := by rw [hsum]
  rw [htext, ofText?]
  simp only [takeDate?, hcentury, hshort, hmonths, hdays', htime, hdate, Option.bind_eq_bind,
    Option.bind_some, Option.map_some, true_or, if_true, Option.pure_def]
  exact if_pos ⟨hmonth, hmonth', hday, hday', hhour, hminute, hsecond, hmicrosecond⟩

end DateTime

/-- **A point in time of the calendar is accepted in its written form.** -/
theorem Check.dateTime_text {t : DateTime} (h : t.Valid) : Check.dateTime (.str t.text) = .ok t := by
  have hyear : t.year ≠ 0 := by
    have := h.1
    omega
  simp only [Check.dateTime, Check.dateTimeOfText, DateTime.ofText?_text h, Check.dated, if_neg hyear]
end TokenLedger
