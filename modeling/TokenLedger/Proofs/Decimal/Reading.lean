/-
# Reading the text of a decimal

The text of a decimal keeps its sign, its coefficient and its exponent, so reading it gives the decimal
back (`Numeral.read?_text`), provided that it lies within the limits of what can be read. Positional
and with a power of ten, the text has one build: digits before the point, a point with digits behind it
or neither, and a power of ten or none.

Key definitions: `Numeral.fractionText`, `Decimal.Spelled`.
Key theorems: `Numeral.readExponent?_signed`, `Numeral.readFinite?_parts`,
`Decimal.exists_positional_parts`, `Decimal.exists_parts`, `Numeral.read?_parts`, `Numeral.read?_text`.
-/
import TokenLedger.Number.Numeral
import TokenLedger.Proofs.Decimal.Plain
import TokenLedger.Proofs.Text.Normal

namespace TokenLedger

/-! ### The characters of a decimal -/

namespace Decimal

/-- A character of the written form of a decimal. -/
def Spelled (c : Char) : Prop :=
  c.isDigit = true ∨ c = '.' ∨ c = '-' ∨ c = '+' ∨ c = 'E'

variable {c : Char} {cs : List Char}

theorem toNat_of_isDigit (h : c.isDigit = true) : 48 ≤ c.toNat ∧ c.toNat ≤ 57 := by
  simp only [Char.isDigit, Bool.and_eq_true, decide_eq_true_eq, ge_iff_le,
    UInt32.le_iff_toNat_le] at h
  exact h

theorem not_blank_of_isDigit : ∀ k, 48 ≤ k → k ≤ 57 → Text.isBlank (Char.ofNat k) = false := by
  intro k hlow hhigh
  interval_cases k <;> decide

/-- Such a character is one of ASCII, no blank and no underscore. -/
theorem Spelled.facts (h : Spelled c) :
    Text.isBlank c = false ∧ (c != '_') = true ∧ Numeral.asciiChar? c = some c := by
  rcases h with h | rfl | rfl | rfl | rfl
  · obtain ⟨hlow, hhigh⟩ := toNat_of_isDigit h
    have hblank := not_blank_of_isDigit c.toNat hlow hhigh
    rw [Char.ofNat_toNat] at hblank
    have hunderscore : c ≠ '_' := by
      rintro rfl
      exact absurd h (by decide)
    refine ⟨hblank, bne_iff_ne.mpr hunderscore, ?_⟩
    unfold Numeral.asciiChar?
    rw [if_pos (by omega)]
  all_goals decide

/-- A text of such characters is taken as it stands. -/
theorem asciiChars?_of_spelled (h : ∀ c ∈ cs, Spelled c) : Numeral.asciiChars? cs = some cs := by
  have htrim : Text.trim Text.isBlank cs = cs :=
    Text.trim_eq_self (fun c hc => (h c (List.mem_of_mem_head? hc)).facts.1)
      (fun c hc => (h c (List.mem_of_getLast? hc)).facts.1)
  have hfilter : cs.filter (· != '_') = cs :=
    List.filter_eq_self.mpr fun c hc => (h c hc).facts.2.1
  unfold Numeral.asciiChars?
  rw [htrim, hfilter]
  clear htrim hfilter
  induction cs with
  | nil => rfl
  | cons c cs ih =>
    have hc := (h c List.mem_cons_self).facts.2.2
    rw [List.mapM_cons, hc, ih fun d hd => h d (List.mem_cons_of_mem _ hd)]
    rfl

end Decimal

/-! ### The parts of a numeral -/

namespace Numeral

variable {whole fraction tail : List Char} {negative : Bool} {e : ℤ}

/-- A point with digits behind it, or neither. -/
def fractionText (fraction : List Char) : List Char :=
  if fraction = [] then [] else '.' :: fraction

theorem readExponent?_signed (x : ℤ) : readExponent? ('E' :: Decimal.signedExponent x) = some x := by
  have hsplit : splitSign (Decimal.signedExponent x) = (decide (x < 0), Nat.toDigits 10 x.natAbs) := by
    unfold Decimal.signedExponent
    by_cases hx : x < 0
    · rw [if_pos hx, decide_eq_true hx]
      rfl
    · rw [if_neg hx, decide_eq_false hx]
      rfl
  have hdigits : Nat.toDigits 10 x.natAbs ≠ [] ∧ (Nat.toDigits 10 x.natAbs).all Char.isDigit = true :=
    ⟨Nat.toDigits_ne_nil, List.all_eq_true.mpr fun _ => Decimal.isDigit_of_mem_digits⟩
  rw [readExponent?, if_pos (.inr rfl), hsplit]
  simp only [if_pos hdigits, Text.natOfDigits_toDigits, decide_eq_true_eq, Option.some.injEq]
  by_cases hx : x < 0
  · rw [if_pos hx]
    omega
  · rw [if_neg hx]
    omega

/-- **Reading a number part by part.** What follows the digits may be a power of ten only. -/
theorem readFinite?_parts (hwhole : ∀ c ∈ whole, c.isDigit = true)
    (hfraction : ∀ c ∈ fraction, c.isDigit = true) (htail : ∀ c, tail.head? = some c → c = 'E')
    (hdigits : whole ++ fraction ≠ []) (he : readExponent? tail = some e)
    (hreadable : (⟨negative, Text.natOfDigits (whole ++ fraction), e - fraction.length⟩ :
      Decimal).readable = true) :
    readFinite? negative (whole ++ (fractionText fraction ++ tail)) =
      some ⟨negative, Text.natOfDigits (whole ++ fraction), e - fraction.length⟩ := by
  have hstop : tail.takeWhile Char.isDigit = [] ∧ tail.dropWhile Char.isDigit = tail := by
    cases tail with
    | nil => exact ⟨rfl, rfl⟩
    | cons c cs =>
      obtain rfl : c = 'E' := htail c rfl
      exact ⟨List.takeWhile_cons_of_neg (by decide), List.dropWhile_cons_of_neg (by decide)⟩
  have hpoint : (fractionText fraction ++ tail).takeWhile Char.isDigit = [] ∧
      (fractionText fraction ++ tail).dropWhile Char.isDigit = fractionText fraction ++ tail := by
    unfold fractionText
    by_cases hnil : fraction = []
    · rw [if_pos hnil, List.nil_append]
      exact hstop
    · rw [if_neg hnil, List.cons_append]
      exact ⟨List.takeWhile_cons_of_neg (by decide), List.dropWhile_cons_of_neg (by decide)⟩
  have hsplit : splitFraction (fractionText fraction ++ tail) = (fraction, tail) := by
    unfold fractionText
    by_cases hnil : fraction = []
    · rw [if_pos hnil, List.nil_append, hnil]
      cases tail with
      | nil => rfl
      | cons c cs =>
        obtain rfl : c = 'E' := htail c rfl
        rfl
    · rw [if_neg hnil, List.cons_append, splitFraction, List.takeWhile_append_of_pos hfraction,
        List.dropWhile_append_of_pos hfraction, hstop.1, hstop.2, List.append_nil]
  unfold readFinite?
  simp only [List.takeWhile_append_of_pos hwhole, List.dropWhile_append_of_pos hwhole, hpoint.1,
    hpoint.2, List.append_nil, hsplit, if_neg hdigits, he, Option.bind_eq_bind, Option.bind_some,
    hreadable, if_true]

end Numeral

/-! ### The parts of a written decimal -/

namespace Decimal

variable {d : Decimal}

theorem pointed_cons (c : Char) (cs : List Char) :
    pointed (c :: cs) = c :: Numeral.fractionText cs := by
  cases cs with
  | nil => rfl
  | cons e es => rfl

/-- Digits in positional form are parted by the point, if there is one. As many stand behind it as the
power of ten asks, with zeros filled in between the point and the digits or behind the digits. The first
digit stays the first unless a zero has to stand before the point, and the last digit stays the last
behind the point. -/
theorem exists_positional_parts {ds : List Char} (hdigits : ∀ c ∈ ds, c.isDigit = true)
    (hne : ds ≠ []) (x : ℤ) : ∃ whole fraction : List Char,
    positional ds x = whole ++ Numeral.fractionText fraction ∧
    (∀ c ∈ whole, c.isDigit = true) ∧ whole ≠ [] ∧ (∀ c ∈ fraction, c.isDigit = true) ∧
    Text.natOfDigits (whole ++ fraction) = 10 ^ x.toNat * Text.natOfDigits ds ∧
    fraction.length = (-x).toNat ∧ (whole.head? = ds.head? ∨ whole = ['0']) ∧
    (fraction ≠ [] → fraction.getLast? = ds.getLast?) := by
  unfold positional
  by_cases hx : 0 ≤ x
  · -- no point
    have hlength : (-x).toNat = 0 := by omega
    refine ⟨ds ++ List.replicate x.toNat '0', [], ?_, ?_, by simp [hne], by simp, ?_, hlength.symm,
      .inl (List.head?_append_of_ne_nil _ hne), fun h => absurd rfl h⟩
    · rw [if_pos hx, Numeral.fractionText, if_pos rfl, List.append_nil]
    · intro c hc
      rcases List.mem_append.mp hc with hc | hc
      · exact hdigits c hc
      · rw [List.eq_of_mem_replicate hc]
        decide
    · rw [List.append_nil, natOfDigits_append_zeros]
  have hnone : x.toNat = 0 := by omega
  simp only [if_neg hx, hnone, pow_zero, one_mul]
  by_cases hplaces : (-x).toNat < ds.length
  · -- a point among the digits
    have hdrop : ds.drop (ds.length - (-x).toNat) ≠ [] := by
      rw [ne_eq, List.drop_eq_nil_iff]
      omega
    have htake : ds.take (ds.length - (-x).toNat) ≠ [] := by
      rw [ne_eq, List.take_eq_nil_iff, not_or]
      exact ⟨by omega, hne⟩
    refine ⟨ds.take (ds.length - (-x).toNat), ds.drop (ds.length - (-x).toNat), ?_,
      fun c hc => hdigits c (List.mem_of_mem_take hc), htake,
      fun c hc => hdigits c (List.mem_of_mem_drop hc), ?_, ?_, .inl ?_, fun _ => ?_⟩
    · rw [if_pos hplaces, Numeral.fractionText, if_neg hdrop]
    · rw [List.take_append_drop]
    · rw [List.length_drop]
      omega
    · rw [List.head?_take, if_neg (by omega)]
    · rw [List.getLast?_drop, if_neg (by omega)]
  · -- a point before the digits
    have hfraction : List.replicate ((-x).toNat - ds.length) '0' ++ ds ≠ [] := by
      simp [hne]
    refine ⟨['0'], List.replicate ((-x).toNat - ds.length) '0' ++ ds, ?_, by simp, by simp, ?_, ?_, ?_,
      .inr rfl, fun _ => List.getLast?_append_of_ne_nil _ hne⟩
    · rw [if_neg hplaces, Numeral.fractionText, if_neg hfraction]
      rfl
    · intro c hc
      rcases List.mem_append.mp hc with hc | hc
      · rw [List.eq_of_mem_replicate hc]
        decide
      · exact hdigits c hc
    · rw [← List.append_assoc, List.singleton_append, ← List.replicate_succ, natOfDigits_zeros]
    · rw [List.length_append, List.length_replicate]
      omega

/-- **A written decimal has the digits of its coefficient**, zeros in front of them apart, and a power
of ten that makes up for the point. -/
theorem exists_parts (d : Decimal) : ∃ whole fraction tail : List Char,
    d.text = String.ofList (sign d.negative ++ (whole ++ (Numeral.fractionText fraction ++ tail))) ∧
    (∀ c ∈ whole, c.isDigit = true) ∧ whole ≠ [] ∧ (∀ c ∈ fraction, c.isDigit = true) ∧
    Text.natOfDigits (whole ++ fraction) = d.coefficient ∧
    ((tail = [] ∧ d.exponent = -fraction.length) ∨
      ∃ e, tail = 'E' :: signedExponent e ∧ d.exponent = e - fraction.length) := by
  have hdigits : ∀ c ∈ Nat.toDigits 10 d.coefficient, c.isDigit = true := fun _ => isDigit_of_mem_digits
  have hvalue := Text.natOfDigits_toDigits d.coefficient
  have hleading : d.leading = d.exponent + (Nat.toDigits 10 d.coefficient).length - 1 := rfl
  have hne : Nat.toDigits 10 d.coefficient ≠ [] := Nat.toDigits_ne_nil
  unfold text
  generalize Nat.toDigits 10 d.coefficient = ds at hdigits hvalue hleading hne
  by_cases hform : d.exponent ≤ 0 ∧ -6 ≤ d.leading
  · obtain ⟨whole, fraction, hparts, hwhole, hne', hfraction, hsame, hlength, -, -⟩ :=
      exists_positional_parts hdigits hne d.exponent
    have hnone : d.exponent.toNat = 0 := by omega
    have hexponent : d.exponent = -(fraction.length : ℤ) := by omega
    rw [hnone, pow_zero, one_mul] at hsame
    refine ⟨whole, fraction, [], ?_, hwhole, hne', hfraction, hsame.trans hvalue, .inl ⟨rfl, hexponent⟩⟩
    rw [List.append_nil, ← hparts]
    simp only [if_pos hform]
  · obtain ⟨c, cs, rfl⟩ := List.exists_cons_of_ne_nil hne
    simp only [if_neg hform]
    refine ⟨[c], cs, 'E' :: signedExponent d.leading, ?_, ?_, by simp, ?_, hvalue, .inr ⟨_, rfl, ?_⟩⟩
    · rw [pointed_cons, List.cons_append, List.singleton_append]
    · intro e he
      rw [List.mem_singleton.mp he]
      exact hdigits c List.mem_cons_self
    · exact fun e he => hdigits e (List.mem_cons_of_mem _ he)
    · rw [hleading, List.length_cons]
      push_cast
      ring

theorem spelled_of_mem_fractionText {fraction : List Char} {c : Char}
    (h : ∀ c ∈ fraction, c.isDigit = true) (hc : c ∈ Numeral.fractionText fraction) : Spelled c := by
  unfold Numeral.fractionText at hc
  by_cases hnil : fraction = []
  · rw [if_pos hnil] at hc
    cases hc
  · rw [if_neg hnil, List.mem_cons] at hc
    rcases hc with rfl | hc
    · exact .inr (.inl rfl)
    · exact .inl (h c hc)

theorem spelled_of_mem_signedExponent {e : ℤ} {c : Char} (hc : c ∈ 'E' :: signedExponent e) :
    Spelled c := by
  unfold signedExponent at hc
  rw [List.mem_cons, List.mem_cons] at hc
  rcases hc with rfl | rfl | hc
  · exact .inr (.inr (.inr (.inr rfl)))
  · split
    · exact .inr (.inr (.inl rfl))
    · exact .inr (.inr (.inr (.inl rfl)))
  · exact .inl (isDigit_of_mem_digits hc)

theorem spelled_of_mem_sign {n : Bool} {c : Char} (hc : c ∈ sign n) : Spelled c := by
  cases n with
  | false => cases hc
  | true => exact .inr (.inr (.inl (List.mem_singleton.mp hc)))

end Decimal

/-- A sign in front of a digit is split off. -/
theorem Numeral.splitSign_sign (n : Bool) {c : Char} (hc : c.isDigit = true) (cs : List Char) :
    splitSign (Decimal.sign n ++ c :: cs) = (n, c :: cs) := by
  cases n with
  | true => rfl
  | false =>
    show splitSign (c :: cs) = (false, c :: cs)
    unfold splitSign
    split
    · rename_i heq
      cases heq
      exact absurd hc (by decide)
    · rename_i heq
      cases heq
      exact absurd hc (by decide)
    · rfl

/-- **A text of digits is read as its parts say**: a sign, digits, a point with digits or neither, and a
power of ten or none. -/
theorem Numeral.read?_parts {negative : Bool} {whole fraction tail : List Char} {e : ℤ}
    (hwhole : ∀ c ∈ whole, c.isDigit = true) (hne : whole ≠ [])
    (hfraction : ∀ c ∈ fraction, c.isDigit = true) (hstart : ∀ c, tail.head? = some c → c = 'E')
    (hspelled : ∀ c ∈ tail, Decimal.Spelled c) (he : readExponent? tail = some e)
    (hreadable : (⟨negative, Text.natOfDigits (whole ++ fraction), e - fraction.length⟩ :
      Decimal).readable = true) :
    read? (String.ofList (Decimal.sign negative ++ (whole ++ (fractionText fraction ++ tail)))) =
      some (.finite ⟨negative, Text.natOfDigits (whole ++ fraction), e - fraction.length⟩) := by
  have hascii : asciiChars? (Decimal.sign negative ++ (whole ++ (fractionText fraction ++ tail))) =
      some (Decimal.sign negative ++ (whole ++ (fractionText fraction ++ tail))) := by
    refine Decimal.asciiChars?_of_spelled fun c hc => ?_
    simp only [List.mem_append] at hc
    rcases hc with hc | hc | hc | hc
    · exact Decimal.spelled_of_mem_sign hc
    · exact .inl (hwhole c hc)
    · exact Decimal.spelled_of_mem_fractionText hfraction hc
    · exact hspelled c hc
  have hsign : splitSign (Decimal.sign negative ++ (whole ++ (fractionText fraction ++ tail))) =
      (negative, whole ++ (fractionText fraction ++ tail)) := by
    obtain ⟨c, cs, rfl⟩ := List.exists_cons_of_ne_nil hne
    rw [List.cons_append]
    exact splitSign_sign negative (hwhole c List.mem_cons_self) _
  have hfinite := readFinite?_parts hwhole hfraction hstart (by simp [hne]) he hreadable
  unfold Numeral.read?
  rw [String.toList_ofList, hascii]
  simp only [Option.bind_eq_bind, Option.bind_some, hsign, hfinite]

/-- **Reading the text of a decimal gives it back**, with its coefficient and its exponent. -/
theorem Numeral.read?_text {d : Decimal} (h : d.readable = true) :
    Numeral.read? d.text = some (.finite d) := by
  obtain ⟨whole, fraction, tail, htext, hwhole, hne, hfraction, hvalue, htail⟩ := d.exists_parts
  obtain ⟨e, he, hexponent, hspelled, hstart⟩ : ∃ e, readExponent? tail = some e ∧
      d.exponent = e - fraction.length ∧ (∀ c ∈ tail, Decimal.Spelled c) ∧
      ∀ c, tail.head? = some c → c = 'E' := by
    rcases htail with ⟨rfl, hexponent⟩ | ⟨e, rfl, hexponent⟩
    · exact ⟨0, rfl, by rw [hexponent]; ring, by simp, by simp⟩
    · exact ⟨e, readExponent?_signed e, hexponent, fun _ => Decimal.spelled_of_mem_signedExponent,
        by simp [eq_comm]⟩
  have hd : (⟨d.negative, Text.natOfDigits (whole ++ fraction), e - fraction.length⟩ : Decimal) = d := by
    rw [hvalue, ← hexponent]
  rw [htext, read?_parts hwhole hne hfraction hstart hspelled he (by rw [hd]; exact h), hd]

end TokenLedger
