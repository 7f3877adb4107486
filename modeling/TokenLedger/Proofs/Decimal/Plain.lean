/-
# The plain text of a decimal shows its sign and its value

`unsignedValue` reads a text of digits with an optional point. Read so, the positional form of a
decimal denotes its absolute value (`unsignedValue_positional`), and only a minus sign in front of it
is no digit; so two decimals of one plain text have one sign and one value (`plain_eq_plain`). With
the reduced form in between, two decimals have one canonical text exactly if they have one sign and
their rounded values are the same (`sameText_iff_sameRounding`). No such text holds a colon. A whole
number is written as a decimal without places, so its text is its own as well (`Whole.text_injective`).

Key definitions: `Decimal.unsignedValue`, `Decimal.SameText`, `Decimal.SameRounding`.
Key theorems: `Decimal.unsignedValue_positional`, `Decimal.plain_eq_plain`,
`Decimal.sameText_iff_sameRounding`, `Decimal.isDigit_or_mark_of_mem_plain`, `Whole.text_injective`.
-/
import TokenLedger.Number.Whole
import TokenLedger.Proofs.Decimal.Rounding

namespace TokenLedger
namespace Decimal

variable {d e : Decimal}

/-! ### Reading a positional form -/

/-- The number that a text of digits, with a point among them or without one, denotes. -/
def unsignedValue (cs : List Char) : ℚ :=
  let fraction := (cs.dropWhile Char.isDigit).drop 1
  Text.natOfDigits (cs.takeWhile Char.isDigit ++ fraction) * 10 ^ (-(fraction.length : ℤ))

theorem unsignedValue_of_all {ds : List Char} (h : ∀ c ∈ ds, c.isDigit = true) :
    unsignedValue ds = Text.natOfDigits ds := by
  have ht : ds.takeWhile Char.isDigit = ds := List.takeWhile_eq_self_iff.mpr h
  have hd : ds.dropWhile Char.isDigit = [] := List.dropWhile_eq_nil_iff.mpr h
  simp [unsignedValue, ht, hd]

theorem unsignedValue_point {ds : List Char} (h : ∀ c ∈ ds, c.isDigit = true) (fs : List Char) :
    unsignedValue (ds ++ '.' :: fs) = Text.natOfDigits (ds ++ fs) * 10 ^ (-(fs.length : ℤ)) := by
  have ht : (ds ++ '.' :: fs).takeWhile Char.isDigit = ds := by
    rw [List.takeWhile_append_of_pos h, List.takeWhile_cons_of_neg (by decide), List.append_nil]
  have hd : (ds ++ '.' :: fs).dropWhile Char.isDigit = '.' :: fs := by
    rw [List.dropWhile_append_of_pos h, List.dropWhile_cons_of_neg (by decide)]
  simp [unsignedValue, ht, hd]

theorem natOfDigits_zeros (k : ℕ) (ds : List Char) :
    Text.natOfDigits (List.replicate k '0' ++ ds) = Text.natOfDigits ds := by
  simp [Text.natOfDigits, Nat.ofDigitChars_append]

theorem natOfDigits_append_zeros (ds : List Char) (k : ℕ) :
    Text.natOfDigits (ds ++ List.replicate k '0') = 10 ^ k * Text.natOfDigits ds := by
  simp [Text.natOfDigits, Nat.ofDigitChars_append]

/-- **The positional form denotes the digits times the power of ten.** -/
theorem unsignedValue_positional {ds : List Char} (h : ∀ c ∈ ds, c.isDigit = true) (x : ℤ) :
    unsignedValue (positional ds x) = Text.natOfDigits ds * 10 ^ x := by
  have hzero : ∀ k, ∀ c ∈ List.replicate k '0', c.isDigit = true := fun k c hc => by
    rw [List.eq_of_mem_replicate hc]; decide
  unfold positional
  split
  · rename_i hx
    rw [unsignedValue_of_all (fun c hc => (List.mem_append.mp hc).elim (h c) (hzero _ c)),
      natOfDigits_append_zeros]
    push_cast
    rw [mul_comm, ← zpow_natCast, Int.toNat_of_nonneg hx]
  · rename_i hx
    simp only
    split
    · rename_i hlen
      rw [unsignedValue_point (fun c hc => h c (List.mem_of_mem_take hc)),
        List.take_append_drop, List.length_drop]
      congr 2
      omega
    · rename_i hlen
      have hz := unsignedValue_point (hzero 1) (List.replicate ((-x).toNat - ds.length) '0' ++ ds)
      simp only [List.replicate_one, List.singleton_append] at hz
      rw [hz, ← List.cons_append, ← List.replicate_succ, natOfDigits_zeros]
      congr 2
      simp only [List.length_append, List.length_replicate]
      omega

/-! ### Plain texts -/

theorem isDigit_of_mem_digits {n : ℕ} {c : Char} (h : c ∈ Nat.toDigits 10 n) : c.isDigit = true :=
  Nat.isDigit_of_mem_toDigits (by norm_num) (by norm_num) h

/-- The digits of a natural other than zero do not start with a zero. -/
theorem exists_toDigits_eq_cons {k : ℕ} (hk : k ≠ 0) :
    ∃ c cs, Nat.toDigits 10 k = c :: cs ∧ c ≠ '0' := by
  induction k using Nat.strong_induction_on with
  | _ k ih =>
    by_cases hsmall : k < 10
    · have hdigit : ∀ m < 10, m ≠ 0 → Nat.digitChar m ≠ '0' := by decide
      exact ⟨Nat.digitChar k, [], Nat.toDigits_of_lt_base hsmall, hdigit k hsmall hk⟩
    · obtain ⟨c, cs, hcs, hc⟩ := ih (k / 10) (by omega) (by omega)
      refine ⟨c, cs ++ [Nat.digitChar (k % 10)], ?_, hc⟩
      rw [Nat.toDigits_of_base_le (by norm_num) (by omega), hcs, List.cons_append]

/-- A positional form starts with a digit. -/
theorem exists_positional_eq_cons {ds : List Char} (h : ∀ c ∈ ds, c.isDigit = true) (hne : ds ≠ [])
    (x : ℤ) : ∃ c cs, positional ds x = c :: cs ∧ c.isDigit = true := by
  obtain ⟨c, cs, rfl⟩ := List.exists_cons_of_ne_nil hne
  have hc : c.isDigit = true := h c List.mem_cons_self
  unfold positional
  split
  · exact ⟨c, _, rfl, hc⟩
  · simp only
    split
    · rename_i hlen
      obtain ⟨k, hk⟩ : ∃ k, (c :: cs).length - (-x).toNat = k + 1 :=
        ⟨(c :: cs).length - (-x).toNat - 1, by omega⟩
      rw [hk, List.take_succ_cons]
      exact ⟨c, _, rfl, hc⟩
    · exact ⟨'0', _, rfl, by decide⟩

theorem sign_append_inj {n m : Bool} {cs ds : List Char} (h : sign n ++ cs = sign m ++ ds)
    (hc : cs.head? ≠ some '-') (hd : ds.head? ≠ some '-') : n = m ∧ cs = ds := by
  cases n <;> cases m <;> simp only [sign, Bool.false_eq_true, ↓reduceIte, List.nil_append,
    List.singleton_append] at h
  · exact ⟨rfl, h⟩
  · rw [h] at hc; exact absurd rfl hc
  · rw [← h] at hd; exact absurd rfl hd
  · exact ⟨rfl, List.tail_eq_of_cons_eq h⟩

theorem unsignedValue_plain (d : Decimal) :
    unsignedValue (positional (Nat.toDigits 10 d.coefficient) d.exponent) = |d.value| := by
  rw [unsignedValue_positional fun _ => isDigit_of_mem_digits, Text.natOfDigits_toDigits, abs_value]

/-- Sign and absolute value are all there is to a value. -/
theorem value_eq_of_abs (hn : d.negative = e.negative) (h : |d.value| = |e.value|) :
    d.value = e.value := by
  rw [abs_value, abs_value] at h
  unfold value
  rw [hn]
  split
  · rw [neg_mul, neg_mul, h]
  · exact h

/-- **The plain text of a decimal shows its sign and its value.** -/
theorem plain_eq_plain (h : d.plain = e.plain) : d.negative = e.negative ∧ d.value = e.value := by
  have hdash : ∀ d : Decimal,
      (positional (Nat.toDigits 10 d.coefficient) d.exponent).head? ≠ some '-' := by
    intro d hd
    obtain ⟨c, cs, hcs, hc⟩ := exists_positional_eq_cons
      (fun _ => isDigit_of_mem_digits) (Nat.toDigits_ne_nil (n := d.coefficient)) d.exponent
    rw [hcs, List.head?_cons, Option.some.injEq] at hd
    rw [hd] at hc
    exact absurd hc (by decide)
  obtain ⟨hn, hp⟩ := sign_append_inj (String.ofList_injective h) (hdash d) (hdash e)
  refine ⟨hn, value_eq_of_abs hn ?_⟩
  rw [← unsignedValue_plain, ← unsignedValue_plain, hp]

theorem mem_positional {ds : List Char} {x : ℤ} {c : Char} (h : c ∈ positional ds x) :
    c ∈ ds ∨ c = '0' ∨ c = '.' := by
  unfold positional at h
  split at h
  · exact (List.mem_append.mp h).imp_right fun hc => .inl (List.eq_of_mem_replicate hc)
  · simp only at h
    split at h
    · rcases List.mem_append.mp h with hc | hc
      · exact .inl (List.mem_of_mem_take hc)
      · rcases List.mem_cons.mp hc with rfl | hc
        · exact .inr (.inr rfl)
        · exact .inl (List.mem_of_mem_drop hc)
    · simp only [List.mem_cons, List.mem_append] at h
      rcases h with rfl | rfl | hc | hc
      · exact .inr (.inl rfl)
      · exact .inr (.inr rfl)
      · exact .inr (.inl (List.eq_of_mem_replicate hc))
      · exact .inl hc

/-- A plain text is made of digits, a point and a minus sign. -/
theorem isDigit_or_mark_of_mem_plain {c : Char} (h : c ∈ d.plain.toList) :
    c.isDigit = true ∨ c = '.' ∨ c = '-' := by
  rw [plain, String.toList_ofList] at h
  rcases List.mem_append.mp h with hc | hc
  · unfold sign at hc
    split at hc
    · exact .inr (.inr (List.mem_singleton.mp hc))
    · cases hc
  · rcases mem_positional hc with hc | rfl | rfl
    · exact .inl (isDigit_of_mem_digits hc)
    · exact .inl (by decide)
    · exact .inr (.inl rfl)

/-! ### Canonical texts -/

/-- Two decimals have one canonical text. -/
def SameText (d e : Decimal) : Prop :=
  ∃ s, d.canonicalText = .ok s ∧ e.canonicalText = .ok s

/-- Two decimals have one sign and are rounded to one value. -/
def SameRounding (d e : Decimal) : Prop :=
  d.negative = e.negative ∧
    ∃ r r', d.rounded .ledger = .ok r ∧ e.rounded .ledger = .ok r' ∧ r.value = r'.value

theorem canonicalText_eq_ok_iff {s : String} :
    d.canonicalText = .ok s ↔ ∃ r, d.rounded .ledger = .ok r ∧ r.reduced.plain = s := by
  unfold canonicalText
  cases d.rounded .ledger <;> simp [Except.map]

/-- **One canonical text is one sign and one rounded value.** -/
theorem sameText_iff_sameRounding : SameText d e ↔ SameRounding d e := by
  constructor
  · rintro ⟨s, hd, he⟩
    obtain ⟨r, hr, hrs⟩ := canonicalText_eq_ok_iff.mp hd
    obtain ⟨r', hr', hrs'⟩ := canonicalText_eq_ok_iff.mp he
    obtain ⟨hn, hv⟩ := plain_eq_plain (hrs.trans hrs'.symm)
    rw [reduced_negative, reduced_negative, rounded_negative hr, rounded_negative hr'] at hn
    rw [value_reduced, value_reduced] at hv
    exact ⟨hn, r, r', hr, hr', hv⟩
  · rintro ⟨hn, r, r', hr, hr', hv⟩
    have hred : r.reduced = r'.reduced := by
      rw [reduced_eq_reduced_iff, rounded_negative hr, rounded_negative hr']
      exact ⟨hn, hv⟩
    exact ⟨_, canonicalText_eq_ok_iff.mpr ⟨r, hr, rfl⟩,
      canonicalText_eq_ok_iff.mpr ⟨r', hr', by rw [hred]⟩⟩

/-- Where the digits of both lie within the precision, one rounded value is one value. -/
theorem SameRounding.value_eq (h : SameRounding d e) (hd : d.Within .ledger)
    (he : e.Within .ledger) : d.value = e.value := by
  obtain ⟨-, r, r', hr, hr', hv⟩ := h
  obtain ⟨q, hq, hqv⟩ := rounded_of_within (by decide) hd
  obtain ⟨q', hq', hqv'⟩ := rounded_of_within (by decide) he
  rw [hr] at hq
  rw [hr'] at hq'
  cases hq
  cases hq'
  rw [← hqv, ← hqv', hv]

/-- No canonical text holds a colon. -/
theorem colon_notMem_canonicalText {s : String} (h : d.canonicalText = .ok s) :
    ':' ∉ s.toList := by
  obtain ⟨r, -, rfl⟩ := canonicalText_eq_ok_iff.mp h
  intro hc
  rcases isDigit_or_mark_of_mem_plain hc with hc | hc | hc
  · exact absurd hc (by decide)
  · exact absurd hc (by decide)
  · exact absurd hc (by decide)

/-! ### Whole numbers -/

theorem value_ofInt (n : ℤ) : (ofInt n).value = n := by
  have habs : |(ofInt n).value| = |(n : ℚ)| := by
    rw [abs_value]
    simp [ofInt, Nat.cast_natAbs]
  by_cases hn : n < 0
  · have hneg : (ofInt n).value ≤ 0 := by
      simp [value, ofInt, hn]
    have hcast : (n : ℚ) < 0 := by exact_mod_cast hn
    rw [abs_of_nonpos hneg, abs_of_neg hcast] at habs
    exact neg_injective habs
  · have hpos : 0 ≤ (ofInt n).value := by
      simp [value, ofInt, hn]
    have hcast : 0 ≤ (n : ℚ) := by exact_mod_cast not_lt.mp hn
    rwa [abs_of_nonneg hpos, abs_of_nonneg hcast] at habs

end Decimal

namespace Whole

variable {m n : ℤ}

/-- A whole number is written as a decimal without places. -/
theorem text_eq_plain (n : ℤ) : text n = (Decimal.ofInt n).plain := by
  simp [text, Decimal.plain, Decimal.ofInt, Decimal.positional]

theorem text_injective (h : text m = text n) : m = n := by
  rw [text_eq_plain, text_eq_plain] at h
  have hvalue := (Decimal.plain_eq_plain h).2
  rw [Decimal.value_ofInt, Decimal.value_ofInt] at hvalue
  exact Int.cast_injective hvalue

/-- A written whole number holds no character but digits, a point and a minus sign. -/
theorem notMem_text {c : Char} (hdigit : c.isDigit = false) (hpoint : c ≠ '.') (hdash : c ≠ '-')
    (n : ℤ) : c ∉ (text n).toList := by
  intro hc
  rw [text_eq_plain] at hc
  rcases Decimal.isDigit_or_mark_of_mem_plain hc with h | h | h
  · rw [hdigit] at h
    cases h
  · exact hpoint h
  · exact hdash h

end Whole
end TokenLedger
