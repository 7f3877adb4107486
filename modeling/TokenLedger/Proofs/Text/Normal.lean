/-
# Trimmed texts and texts in lower case

Trimming a text and taking it to lower case come to rest: what is trimmed has no blank at its ends
(`Text.trim_eq_self`), and what is in lower case stays as it is (`Text.toLower_toLower`). The latter
holds because no letter of the tables is the lower case form of another. That is checked for all of them
at once: the letters are the bits of one number, their forms those of another, and the two have no bit in
common (`Text.forms_checked`). No blank is the lower case form of a letter either, so a text that does
not end in a blank does not do so in lower case.

Key definitions: `marks`, `CaseRun.letters`, `CaseRun.forms`, `IsLower`, `lowerIn`.
Key theorems: `trim_eq_self`, `trim_between`, `not_covers_of_form`, `not_spared_of_form`,
`lowerSimple_cases`, `isLower_iff`, `isLower_of_mem_toLower`, `toLower_toLower`,
`isBlank_of_getLast?_toLower`.
-/
import Mathlib
import TokenLedger.Text.LowerCase

namespace TokenLedger
namespace Text

/-! ### Trimming -/

section Trim

variable {p : Char → Bool} {cs before after : List Char} {c : Char}

/-- A text without a character of the class at its ends stays. -/
theorem trim_eq_self (hfirst : ∀ c, cs.head? = some c → p c = false)
    (hlast : ∀ c, cs.getLast? = some c → p c = false) : trim p cs = cs := by
  have hdrop : ∀ ds : List Char, (∀ c, ds.head? = some c → p c = false) → ds.dropWhile p = ds := by
    intro ds hds
    cases ds with
    | nil => rfl
    | cons d ds => exact List.dropWhile_cons_of_neg (by simp [hds d rfl])
  unfold trim
  rw [hdrop cs hfirst, hdrop cs.reverse, List.reverse_reverse]
  intro c hc
  rw [List.head?_reverse] at hc
  exact hlast c hc

/-- A trimmed text does not end in a character of the class. -/
theorem getLast?_trim (h : (trim p cs).getLast? = some c) : p c = false := by
  unfold trim at h
  rw [List.getLast?_reverse] at h
  have hnot := List.head?_dropWhile_not p (cs.dropWhile p).reverse
  rw [h] at hnot
  exact hnot

/-- What stands around a text does not count if it is of the class. -/
theorem trim_between (hbefore : ∀ c ∈ before, p c = true) (hafter : ∀ c ∈ after, p c = true)
    (hcs : ∀ c ∈ cs, p c = false) : trim p (before ++ cs ++ after) = cs := by
  have hreverse : ∀ c ∈ after.reverse, p c = true := fun c hc => hafter c (List.mem_reverse.mp hc)
  have hinner : trim p cs = cs :=
    trim_eq_self (fun c hc => hcs c (List.mem_of_mem_head? hc))
      (fun c hc => hcs c (List.mem_of_getLast? hc))
  unfold trim
  rw [List.append_assoc, List.dropWhile_append_of_pos hbefore]
  cases cs with
  | nil =>
    rw [List.nil_append, List.dropWhile_eq_nil_iff.mpr hafter]
    rfl
  | cons c cs =>
    have hc : ¬ p c = true := by simp [hcs c List.mem_cons_self]
    rw [List.cons_append, List.dropWhile_cons_of_neg hc, ← List.cons_append, List.reverse_append,
      List.dropWhile_append_of_pos hreverse]
    unfold trim at hinner
    rw [List.dropWhile_cons_of_neg hc] at hinner
    exact hinner

end Trim

/-! ### Code points as the bits of a number -/

/-- The number whose bits are the code points that stand `stride` apart from `first` on. -/
def marks (first stride : ℕ) : ℕ → ℕ
  | 0 => 0
  | count + 1 => marks first stride count ||| 1 <<< (first + count * stride)

/-- The number with the bits of all of these. -/
def union (ns : List ℕ) : ℕ :=
  ns.foldr (· ||| ·) 0

theorem testBit_marks {first stride count i : ℕ} (h : i < count) :
    (marks first stride count).testBit (first + i * stride) = true := by
  induction count with
  | zero => cases h
  | succ count ih =>
    rw [marks, Nat.one_shiftLeft, Nat.testBit_or, Bool.or_eq_true]
    rcases Nat.lt_succ_iff_lt_or_eq.mp h with h | rfl
    · exact .inl (ih h)
    · exact .inr (Nat.testBit_two_pow_self ..)

theorem testBit_union {ns : List ℕ} {n k : ℕ} (hn : n ∈ ns) (hk : n.testBit k = true) :
    (union ns).testBit k = true := by
  induction ns with
  | nil => cases hn
  | cons m ns ih =>
    show (m ||| union ns).testBit k = true
    rw [Nat.testBit_or, Bool.or_eq_true]
    rcases List.mem_cons.mp hn with rfl | hn
    · exact .inl hk
    · exact .inr (ih hn)

/-! ### Runs of letters -/

namespace CaseRun

variable {r : CaseRun} {n m : ℕ}

theorem covers_iff : r.covers n = true ↔ r.first ≤ n ∧ n ≤ r.last ∧ (n - r.first) % r.stride = 0 := by
  simp [covers, and_assoc]

/-- How many letters a run has. -/
def count (r : CaseRun) : ℕ :=
  (r.last - r.first) / r.stride + 1

/-- The letters of a run, as bits. -/
def letters (r : CaseRun) : ℕ :=
  marks r.first r.stride r.count

/-- The lower case forms of the letters of a run, as bits. -/
def forms (r : CaseRun) : ℕ :=
  marks ((r.first : ℤ) + r.offset).toNat r.stride r.count

/-- A letter is counted from the first one in strides. -/
theorem exists_of_covers (h : r.covers n = true) : ∃ i < r.count, n = r.first + i * r.stride := by
  obtain ⟨hfirst, hlast, hstride⟩ := covers_iff.mp h
  have hle : (n - r.first) / r.stride ≤ (r.last - r.first) / r.stride :=
    Nat.div_le_div_right (Nat.sub_le_sub_right hlast _)
  refine ⟨(n - r.first) / r.stride, Nat.lt_succ_of_le hle, ?_⟩
  rw [Nat.div_mul_cancel (Nat.dvd_of_mod_eq_zero hstride)]
  omega

theorem testBit_letters (h : r.covers n = true) : r.letters.testBit n = true := by
  obtain ⟨i, hi, rfl⟩ := exists_of_covers h
  exact testBit_marks hi

theorem testBit_forms (hfirst : 0 ≤ (r.first : ℤ) + r.offset) (h : r.covers n = true)
    (hm : (m : ℤ) = n + r.offset) : r.forms.testBit m = true := by
  obtain ⟨i, hi, rfl⟩ := exists_of_covers h
  obtain rfl : m = ((r.first : ℤ) + r.offset).toNat + i * r.stride := by
    push_cast at hm
    omega
  exact testBit_marks hi

end CaseRun

/-! ### The tables -/

/-- Ranges that hold no lower case form: the capital I with a dot, the surrogates, the blanks. -/
def sparedRanges : List (ℕ × ℕ) :=
  (0x130, 0x130) :: (0xD800, 0xDFFF) :: (0x1C, 0x1F) :: spaceRanges

/-- A closed range, as bits. -/
def rangeMarks (range : ℕ × ℕ) : ℕ :=
  (1 <<< (range.2 - range.1 + 1) - 1) <<< range.1

theorem testBit_rangeMarks {range : ℕ × ℕ} {n : ℕ} (h : range.1 ≤ n ∧ n ≤ range.2) :
    (rangeMarks range).testBit n = true := by
  rw [rangeMarks, Nat.one_shiftLeft, Nat.testBit_shiftLeft, Nat.testBit_two_pow_sub_one,
    Bool.and_eq_true, decide_eq_true_eq, decide_eq_true_eq]
  omega

set_option maxRecDepth 4000 in
/-- What the tables are checked for, run by run: the letters of a run are the capitals of ASCII or beyond
ASCII, and their lower case forms are code points. -/
theorem lowerRuns_checked : ∀ r ∈ lowerRuns,
    ((r.first = 0x41 ∧ r.last = 0x5A) ∨ 0x80 ≤ r.first) ∧
      (0 ≤ (r.first : ℤ) + r.offset ∧ (r.last : ℤ) + r.offset < 0x110000) := by
  decide

set_option maxRecDepth 4000 in
/-- What all tables together are checked for: no lower case form is a letter or spared. -/
theorem forms_checked : union (lowerRuns.map CaseRun.forms) &&&
    union (lowerRuns.map CaseRun.letters ++ sparedRanges.map rangeMarks) = 0 := by
  decide

section Forms

variable {r : CaseRun} {n m : ℕ}

/-- What has the bit of a lower case form is no set of letters and no spared range. -/
theorem testBit_eq_false_of_form (hr : r ∈ lowerRuns) (hn : r.covers n = true)
    (hm : (m : ℤ) = n + r.offset) {k : ℕ}
    (hk : k ∈ lowerRuns.map CaseRun.letters ++ sparedRanges.map rangeMarks) :
    k.testBit m = false := by
  by_contra hbit
  rw [Bool.not_eq_false] at hbit
  have hform := r.testBit_forms (lowerRuns_checked r hr).2.1 hn hm
  have hboth := congrArg (Nat.testBit · m) forms_checked
  simp only [Nat.testBit_and, testBit_union (List.mem_map_of_mem hr) hform, testBit_union hk hbit,
    Nat.zero_testBit, Bool.and_self] at hboth
  cases hboth

/-- **No lower case form is a letter of the tables.** -/
theorem not_covers_of_form (hr : r ∈ lowerRuns) (hn : r.covers n = true)
    (hm : (m : ℤ) = n + r.offset) : ∀ q ∈ lowerRuns, q.covers m = false := by
  intro q hq
  by_contra hcovers
  rw [Bool.not_eq_false] at hcovers
  have hfalse := testBit_eq_false_of_form hr hn hm (List.mem_append_left _ (List.mem_map_of_mem hq))
  rw [CaseRun.testBit_letters hcovers] at hfalse
  cases hfalse

/-- Nor does it lie in a spared range. -/
theorem not_spared_of_form (hr : r ∈ lowerRuns) (hn : r.covers n = true)
    (hm : (m : ℤ) = n + r.offset) : ∀ range ∈ sparedRanges, ¬ (range.1 ≤ m ∧ m ≤ range.2) := by
  intro range hrange hin
  have hfalse := testBit_eq_false_of_form hr hn hm
    (List.mem_append_right _ (List.mem_map_of_mem hrange))
  rw [testBit_rangeMarks hin] at hfalse
  cases hfalse

end Forms

/-! ### Letters -/

/-- A character is no letter that has another lower case form. -/
def IsLower (c : Char) : Prop :=
  c ≠ '\u0130' ∧ ∀ r ∈ lowerRuns, r.covers c.toNat = false

instance (c : Char) : Decidable (IsLower c) := by
  unfold IsLower
  infer_instance

variable {c d : Char} {cs before after : List Char}

/-- A character is in no run and stays, or the run that holds it has the distance to its form. -/
theorem lowerSimple_cases (c : Char) :
    ((∀ r ∈ lowerRuns, r.covers c.toNat = false) ∧ lowerSimple c = c) ∨
    ∃ r ∈ lowerRuns, r.covers c.toNat = true ∧ ((lowerSimple c).toNat : ℤ) = c.toNat + r.offset := by
  unfold lowerSimple
  cases h : lowerRuns.find? (·.covers c.toNat) with
  | none =>
    left
    rw [List.find?_eq_none] at h
    exact ⟨fun r hr => Bool.eq_false_iff.mpr (h r hr), rfl⟩
  | some r =>
    right
    have hr : r ∈ lowerRuns := List.mem_of_find?_eq_some h
    have hcovers := List.find?_some h
    refine ⟨r, hr, hcovers, ?_⟩
    obtain ⟨hfirst, hlast, -⟩ := CaseRun.covers_iff.mp hcovers
    obtain ⟨-, hlow, hhigh⟩ := lowerRuns_checked r hr
    have hform : ((((c.toNat : ℤ) + r.offset).toNat : ℕ) : ℤ) = c.toNat + r.offset := by omega
    have hsurrogate := not_spared_of_form hr hcovers hform (0xD800, 0xDFFF) (by decide)
    have hvalid : (((c.toNat : ℤ) + r.offset).toNat).isValidChar := by
      unfold Nat.isValidChar
      omega
    simp only [Char.toNat_ofNat, if_pos hvalid]
    exact hform

theorem isLower_lowerSimple (hc : c ≠ '\u0130') : IsLower (lowerSimple c) := by
  rcases lowerSimple_cases c with ⟨hnone, hsame⟩ | ⟨r, hr, hcovers, hform⟩
  · rw [hsame]
    exact ⟨hc, hnone⟩
  · constructor
    · intro hdotted
      rw [hdotted] at hform
      exact not_spared_of_form hr hcovers hform (0x130, 0x130) (by decide) (by decide)
    · exact not_covers_of_form hr hcovers hform

/-- Of ASCII the capital letters have another form, and nothing else. -/
theorem isLower_of_ascii (hascii : c.toNat < 0x80) (hcapital : c.toNat < 0x41 ∨ 0x5A < c.toNat) :
    IsLower c := by
  constructor
  · rintro rfl
    exact absurd hascii (by decide)
  · intro r hr
    rw [Bool.eq_false_iff, ne_eq, CaseRun.covers_iff]
    rintro ⟨hfirst, hlast, -⟩
    rcases (lowerRuns_checked r hr).1 with ⟨hcap, hcap'⟩ | hbeyond <;> omega

set_option maxRecDepth 4000 in
/-- The mark that is put for the dot of a capital, and the forms of a capital sigma. -/
theorem isLower_of_mem_special (h : c ∈ ['\u0307', 'ς', 'σ']) : IsLower c := by
  simp only [List.mem_cons, List.not_mem_nil, or_false] at h
  rcases h with rfl | rfl | rfl <;> decide

theorem IsLower.lowerSimple (h : IsLower c) : Text.lowerSimple c = c := by
  rcases lowerSimple_cases c with ⟨-, hsame⟩ | ⟨r, hr, hcovers, -⟩
  · exact hsame
  · rw [h.2 r hr] at hcovers
    cases hcovers

theorem IsLower.lowerChar (h : IsLower c) : Text.lowerChar c = [c] := by
  rw [Text.lowerChar, if_neg h.1, h.lowerSimple]

theorem IsLower.ne_sigma (h : IsLower c) : c ≠ 'Σ' := by
  rintro rfl
  exact absurd h (by decide)

theorem isLower_of_mem_lowerChar (hd : d ∈ lowerChar c) : IsLower d := by
  unfold lowerChar at hd
  by_cases hc : c = '\u0130'
  · rw [if_pos hc, List.mem_pair] at hd
    rcases hd with rfl | rfl
    · exact isLower_of_ascii (by decide) (by decide)
    · exact isLower_of_mem_special (by simp)
  · rw [if_neg hc, List.mem_singleton] at hd
    rw [hd]
    exact isLower_lowerSimple hc

/-- Being in lower case is having no other lower case form. -/
theorem isLower_iff : IsLower c ↔ lowerChar c = [c] := by
  constructor
  · exact IsLower.lowerChar
  · intro h
    exact isLower_of_mem_lowerChar (h ▸ List.mem_singleton_self c)

/-! ### Blanks -/

theorem inRanges_iff {ranges : List (ℕ × ℕ)} {n : ℕ} :
    inRanges ranges n = true ↔ ∃ range ∈ ranges, range.1 ≤ n ∧ n ≤ range.2 := by
  simp [inRanges]

theorem isBlank_iff : isBlank c = true ↔
    ∃ range ∈ (0x1C, 0x1F) :: spaceRanges, range.1 ≤ c.toNat ∧ c.toNat ≤ range.2 := by
  rw [isBlank, Bool.or_eq_true, isSpace, inRanges_iff, inRanges_iff, List.exists_mem_cons_iff,
    or_comm]
  simp

theorem isBlank_lowerSimple (h : isBlank (lowerSimple c) = true) : isBlank c = true := by
  rcases lowerSimple_cases c with ⟨-, hsame⟩ | ⟨r, hr, hcovers, hform⟩
  · rw [← hsame]
    exact h
  · obtain ⟨range, hrange, hin⟩ := isBlank_iff.mp h
    have hspared : range ∈ sparedRanges := List.mem_cons_of_mem _ (List.mem_cons_of_mem _ hrange)
    exact absurd hin (not_spared_of_form hr hcovers hform range hspared)

theorem isBlank_of_mem_lowerChar (hd : d ∈ lowerChar c) (h : isBlank d = true) :
    isBlank c = true := by
  unfold lowerChar at hd
  by_cases hc : c = '\u0130'
  · rw [if_pos hc, List.mem_pair] at hd
    rcases hd with rfl | rfl <;> exact absurd h (by decide)
  · rw [if_neg hc, List.mem_singleton] at hd
    exact isBlank_lowerSimple (hd ▸ h)

/-! ### Texts -/

/-- The lower case form of a character between two parts of a text, the nearest before it first. -/
def lowerIn (before after : List Char) (c : Char) : List Char :=
  if c = 'Σ' then [if endsWord before after then 'ς' else 'σ'] else lowerChar c

theorem lowerFrom_cons (before : List Char) (c : Char) (cs : List Char) :
    lowerFrom before (c :: cs) = lowerIn before cs c ++ lowerFrom (c :: before) cs :=
  rfl

theorem lowerIn_ne_nil (before after : List Char) (c : Char) : lowerIn before after c ≠ [] := by
  unfold lowerIn lowerChar
  split_ifs <;> exact List.cons_ne_nil _ _

theorem isLower_of_mem_lowerIn (hd : d ∈ lowerIn before after c) : IsLower d := by
  unfold lowerIn at hd
  split_ifs at hd
  · rw [List.mem_singleton.mp hd]
    exact isLower_of_mem_special (by simp)
  · rw [List.mem_singleton.mp hd]
    exact isLower_of_mem_special (by simp)
  · exact isLower_of_mem_lowerChar hd

theorem isBlank_of_mem_lowerIn (hd : d ∈ lowerIn before after c) (h : isBlank d = true) :
    isBlank c = true := by
  unfold lowerIn at hd
  split_ifs at hd
  · rw [List.mem_singleton.mp hd] at h
    exact absurd h (by decide)
  · rw [List.mem_singleton.mp hd] at h
    exact absurd h (by decide)
  · exact isBlank_of_mem_lowerChar hd h

theorem isLower_of_mem_lowerFrom (hd : d ∈ lowerFrom before cs) : IsLower d := by
  induction cs generalizing before with
  | nil => cases hd
  | cons c cs ih =>
    rw [lowerFrom_cons, List.mem_append] at hd
    rcases hd with hd | hd
    · exact isLower_of_mem_lowerIn hd
    · exact ih hd

/-- The lower case form of a text is in lower case. -/
theorem isLower_of_mem_toLower (hd : d ∈ toLower cs) : IsLower d :=
  isLower_of_mem_lowerFrom hd

theorem lowerFrom_of_isLower (h : ∀ c ∈ cs, IsLower c) : lowerFrom before cs = cs := by
  induction cs generalizing before with
  | nil => rfl
  | cons c cs ih =>
    have hc : IsLower c := h c List.mem_cons_self
    have hcs : ∀ d ∈ cs, IsLower d := fun d hd => h d (List.mem_cons_of_mem _ hd)
    rw [lowerFrom_cons, ih hcs, lowerIn, if_neg hc.ne_sigma, hc.lowerChar, List.singleton_append]

/-- A text in lower case is its own lower case form. -/
theorem toLower_of_isLower (h : ∀ c ∈ cs, IsLower c) : toLower cs = cs :=
  lowerFrom_of_isLower h

/-- **Taking a text to lower case twice is taking it there once.** -/
theorem toLower_toLower (cs : List Char) : toLower (toLower cs) = toLower cs :=
  toLower_of_isLower fun _ => isLower_of_mem_toLower

theorem lowerFrom_eq_nil_iff : lowerFrom before cs = [] ↔ cs = [] := by
  cases cs with
  | nil => simp [lowerFrom]
  | cons c cs => simp [lowerFrom_cons, lowerIn_ne_nil]

theorem isBlank_of_getLast?_lowerFrom (hd : (lowerFrom before cs).getLast? = some d)
    (h : isBlank d = true) : ∃ c, cs.getLast? = some c ∧ isBlank c = true := by
  induction cs generalizing before with
  | nil => cases hd
  | cons c cs ih =>
    rw [lowerFrom_cons] at hd
    by_cases hcs : cs = []
    · subst hcs
      rw [lowerFrom, List.append_nil] at hd
      exact ⟨c, rfl, isBlank_of_mem_lowerIn (List.mem_of_getLast? hd) h⟩
    · have hrest : lowerFrom (c :: before) cs ≠ [] := fun hnil => hcs (lowerFrom_eq_nil_iff.mp hnil)
      rw [List.getLast?_append_of_ne_nil _ hrest] at hd
      obtain ⟨e, he, hblank⟩ := ih hd
      obtain ⟨x, xs, rfl⟩ := List.exists_cons_of_ne_nil hcs
      exact ⟨e, by rw [List.getLast?_cons_cons]; exact he, hblank⟩

/-- A text that ends in a blank in lower case does so as it is. -/
theorem isBlank_of_getLast?_toLower (hd : (toLower cs).getLast? = some d) (h : isBlank d = true) :
    ∃ c, cs.getLast? = some c ∧ isBlank c = true :=
  isBlank_of_getLast?_lowerFrom hd h

end Text
end TokenLedger
