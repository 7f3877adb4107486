/-
# Canonical spellings

A canonical spelling is a mark with settled digits (`Address.Settled`): enough of them, none that has
another lower case form, and no blank at the end. Such a text has nothing to trim, to lower or to fill
up, and it is its own canonical spelling (`Address.canonical_fixed_points`). All spellings of one
number, in digits of either case, with leading zeros, with a mark or without one and with blanks around
them, have one canonical spelling: the number in lower case digits, filled up to `width`
(`Address.canonicalChars_of_spells`).

Key definitions: `Address.Settled`, `Address.Canonical`, `Address.hexNumber?`, `Address.Spells`,
`Address.ofNumber`.
Key theorems: `Address.Settled.canonicalChars`, `Address.canonical_canonical`,
`Address.canonical_isCanonical`, `Address.canonical_fixed_points`, `Address.padLeft_of_hexNumber?`,
`Address.canonicalChars_of_spells`.
-/
import TokenLedger.Address
import TokenLedger.Json.Reader
import TokenLedger.Proofs.Text.Normal

namespace TokenLedger

/-! ### Filling up -/

namespace Text

variable {width : ℕ} {fill : Char} {cs : List Char}

theorem length_padLeft (width : ℕ) (fill : Char) (cs : List Char) :
    (padLeft width fill cs).length = max width cs.length := by
  simp only [padLeft, List.length_append, List.length_replicate]
  omega

theorem padLeft_of_le (h : width ≤ cs.length) : padLeft width fill cs = cs := by
  rw [padLeft, Nat.sub_eq_zero_of_le h, List.replicate_zero, List.nil_append]

theorem padLeft_append_singleton (width : ℕ) (fill : Char) (cs : List Char) (c : Char) :
    padLeft (width + 1) fill (cs ++ [c]) = padLeft width fill cs ++ [c] := by
  simp only [padLeft, List.length_append, List.length_singleton, Nat.add_sub_add_right,
    List.append_assoc]

/-- Filling up with one more of the same makes no difference. -/
theorem padLeft_singleton_fill (width : ℕ) (fill : Char) :
    padLeft (width + 1) fill [fill] = padLeft (width + 1) fill [] := by
  simp [padLeft, List.replicate_succ']

theorem getLast?_padLeft_of_ne_nil (h : cs ≠ []) :
    (padLeft width fill cs).getLast? = cs.getLast? := by
  rw [padLeft, List.getLast?_append_of_ne_nil _ h]

theorem mem_padLeft {c : Char} (h : c ∈ padLeft width fill cs) : c = fill ∨ c ∈ cs := by
  rw [padLeft, List.mem_append] at h
  exact h.imp List.eq_of_mem_replicate id

end Text

namespace Address

open Text

variable {cs ds : List Char} {c d : Char} {n v : ℕ}

/-! ### The canonical spelling is one -/

theorem mem_of_mem_withoutMark (h : c ∈ withoutMark cs) : c ∈ cs := by
  unfold withoutMark at h
  split at h
  · exact List.mem_cons_of_mem _ (List.mem_cons_of_mem _ h)
  · exact h

theorem getLast?_of_withoutMark (h : (withoutMark cs).getLast? = some c) : cs.getLast? = some c := by
  unfold withoutMark at h
  split at h
  · rename_i rest
    obtain ⟨x, xs, rfl⟩ : ∃ x xs, rest = x :: xs :=
      List.exists_cons_of_ne_nil fun hnil => by rw [hnil] at h; cases h
    rw [List.getLast?_cons_cons, List.getLast?_cons_cons]
    exact h
  · exact h

theorem isLower_of_mem_body (h : c ∈ body cs) : IsLower c :=
  isLower_of_mem_toLower (mem_of_mem_withoutMark h)

theorem isBlank_getLast?_body (h : (body cs).getLast? = some c) : isBlank c = false := by
  by_contra hblank
  rw [Bool.not_eq_false] at hblank
  obtain ⟨d, hd, hd'⟩ := isBlank_of_getLast?_toLower (getLast?_of_withoutMark h) hblank
  rw [getLast?_trim hd] at hd'
  cases hd'

theorem isLower_zero : IsLower '0' :=
  isLower_of_ascii (by decide) (by decide)

theorem isLower_mark : IsLower 'x' :=
  isLower_of_ascii (by decide) (by decide)

/-- The digits of canonical spellings: enough of them, none that has another lower case form, and no
blank at the end. -/
structure Settled (digits : List Char) : Prop where
  enough : width ≤ digits.length
  lower : ∀ c ∈ digits, lowerChar c = [c]
  last : ∀ c, digits.getLast? = some c → isBlank c = false

theorem width_le_length_padLeft (ds : List Char) : width ≤ (padLeft width '0' ds).length := by
  rw [length_padLeft]
  exact le_max_left _ _

/-- The digits of every canonical spelling are such. -/
theorem settled_padLeft_body (cs : List Char) : Settled (padLeft width '0' (body cs)) where
  enough := width_le_length_padLeft _
  lower := by
    intro c hc
    rw [← isLower_iff]
    rcases mem_padLeft hc with rfl | hc
    · exact isLower_zero
    · exact isLower_of_mem_body hc
  last := by
    intro c hc
    by_cases hbody : body cs = []
    · -- without digits there are only the zeros
      rw [hbody] at hc
      rcases mem_padLeft (List.mem_of_getLast? hc) with rfl | hnil
      · decide
      · cases hnil
    · rw [getLast?_padLeft_of_ne_nil hbody] at hc
      exact isBlank_getLast?_body hc

theorem Settled.ne_nil (h : Settled ds) : ds ≠ [] := by
  rintro rfl
  have hwidth : width ≤ 0 := h.enough
  cases hwidth

/-- **A mark with such digits has nothing to trim, to lower or to fill up.** -/
theorem Settled.canonicalChars (h : Settled ds) :
    Address.canonicalChars ('0' :: 'x' :: ds) = '0' :: 'x' :: ds := by
  have hzero : isBlank '0' = false := by decide
  have htrim : trim isBlank ('0' :: 'x' :: ds) = '0' :: 'x' :: ds := by
    apply trim_eq_self
    · intro c hc
      obtain rfl : '0' = c := Option.some.inj hc
      exact hzero
    · intro c hc
      obtain ⟨d, ds, rfl⟩ := List.exists_cons_of_ne_nil h.ne_nil
      rw [List.getLast?_cons_cons, List.getLast?_cons_cons] at hc
      exact h.last c hc
  have hlower : toLower ('0' :: 'x' :: ds) = '0' :: 'x' :: ds := by
    apply toLower_of_isLower
    intro c hc
    rcases List.mem_cons.mp hc with rfl | hc
    · exact isLower_zero
    · rcases List.mem_cons.mp hc with rfl | hc
      · exact isLower_mark
      · exact isLower_iff.mpr (h.lower c hc)
  have hbody : body ('0' :: 'x' :: ds) = ds := by
    rw [body, htrim, hlower]
    rfl
  rw [Address.canonicalChars, hbody, padLeft_of_le h.enough]

/-- A canonical spelling: a mark, enough digits, and nothing left to change. -/
structure Canonical (s : String) : Prop where
  marked : ∃ digits, s = "0x" ++ String.ofList digits ∧ width ≤ digits.length
  fixed : canonical s = s

theorem canonicalChars_canonicalChars (cs : List Char) :
    canonicalChars (canonicalChars cs) = canonicalChars cs :=
  (settled_padLeft_body cs).canonicalChars

/-- **The canonical spelling of a text is its own.** -/
theorem canonical_canonical (raw : String) : canonical (canonical raw) = canonical raw := by
  rw [canonical, canonical, String.toList_ofList, canonicalChars_canonicalChars]

theorem canonical_isCanonical (raw : String) : Canonical (canonical raw) where
  marked := by
    refine ⟨padLeft width '0' (body raw.toList), ?_, width_le_length_padLeft _⟩
    simp [canonical, canonicalChars, ← String.toList_inj]
  fixed := canonical_canonical raw

/-- **Every canonical spelling is its own**, and the texts that are their own canonical spellings are
those of a mark and settled digits. -/
theorem canonical_fixed_points (raw : String) : canonical (canonical raw) = canonical raw ∧
    (canonical raw = raw ↔ ∃ digits, Settled digits ∧ raw.toList = '0' :: 'x' :: digits) := by
  refine ⟨canonical_canonical raw, ?_, ?_⟩
  · intro hfixed
    have hchars : raw.toList = canonicalChars raw.toList := by
      rw [← String.toList_inj, canonical, String.toList_ofList] at hfixed
      exact hfixed.symm
    exact ⟨padLeft width '0' (body raw.toList), settled_padLeft_body _, hchars⟩
  · rintro ⟨digits, hdigits, hraw⟩
    rw [← String.toList_inj, canonical, String.toList_ofList, hraw]
    exact hdigits.canonicalChars

/-! ### Spellings of a number -/

/-- The number that hexadecimal digits of either case denote, most significant digit first. -/
def hexNumber? (ds : List Char) : Option ℕ :=
  ds.foldlM (fun n c => (Json.hexValue? c).map (16 * n + ·)) 0

/-- What may stand in front of the digits of an address. -/
def marks : List (List Char) := [[], ['0', 'x'], ['0', 'X']]

/-- A text spells a number as an address: blanks, a mark, at most `width` digits, blanks. -/
inductive Spells (n : ℕ) : List Char → Prop where
  | intro {before mark digits after : List Char} (hbefore : ∀ c ∈ before, isBlank c = true)
    (hmark : mark ∈ marks) (hlength : digits.length ≤ width) (hdigits : hexNumber? digits = some n)
    (hafter : ∀ c ∈ after, isBlank c = true) : Spells n (before ++ (mark ++ digits) ++ after)

/-- The canonical spelling of a number. -/
def ofNumber (n : ℕ) : List Char :=
  '0' :: 'x' :: padLeft width '0' (Nat.toDigits 16 n)

theorem hexNumber?_append_singleton : hexNumber? (ds ++ [c]) = some n ↔
    ∃ m v, hexNumber? ds = some m ∧ Json.hexValue? c = some v ∧ n = 16 * m + v := by
  have hstep : hexNumber? (ds ++ [c]) =
      (hexNumber? ds).bind fun m => (Json.hexValue? c).map (16 * m + ·) := by
    simp [hexNumber?, List.foldlM_append]
  simp only [hstep, Option.bind_eq_some_iff, Option.map_eq_some_iff, exists_and_left, @eq_comm _ n]

/-- The hexadecimal digits, among the characters of ASCII. -/
theorem hexDigits_ascii : ∀ k < 128, ∀ v ∈ Json.hexValue? (Char.ofNat k), v < 16 ∧
    (Char.ofNat k = Nat.digitChar v ∨ lowerChar (Char.ofNat k) = [Nat.digitChar v]) ∧
    Char.ofNat k ≠ 'Σ' ∧ isBlank (Char.ofNat k) = false := by
  decide

theorem isLower_digitChar (h : v < 16) : IsLower (Nat.digitChar v) := by
  have hdigits : ∀ v < 16, (Nat.digitChar v).toNat < 0x80 ∧
      ((Nat.digitChar v).toNat < 0x41 ∨ 0x5A < (Nat.digitChar v).toNat) := by decide
  exact isLower_of_ascii (hdigits v h).1 (hdigits v h).2

/-- What a hexadecimal digit becomes in lower case, and what it is not. -/
theorem hexDigit_facts (h : Json.hexValue? c = some v) :
    v < 16 ∧ lowerChar c = [Nat.digitChar v] ∧ c ≠ 'Σ' ∧ isBlank c = false := by
  have hascii : c.toNat < 128 := by
    have range : ∀ {high : Char}, c ≤ high → c.toNat ≤ high.toNat := fun h => h
    unfold Json.hexValue? at h
    split_ifs at h with h₁ h₂ h₃
    · exact (range h₁.2).trans_lt (by decide)
    · exact (range h₂.2).trans_lt (by decide)
    · exact (range h₃.2).trans_lt (by decide)
  have hfacts := hexDigits_ascii c.toNat hascii
  rw [Char.ofNat_toNat] at hfacts
  obtain ⟨hlt, hlower, hsigma, hblank⟩ := hfacts v h
  refine ⟨hlt, hlower.elim (fun hsame => ?_) id, hsigma, hblank⟩
  rw [hsame, (isLower_digitChar hlt).lowerChar]

theorem digitChar_ne_mark : ∀ v < 16, Nat.digitChar v ≠ 'x' := by
  decide

/-- Each of the digits of a number has a value. -/
theorem exists_value_of_hexNumber? (h : hexNumber? ds = some n) :
    ∀ c ∈ ds, ∃ v, Json.hexValue? c = some v := by
  induction ds using List.reverseRecOn generalizing n with
  | nil => simp
  | append_singleton ds c ih =>
    obtain ⟨m, v, hm, hv, -⟩ := hexNumber?_append_singleton.mp h
    intro e he
    rcases List.mem_append.mp he with he | he
    · exact ih hm e he
    · rw [List.mem_singleton.mp he]
      exact ⟨v, hv⟩

/-- **The digits of a number, in lower case and filled up with zeros, are determined by the number.** -/
theorem padLeft_of_hexNumber? {w : ℕ} (h : hexNumber? ds = some n) (hlength : ds.length ≤ w + 1) :
    padLeft (w + 1) '0' (ds.flatMap lowerChar) = padLeft (w + 1) '0' (Nat.toDigits 16 n) := by
  -- the last digit is the remainder by sixteen, and those before it denote the quotient
  induction ds using List.reverseRecOn generalizing n w with
  | nil =>
    obtain rfl : 0 = n := Option.some.inj h
    exact (padLeft_singleton_fill w '0').symm
  | append_singleton ds c ih =>
    obtain ⟨m, v, hm, hv, rfl⟩ := hexNumber?_append_singleton.mp h
    obtain ⟨hlt, hlower, -, -⟩ := hexDigit_facts hv
    rw [List.length_append, List.length_singleton, Nat.add_le_add_iff_right] at hlength
    have hflat : (ds ++ [c]).flatMap lowerChar = ds.flatMap lowerChar ++ [Nat.digitChar v] := by
      rw [List.flatMap_append, List.flatMap_singleton, hlower]
    rw [hflat, padLeft_append_singleton]
    cases w with
    | zero =>
      obtain rfl : ds = [] := List.length_eq_zero_iff.mp (Nat.le_zero.mp hlength)
      obtain rfl : 0 = m := Option.some.inj hm
      rw [Nat.mul_zero, Nat.zero_add v, Nat.toDigits_of_lt_base hlt]
      rfl
    | succ w =>
      have hds := ih hm hlength
      rw [hds]
      by_cases hm0 : m = 0
      · subst hm0
        rw [Nat.mul_zero, Nat.zero_add v, Nat.toDigits_of_lt_base hlt, Nat.toDigits_zero,
          padLeft_singleton_fill, ← padLeft_append_singleton, List.nil_append]
      · have hbase : 16 ≤ 16 * m + v := by omega
        have hquotient : (16 * m + v) / 16 = m := by omega
        have hremainder : (16 * m + v) % 16 = v := by omega
        rw [Nat.toDigits_of_base_le (by decide) hbase, hquotient, hremainder,
          padLeft_append_singleton]

theorem lowerFrom_of_no_sigma {before : List Char} (h : ∀ c ∈ cs, c ≠ 'Σ') :
    lowerFrom before cs = cs.flatMap lowerChar := by
  induction cs generalizing before with
  | nil => rfl
  | cons c cs ih =>
    rw [lowerFrom_cons, lowerIn, if_neg (h c List.mem_cons_self),
      ih fun d hd => h d (List.mem_cons_of_mem _ hd), List.flatMap_cons]

theorem withoutMark_of_not_mem (h : 'x' ∉ cs) : withoutMark cs = cs := by
  unfold withoutMark
  split
  · simp at h
  · rfl

theorem mark_facts {mark : List Char} (hmark : mark ∈ marks) (hc : c ∈ mark) :
    isBlank c = false ∧ c ≠ 'Σ' := by
  have hcases : c = '0' ∨ c = 'x' ∨ c = 'X' := by
    simp only [marks, List.mem_cons, List.not_mem_nil, or_false] at hmark
    rcases hmark with rfl | rfl | rfl
    · cases hc
    · exact (List.mem_pair.mp hc).imp id .inl
    · exact (List.mem_pair.mp hc).imp id .inr
  rcases hcases with rfl | rfl | rfl <;> decide

/-- A mark in lower case is removed, and no digits are taken for one. -/
theorem withoutMark_lower {mark : List Char} (hmark : mark ∈ marks) (h : 'x' ∉ cs) :
    withoutMark (mark.flatMap lowerChar ++ cs) = cs := by
  have hcapital : lowerChar 'X' = ['x'] := by decide
  have hlower : mark.flatMap lowerChar = [] ∨ mark.flatMap lowerChar = ['0', 'x'] := by
    simp only [marks, List.mem_cons, List.not_mem_nil, or_false] at hmark
    rcases hmark with rfl | rfl | rfl
    · exact .inl rfl
    · exact .inr (by simp [isLower_zero.lowerChar, isLower_mark.lowerChar])
    · exact .inr (by simp [isLower_zero.lowerChar, hcapital])
  rcases hlower with hnone | hsome
  · rw [hnone, List.nil_append]
    exact withoutMark_of_not_mem h
  · rw [hsome]
    rfl

/-- **All spellings of a number have the canonical spelling of the number.** -/
theorem canonicalChars_of_spells (h : Spells n cs) : canonicalChars cs = ofNumber n := by
  obtain ⟨hbefore, hmark, hlength, hdigits, hafter⟩ := h
  rename_i before mark digits after
  have hinner : ∀ c ∈ mark ++ digits, isBlank c = false ∧ c ≠ 'Σ' := by
    intro c hc
    rcases List.mem_append.mp hc with hc | hc
    · exact mark_facts hmark hc
    · obtain ⟨v, hv⟩ := exists_value_of_hexNumber? hdigits c hc
      obtain ⟨-, -, hsigma, hblank⟩ := hexDigit_facts hv
      exact ⟨hblank, hsigma⟩
  have hnomark : 'x' ∉ digits.flatMap lowerChar := by
    intro hx
    obtain ⟨c, hc, hx⟩ := List.mem_flatMap.mp hx
    obtain ⟨v, hv⟩ := exists_value_of_hexNumber? hdigits c hc
    obtain ⟨hlt, hlower, -, -⟩ := hexDigit_facts hv
    rw [hlower, List.mem_singleton] at hx
    exact digitChar_ne_mark v hlt hx.symm
  have hbody : body (before ++ (mark ++ digits) ++ after) = digits.flatMap lowerChar := by
    rw [body, trim_between hbefore hafter fun c hc => (hinner c hc).1, toLower,
      lowerFrom_of_no_sigma fun c hc => (hinner c hc).2, List.flatMap_append,
      withoutMark_lower hmark hnomark]
  have hfilled := padLeft_of_hexNumber? (w := 63) hdigits hlength
  rw [canonicalChars, hbody, ofNumber]
  exact congrArg (fun ds => '0' :: 'x' :: ds) hfilled

theorem canonical_of_spells {r r' : String} (hr : Spells n r.toList) (hr' : Spells n r'.toList) :
    canonical r = canonical r' := by
  rw [canonical, canonical, canonicalChars_of_spells hr, canonicalChars_of_spells hr']

end Address
end TokenLedger
