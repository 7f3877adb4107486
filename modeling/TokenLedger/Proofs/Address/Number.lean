/-
# The number of an address

The canonical spelling of a number below `16 ^ width` is a mark and exactly `width` digits in lower
case, and these digits denote the number (`Address.writes_ofNumber`): zeros in front do not count, and
the digits of a number are read back as it. So different numbers have different canonical spellings,
and two spellings of addresses have the same one exactly if they spell the same number
(`Address.canonical_eq_iff_of_spells`).

Key definitions: `Address.IsLowerDigit`, `Address.Writes`.
Key theorems: `Address.hexNumber?_toDigits`, `Address.hexNumber?_padLeft`, `Address.hexNumber?_lt`,
`Address.writes_ofNumber`, `Address.canonical_eq_iff_of_spells`.
-/
import TokenLedger.Proofs.Address.Canonical

namespace TokenLedger
namespace Address

open Text

variable {cs ds : List Char} {c : Char} {m n v w : ℕ}

/-! ### Reading digits back -/

/-- A zero in front of digits does not count. -/
theorem hexNumber?_zero_cons (ds : List Char) : hexNumber? ('0' :: ds) = hexNumber? ds :=
  rfl

theorem hexNumber?_padLeft (w : ℕ) (ds : List Char) :
    hexNumber? (padLeft w '0' ds) = hexNumber? ds := by
  unfold padLeft
  induction w - ds.length with
  | zero => rfl
  | succ k ih => rw [List.replicate_succ, List.cons_append, hexNumber?_zero_cons, ih]

theorem hexValue?_digitChar : ∀ v < 16, Json.hexValue? (Nat.digitChar v) = some v := by
  decide

/-- **The digits of a number are read back as the number.** -/
theorem hexNumber?_toDigits (n : ℕ) : hexNumber? (Nat.toDigits 16 n) = some n := by
  -- the last digit is the remainder by sixteen, and those before it are those of the quotient
  induction n using Nat.strongRecOn with
  | ind n ih =>
    rcases Nat.lt_or_ge n 16 with hlt | hge
    · rw [Nat.toDigits_of_lt_base hlt, ← List.nil_append [Nat.digitChar n]]
      refine hexNumber?_append_singleton.mpr ⟨0, n, rfl, hexValue?_digitChar n hlt, ?_⟩
      rw [Nat.mul_zero, Nat.zero_add]
    · have hquotient : n / 16 < n := Nat.div_lt_self (by omega) (by decide)
      have hremainder : n % 16 < 16 := Nat.mod_lt n (by decide)
      rw [Nat.toDigits_of_base_le (by decide) hge]
      exact hexNumber?_append_singleton.mpr ⟨n / 16, n % 16, ih _ hquotient,
        hexValue?_digitChar _ hremainder, (Nat.div_add_mod n 16).symm⟩

/-- So many digits denote a number below that power of sixteen. -/
theorem hexNumber?_lt (h : hexNumber? ds = some n) : n < 16 ^ ds.length := by
  induction ds using List.reverseRecOn generalizing n with
  | nil =>
    obtain rfl : 0 = n := Option.some.inj h
    exact Nat.one_pos
  | append_singleton ds c ih =>
    obtain ⟨m, v, hm, hv, rfl⟩ := hexNumber?_append_singleton.mp h
    have hfew := ih hm
    obtain ⟨hlt, -, -, -⟩ := hexDigit_facts hv
    rw [List.length_append, List.length_singleton, pow_succ]
    omega

/-! ### Digits in lower case -/

/-- A hexadecimal digit that is no capital letter. -/
def IsLowerDigit (c : Char) : Prop :=
  ('0' ≤ c ∧ c ≤ '9') ∨ ('a' ≤ c ∧ c ≤ 'f')

theorem isLowerDigit_digitChar : ∀ v < 16, IsLowerDigit (Nat.digitChar v) := by
  unfold IsLowerDigit
  decide

theorem isLowerDigit_of_mem_toDigits (h : c ∈ Nat.toDigits 16 n) : IsLowerDigit c := by
  induction n using Nat.strongRecOn with
  | ind n ih =>
    rcases Nat.lt_or_ge n 16 with hlt | hge
    · rw [Nat.toDigits_of_lt_base hlt] at h
      rw [List.mem_singleton.mp h]
      exact isLowerDigit_digitChar n hlt
    · rw [Nat.toDigits_of_base_le (by decide) hge] at h
      rcases List.mem_append.mp h with h | h
      · exact ih (n / 16) (Nat.div_lt_self (by omega) (by decide)) h
      · rw [List.mem_singleton.mp h]
        exact isLowerDigit_digitChar _ (Nat.mod_lt n (by decide))

/-! ### Canonical spellings of numbers -/

/-- A text writes a number as a mark and exactly `width` digits in lower case. -/
def Writes (s : String) (n : ℕ) : Prop :=
  ∃ digits : List Char, s = "0x" ++ String.ofList digits ∧ digits.length = width ∧
    (∀ c ∈ digits, IsLowerDigit c) ∧ hexNumber? digits = some n

/-- A text writes one number. -/
theorem Writes.unique {s : String} (hm : Writes s m) (hn : Writes s n) : m = n := by
  obtain ⟨ds, rfl, -, -, hds⟩ := hm
  obtain ⟨ds', hs, -, -, hds'⟩ := hn
  rw [String.append_right_inj, String.ofList_inj] at hs
  rw [hs] at hds
  exact Option.some.inj (hds.symm.trans hds')

/-- **The canonical spelling of a number of at most `width` digits writes the number.** -/
theorem writes_ofNumber (h : n < 16 ^ width) : Writes (String.ofList (ofNumber n)) n := by
  refine ⟨padLeft width '0' (Nat.toDigits 16 n), ?_, ?_, ?_, ?_⟩
  · rw [← String.toList_inj, String.toList_append]
    simp only [ofNumber, String.toList_ofList]
    rfl
  · have hlength : (Nat.toDigits 16 n).length ≤ width :=
      (Nat.length_toDigits_le_iff (by decide) (by decide)).mpr h
    rw [length_padLeft, max_eq_left hlength]
  · intro c hc
    rcases mem_padLeft hc with rfl | hc
    · exact isLowerDigit_digitChar 0 (by decide)
    · exact isLowerDigit_of_mem_toDigits hc
  · rw [hexNumber?_padLeft, hexNumber?_toDigits]

/-- A spelling of an address has no more digits than the canonical one. -/
theorem Spells.lt (h : Spells n cs) : n < 16 ^ width := by
  obtain ⟨-, -, hlength, hdigits, -⟩ := h
  exact (hexNumber?_lt hdigits).trans_le (Nat.pow_le_pow_right (by decide) hlength)

/-- The canonical spelling of an address writes the number that the address spells. -/
theorem writes_canonical {r : String} (h : Spells n r.toList) : Writes (canonical r) n := by
  rw [canonical, canonicalChars_of_spells h]
  exact writes_ofNumber h.lt

/-- **Addresses have one canonical spelling exactly if they spell one number**, and the canonical
spelling is a mark with the `width` digits of that number in lower case. -/
theorem canonical_eq_iff_of_spells {r s : String} (hr : Spells m r.toList) (hs : Spells n s.toList) :
    (canonical r = canonical s ↔ m = n) ∧ Writes (canonical r) m ∧ Writes (canonical s) n := by
  have hwrites := writes_canonical hr
  have hwrites' := writes_canonical hs
  refine ⟨⟨fun hsame => ?_, ?_⟩, hwrites, hwrites'⟩
  · rw [hsame] at hwrites
    exact hwrites.unique hwrites'
  · rintro rfl
    exact canonical_of_spells hr hs

/-- Blanks, a mark, capital letters and zeros in front do not tell two addresses apart, and an address
without digits is that of zero. -/
theorem canonical_eq_iff_of_capitals :
    Spells 171 "\u3000 0XaB\n".toList ∧ Spells 171 "00ab".toList ∧ Spells 0 " 0x".toList ∧
      canonical "\u3000 0XaB\n" = canonical "00ab" ∧ canonical "00ab" ≠ canonical " 0x" := by
  -- blanks are decided one by one, not over all characters
  have hcapitals : Spells 171 "\u3000 0XaB\n".toList :=
    @Spells.intro 171 ['\u3000', ' '] ['0', 'X'] ['a', 'B'] ['\n']
      (List.all_eq_true.mp (by decide)) (by decide) (by decide) (by decide)
      (List.all_eq_true.mp (by decide))
  have hzeros : Spells 171 "00ab".toList :=
    @Spells.intro 171 [] [] ['0', '0', 'a', 'b'] [] nofun (by decide) (by decide) (by decide) nofun
  have hnone : Spells 0 " 0x".toList :=
    @Spells.intro 0 [' '] ['0', 'x'] [] [] (List.all_eq_true.mp (by decide)) (by decide) (by decide)
      (by decide) nofun
  have hdistinct := (canonical_eq_iff_of_spells hzeros hnone).1
  exact ⟨hcapitals, hzeros, hnone, (canonical_eq_iff_of_spells hcapitals hzeros).1.mpr rfl,
    fun hsame => absurd (hdistinct.mp hsame) (by decide)⟩

end Address
end TokenLedger
