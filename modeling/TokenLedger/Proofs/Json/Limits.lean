/-
# How long whole numbers can be

The reader of a text refuses a whole number of more than 4300 digits, so there is none in what it read
(`Json.limited_of_readCharacters`). Nor does any other spelling give a longer one: a text is refused if
it has more digits, and a binary number if it is beyond sixty-four bits. So what is accepted as a whole
number in a value that was read can be written and read again (`Json.Limited.digitCount_le`).

Key definition: `Json.Limited`.
Key theorems: `Text.natOfDigits_lt`, `Json.limited_of_readCharacters`, `Whole.digitCount_of_read`,
`Json.Limited.digitCount_le`, `Json.Limited.digitCount_of_spellsAt`.
-/
import TokenLedger.Proofs.Decimal.Reading
import TokenLedger.Proofs.Json.Same
import TokenLedger.Schema.Check

namespace TokenLedger

/-! ### Digits -/

namespace Text

variable {ds : List Char}

/-- What digits denote is less than the power of ten with as many zeros. -/
theorem natOfDigits_lt (h : ∀ c ∈ ds, c.isDigit = true) : natOfDigits ds < 10 ^ ds.length := by
  induction ds using List.reverseRecOn with
  | nil => decide
  | append_singleton ds c ih =>
    have hrest := ih fun e he => h e (List.mem_append_left _ he)
    have hc := (Decimal.toNat_of_isDigit (h c (by simp))).2
    have hvalue : natOfDigits (ds ++ [c]) = 10 * natOfDigits ds + (c.toNat - 48) := by
      simp [natOfDigits, Nat.ofDigitChars_eq_foldl]
    rw [hvalue, List.length_append, List.length_singleton, pow_succ]
    omega

theorem digitCount_natOfDigits_le (h : ∀ c ∈ ds, c.isDigit = true) (hne : ds ≠ []) :
    digitCount (natOfDigits ds) ≤ ds.length :=
  (digitCount_le_iff (List.length_pos_iff.mpr hne)).mpr (natOfDigits_lt h)

end Text

/-! ### What a text can spell -/

namespace Whole

variable {cs : List Char} {n : ℤ}

theorem isDigit_of_mem_splitDigits {c : Char} (h : c ∈ (splitDigits cs).1) : c.isDigit = true := by
  unfold splitDigits at h
  split at h
  · rw [List.mem_singleton.mp h]
    decide
  · exact List.mem_takeWhile_imp h

theorem natAbs_ofDigits (negative : Bool) (ds : List Char) :
    (ofDigits negative ds).natAbs = Text.natOfDigits ds := by
  cases negative <;> simp [ofDigits]

/-- A numeral that is not too long is no longer than the limit. -/
theorem digitCount_ofDigits (negative : Bool) (hne : (splitDigits cs).1 ≠ [])
    (h : exceeds (splitDigits cs).1 = false) :
    Text.digitCount (ofDigits negative (splitDigits cs).1).natAbs ≤ maxLength := by
  rw [natAbs_ofDigits]
  exact (Text.digitCount_natOfDigits_le (fun _ hc => isDigit_of_mem_splitDigits hc) hne).trans
    (Nat.le_of_not_lt (of_decide_eq_false h))

theorem digitCount_of_readUnsigned {negative : Bool} (h : readUnsigned negative cs = .ok n) :
    Text.digitCount n.natAbs ≤ maxLength := by
  unfold readUnsigned at h
  simp only at h
  split_ifs at h with hlong hrest
  cases h
  exact digitCount_ofDigits negative (fun hnil => hrest (.inl hnil)) (Bool.eq_false_iff.mpr hlong)

theorem digitCount_of_readPlain (h : readPlain cs = .ok n) : Text.digitCount n.natAbs ≤ maxLength := by
  unfold readPlain at h
  split at h <;> exact digitCount_of_readUnsigned h

/-- **No text spells a longer number.** -/
theorem digitCount_of_read {s : String} (h : read s = .ok n) : Text.digitCount n.natAbs ≤ maxLength := by
  unfold read at h
  split at h
  · rename_i hplain
    cases h
    exact digitCount_of_readPlain hplain
  · cases h
  · split at h
    · rename_i hspelled
      cases h
      obtain ⟨cs, -, hplain⟩ := Option.map_eq_some_iff.mp hspelled
      exact digitCount_of_readPlain hplain
    · cases h

end Whole

/-! ### What can stand in a value -/

namespace Json

/-- No whole number in a value is too long to be read. -/
def Limited (v : Json) : Prop :=
  ∀ n : ℤ, (Json.whole n).Inside v → Text.digitCount n.natAbs ≤ Whole.maxLength

variable {d : Dialect} {v : Json} {cs rest : List Char} {n : ℤ}

theorem digitCount_of_number {negative : Bool} (h : number d negative cs = .ok (.whole n, rest)) :
    Text.digitCount n.natAbs ≤ Whole.maxLength := by
  unfold number at h
  simp only at h
  split_ifs at h with hnone hlong hwhole
  · cases h
    refine Whole.digitCount_ofDigits negative hnone ?_
    rw [decide_eq_true hwhole] at hlong
    cases hlimit : d.limit <;> simpa [hlimit, NumberLimit.excludes] using hlong
  · cases h

theorem digitCount_of_scalar (h : scalar d cs = .ok (.whole n, rest)) :
    Text.digitCount n.natAbs ≤ Whole.maxLength := by
  unfold scalar at h
  split at h
  · rename_i hword
    cases h
    rcases word?_cases hword with h | ⟨b, h⟩ | h | ⟨b, h⟩ <;> cases h
  · split at h <;> exact digitCount_of_number h

/-- **The whole numbers of what was read are not too long.** -/
theorem limited_of_readCharacters (h : readCharacters d cs = .ok v) : v.Limited := by
  have hP : HoldsOfScalars d fun u =>
      ∀ n, u = .whole n → Text.digitCount n.natAbs ≤ Whole.maxLength :=
    ⟨nofun, nofun, nofun, fun hread _ hu => digitCount_of_scalar (hu ▸ hread)⟩
  exact fun n hn => every_of_readCharacters hP h _ hn n rfl

end Json

/-! ### What is accepted as a whole number -/

namespace Check

variable {n : ℤ}

theorem digitCount_of_intOfDouble {x : Double} (h : intOfDouble x = .ok n) :
    Text.digitCount n.natAbs ≤ Whole.maxLength := by
  have hlimit : ∀ m : ℕ, m < Nat.pow 2 63 → Text.digitCount m ≤ Whole.maxLength := by
    intro m hm
    have hshort : Text.digitCount m ≤ 19 := (Text.digitCount_le_iff (by decide)).mpr (hm.trans (by decide))
    exact hshort.trans (by decide)
  unfold intOfDouble at h
  split at h
  · simp only at h
    split_ifs at h with hfraction hfits hnegative
    · cases h
    · cases h
      rw [Int.natAbs_neg, Int.natAbs_natCast]
      exact hlimit _ hfits
    · cases h
      rw [Int.natAbs_natCast]
      exact hlimit _ hfits
    · cases h
  · cases h

end Check

/-- **What is accepted as a whole number is not too long**, if no number in the value is. -/
theorem Json.Limited.digitCount_le {v : Json} {n : ℤ} (hv : v.Limited) (h : Check.int v = .ok n) :
    Text.digitCount n.natAbs ≤ Whole.maxLength := by
  cases v with
  | whole m =>
    cases h
    exact hv n .self
  | float x => exact Check.digitCount_of_intOfDouble h
  | bool b =>
    cases h
    cases b <;> decide
  | str s =>
    cases s with
    | text s =>
      have hread : Check.intOfText s = .ok n := h
      unfold Check.intOfText at hread
      split at hread
      · rename_i hs
        cases hread
        exact Whole.digitCount_of_read hs
      · cases hread
      · cases hread
    | unreadable codes => cases h
  | null | arr | obj => cases h

/-! ### Spelled numbers at a place -/

namespace Json

variable {v : Json} {ms : Members} {name : RawText} {path : List Step} {n : ℤ}

/-- A value spells a number at a place. -/
def SpellsAt (v : Json) (path : List Step) (n : ℤ) : Prop :=
  ∃ w, v.find? path = some w ∧ Check.int w = .ok n

theorem SpellsAt.member (h : v.SpellsAt path n) (hv : last? name ms = some v) :
    (obj ms).SpellsAt (.member name :: path) n := by
  obtain ⟨w, hw, hn⟩ := h
  exact ⟨w, (find?_of_last? hv path).trans hw, hn⟩

theorem SpellsAt.item {vs : List Json} {i : ℕ} (h : v.SpellsAt path n) (hv : vs[i]? = some v) :
    (arr vs).SpellsAt (.item i :: path) n := by
  obtain ⟨w, hw, hn⟩ := h
  refine ⟨w, ?_, hn⟩
  show vs[i]?.bind (find? · path) = some w
  rw [hv, Option.bind_some, hw]

theorem int_merged (v : Json) : Check.int v.merged = Check.int v := by
  cases v <;> rfl

/-- A number that is spelled in what is left of a value with every name once is not too long if none is
in the value. -/
theorem Limited.digitCount_of_spellsAt (hv : v.Limited) (h : v.merged.SpellsAt path n) :
    Text.digitCount n.natAbs ≤ Whole.maxLength := by
  obtain ⟨_, hmerged, hn⟩ := h
  rw [find?_merged] at hmerged
  obtain ⟨w, hw, rfl⟩ := Option.map_eq_some_iff.mp hmerged
  rw [int_merged] at hn
  have hlimited : w.Limited := fun m hm => hv m (hm.trans (inside_of_find? hw))
  exact hlimited.digitCount_le hn

end Json
end TokenLedger
