/-
# When the text of a token tells it from others

The text of a token joins address, collection, name and version by double colons, and escapes none
that stand inside its parts. The version holds no colon, so its boundary is always found
(`sameText_iff`); the other two boundaries can be mistaken. Two identities of one text are of one
token exactly if the boundaries of their names fall in the same places and rounding has not made
their versions equal (`SameText.sameToken_iff`). Among creators without a colon and versions within
the precision, the text of an identity is its own exactly if no double colon can be seen in its
collection and name but the one between them (`NamesApart`).

Key definitions: `Identity.SameToken`, `Identity.SameText`, `Identity.SameBoundaries`,
`Identity.NamesApart`.
Key theorems: `apartAtColons_iff`, `Identity.sameText_iff`, `Identity.SameText.sameToken_iff`,
`Identity.sameToken_of_sameText_iff`.
-/
import TokenLedger.Identity
import TokenLedger.Proofs.Decimal.Plain
import TokenLedger.Proofs.Text.Separators

namespace TokenLedger

/-! ### Boundaries in lists of characters -/

/-- The only double colon to be seen in two texts joined by one is that between them. -/
def ApartAtColons (cs ns : List Char) : Prop :=
  ¬ [':', ':'] <:+: cs ++ [':'] ∧ ¬ [':', ':'] <:+: ':' :: ns

/-- Two texts are apart exactly if they can be joined in one way only. -/
theorem apartAtColons_iff {cs ns : List Char} : ApartAtColons cs ns ↔
    ∀ xs ys, cs ++ ':' :: ':' :: ns = xs ++ ':' :: ':' :: ys → xs = cs := by
  constructor
  · rintro ⟨hc, hn⟩ xs ys h
    rcases List.append_eq_append_iff.mp h with ⟨as, hxs, hns⟩ | ⟨as, hcs, hys⟩
    · -- a boundary further on shows behind the first colon of ours
      cases as with
      | nil => rw [hxs, List.append_nil]
      | cons a as =>
        rw [List.cons_append, List.cons.injEq] at hns
        exact absurd ⟨as, ys, by rw [hns.2]; simp⟩ hn
    · -- a boundary further back shows before the second colon of ours
      cases as with
      | nil => rw [hcs, List.append_nil]
      | cons a as =>
        rw [List.cons_append, List.cons.injEq] at hys
        obtain ⟨rfl, hys⟩ := hys
        refine absurd ?_ hc
        cases as with
        | nil => exact ⟨xs, [], by rw [hcs]; simp⟩
        | cons b as =>
          rw [List.cons_append, List.cons.injEq] at hys
          exact ⟨xs, as ++ [':'], by rw [hcs, ← hys.1]; simp⟩
  · intro h
    constructor
    · rintro ⟨xs, ys, hxy⟩
      have hcs := h xs (ys ++ ':' :: ns) (by
        have := congrArg (· ++ ':' :: ns) hxy
        simpa using this.symm)
      have := congrArg List.length hxy
      simp only [hcs, List.length_append, List.length_cons, List.length_nil] at this
      omega
    · rintro ⟨xs, ys, hxy⟩
      have hcs := h (cs ++ ':' :: xs) ys (by
        have := congrArg (cs ++ ':' :: ·) hxy
        simpa using this.symm)
      have := congrArg List.length hcs
      simp only [List.length_append, List.length_cons] at this
      omega

namespace Identity

variable {i j : Identity}

/-- Two identities are of one token. -/
def SameToken (i j : Identity) : Prop :=
  i.creatorAddress = j.creatorAddress ∧ i.collection = j.collection ∧ i.token = j.token ∧
    i.propertyVersion.value = j.propertyVersion.value

/-- Two identities have one text. -/
def SameText (i j : Identity) : Prop :=
  ∃ s, i.tokenText = .ok s ∧ j.tokenText = .ok s

/-- The text in front of the version. -/
def nameText (i : Identity) : String :=
  i.collectionText ++ "::" ++ i.token

/-- The boundaries of two identities' names fall in the same places. -/
def SameBoundaries (i j : Identity) : Prop :=
  i.creatorAddress.length = j.creatorAddress.length ∧ i.collection.length = j.collection.length

/-- Collection and name show where they meet. -/
def NamesApart (i : Identity) : Prop :=
  ApartAtColons i.collection.toList i.token.toList

/-! ### One text -/

theorem toList_nameText (i : Identity) : i.nameText.toList =
    i.creatorAddress.toList ++ ':' :: ':' :: (i.collection.toList ++ ':' :: ':' :: i.token.toList) := by
  simp [nameText, collectionText]

theorem tokenText_eq_ok_iff {s : String} : i.tokenText = .ok s ↔
    ∃ v, i.propertyVersion.canonicalText = .ok v ∧ i.nameText ++ "::" ++ v = s := by
  unfold tokenText nameText
  cases i.propertyVersion.canonicalText <;> simp [Except.map]

/-- **One text is one text of the names and one text of the version.** -/
theorem sameText_iff : SameText i j ↔
    i.nameText = j.nameText ∧ Decimal.SameText i.propertyVersion j.propertyVersion := by
  constructor
  · rintro ⟨s, hi, hj⟩
    obtain ⟨v, hv, hs⟩ := tokenText_eq_ok_iff.mp hi
    obtain ⟨w, hw, hs'⟩ := tokenText_eq_ok_iff.mp hj
    have hlist : (i.nameText.toList ++ [':']) ++ ':' :: v.toList =
        (j.nameText.toList ++ [':']) ++ ':' :: w.toList := by
      have := congrArg String.toList (hs.trans hs'.symm)
      simpa using this
    obtain ⟨hn, hvw⟩ := Text.append_sep_inj_right (Decimal.colon_notMem_canonicalText hv)
      (Decimal.colon_notMem_canonicalText hw) hlist
    refine ⟨String.toList_injective (List.append_cancel_right hn), v, hv, ?_⟩
    rw [String.toList_injective hvw]
    exact hw
  · rintro ⟨hn, v, hv, hw⟩
    exact ⟨_, tokenText_eq_ok_iff.mpr ⟨v, hv, rfl⟩, tokenText_eq_ok_iff.mpr ⟨v, hw, by rw [hn]⟩⟩

/-- One text of the names with its boundaries in the same places is one list of names. -/
theorem names_eq_of_sameBoundaries (h : i.nameText = j.nameText) (hb : SameBoundaries i j) :
    i.creatorAddress = j.creatorAddress ∧ i.collection = j.collection ∧ i.token = j.token := by
  have hl := congrArg String.toList h
  rw [toList_nameText, toList_nameText] at hl
  obtain ⟨ha, hrest⟩ := List.append_inj hl (by rw [String.length_toList, String.length_toList]; exact hb.1)
  obtain ⟨hc, hn⟩ := List.append_inj (List.tail_eq_of_cons_eq (List.tail_eq_of_cons_eq hrest))
    (by rw [String.length_toList, String.length_toList]; exact hb.2)
  exact ⟨String.toList_injective ha, String.toList_injective hc,
    String.toList_injective (List.tail_eq_of_cons_eq (List.tail_eq_of_cons_eq hn))⟩

/-- Of two identities of one text, boundaries and versions decide. -/
theorem SameText.sameToken_iff (h : SameText i j) : SameToken i j ↔
    SameBoundaries i j ∧ i.propertyVersion.value = j.propertyVersion.value := by
  constructor
  · rintro ⟨ha, hc, -, hv⟩
    exact ⟨⟨by rw [ha], by rw [hc]⟩, hv⟩
  · rintro ⟨hb, hv⟩
    obtain ⟨ha, hc, hn⟩ := names_eq_of_sameBoundaries (sameText_iff.mp h).1 hb
    exact ⟨ha, hc, hn, hv⟩

/-! ### Names that are apart -/

theorem SameText.sameToken_of_namesApart (h : SameText i j) (hi : ':' ∉ i.creatorAddress.toList)
    (hj : ':' ∉ j.creatorAddress.toList) (hvi : i.propertyVersion.Within .ledger)
    (hvj : j.propertyVersion.Within .ledger) (ha : NamesApart i) : SameToken i j := by
  obtain ⟨hn, hv⟩ := sameText_iff.mp h
  have hl := congrArg String.toList hn
  rw [toList_nameText, toList_nameText] at hl
  obtain ⟨haddr, hrest⟩ := Text.append_sep_inj_left hi hj hl
  have hrest := List.tail_eq_of_cons_eq hrest
  have hc := apartAtColons_iff.mp ha _ _ hrest
  refine h.sameToken_iff.mpr ⟨⟨?_, ?_⟩, (Decimal.sameText_iff_sameRounding.mp hv).value_eq hvi hvj⟩
  · rw [String.toList_injective haddr]
  · rw [String.toList_injective hc]

/-- If the names are not apart, another token of the same creator has the same text. -/
theorem exists_sameText_of_not_namesApart (hv : i.propertyVersion.Within .ledger)
    (h : ¬ NamesApart i) :
    ∃ j, j.creator = i.creator ∧ j.propertyVersion = i.propertyVersion ∧ SameText i j ∧
      ¬ SameToken i j := by
  unfold NamesApart at h
  rw [apartAtColons_iff] at h
  push Not at h
  obtain ⟨xs, ys, hxy, hne⟩ := h
  refine ⟨⟨i.creator, String.ofList xs, String.ofList ys, i.propertyVersion⟩, rfl, rfl, ?_, ?_⟩
  · obtain ⟨r, hr, -⟩ := Decimal.rounded_of_within (by decide) hv
    rw [sameText_iff, Decimal.sameText_iff_sameRounding]
    refine ⟨String.toList_injective ?_, rfl, r, r, hr, hr, rfl⟩
    rw [toList_nameText, toList_nameText, hxy]
    simp [creatorAddress]
  · rintro ⟨-, hc, -⟩
    exact hne (by simpa using (congrArg String.toList hc).symm)

/-- **Where the text of a token tells it from another.** For any pair the condition is exact: if the
names are one text and the versions are rounded to one, the boundaries have to fall in the same
places and the versions have to be equal. An identity whose creator has no colon and whose version
lies within the precision is told from all others of that kind exactly if its names are apart. -/
theorem sameToken_of_sameText_iff (i : Identity) :
    (∀ j, (SameText i j → SameToken i j) ↔
      (i.nameText = j.nameText → Decimal.SameRounding i.propertyVersion j.propertyVersion →
        SameBoundaries i j ∧ i.propertyVersion.value = j.propertyVersion.value)) ∧
    (':' ∉ i.creatorAddress.toList → i.propertyVersion.Within .ledger →
      ((∀ j, ':' ∉ j.creatorAddress.toList → j.propertyVersion.Within .ledger →
        SameText i j → SameToken i j) ↔ NamesApart i)) := by
  refine ⟨fun j => ?_, fun hi hvi => ⟨fun h => ?_, fun ha j hj hvj h =>
    h.sameToken_of_namesApart hi hj hvi hvj ha⟩⟩
  · rw [← and_imp, ← Decimal.sameText_iff_sameRounding, ← sameText_iff]
    exact forall_congr' fun h => h.sameToken_iff
  · by_contra hna
    obtain ⟨j, hc, hv, htext, htoken⟩ := exists_sameText_of_not_namesApart hvi hna
    refine htoken (h j ?_ (by rwa [hv]) htext)
    unfold creatorAddress
    rwa [hc]

/-- A double colon in a name moves the boundary, and rounding makes two long versions one. -/
theorem sameText_of_distinct_tokens :
    (SameText ⟨"0x1", "a::b", "c", .zero⟩ ⟨"0x1", "a", "b::c", .zero⟩ ∧
      ¬ SameToken ⟨"0x1", "a::b", "c", .zero⟩ ⟨"0x1", "a", "b::c", .zero⟩) ∧
    (SameText ⟨"0x1", "a", "b", .ofInt (10 ^ 28)⟩ ⟨"0x1", "a", "b", .ofInt (10 ^ 28 + 1)⟩ ∧
      ¬ SameToken ⟨"0x1", "a", "b", .ofInt (10 ^ 28)⟩ ⟨"0x1", "a", "b", .ofInt (10 ^ 28 + 1)⟩) := by
  refine ⟨⟨sameText_iff.mpr ⟨?_, ?_⟩, fun h => absurd h.2.1 (by decide)⟩,
    ⟨sameText_iff.mpr ⟨rfl, Decimal.sameText_iff_sameRounding.mpr ?_⟩, fun h => ?_⟩⟩
  · show Address.canonical "0x1" ++ "::" ++ "a::b" ++ "::" ++ "c" =
      Address.canonical "0x1" ++ "::" ++ "a" ++ "::" ++ "b::c"
    simp [String.append_assoc]
  · obtain ⟨s, hs⟩ := Decimal.canonicalText_ok (d := .zero) (absurd rfl)
    exact ⟨s, hs, hs⟩
  · have hshort : (Decimal.ofInt (10 ^ 28)).rounded .ledger = .ok ⟨false, 10 ^ 27, 1⟩ := by decide
    have hlong : (Decimal.ofInt (10 ^ 28 + 1)).rounded .ledger = .ok ⟨false, 10 ^ 27, 1⟩ := by decide
    exact ⟨rfl, _, _, hshort, hlong, rfl⟩
  · have := h.2.2.2
    norm_num [Decimal.value, Decimal.ofInt] at this

end Identity
end TokenLedger
