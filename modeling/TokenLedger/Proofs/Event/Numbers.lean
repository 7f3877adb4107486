/-
# The numbers of decoded events

The amounts and versions of an event are meant to be unsigned numbers of sixty-four bits. What the check
asks of them is the range of these numbers (`Decimal.inRange_iff`), and a decimal in the range may have a
fraction. So the decimals of a decoded event are the numbers that the payload gives at the places of the
kind, all of them in the range, and they are unsigned numbers of sixty-four bits exactly if those in the
payload are whole; a payload with a number beyond the range, or with none, at one of the places is
refused (`Event.numbers_of_decoded`).

Key definitions: `Decimal.IsWhole`, `Decimal.IsUInt64`, `Json.NumberAt`.
Key theorems: `Decimal.isUInt64_iff`, `Json.gives_amount_iff`, `Json.forall_isUInt64_iff`,
`Event.numbers_of_decoded`.
-/
import TokenLedger.Proofs.Activity.WellFormed
import TokenLedger.Proofs.Event.RoundTrip

namespace TokenLedger

/-! ### Whole numbers -/

namespace Decimal

variable {d : Decimal}

/-- The value is a whole number; `3`, `3.0` and `30E-1` are whole. -/
def IsWhole (d : Decimal) : Prop :=
  ∃ n : ℤ, d.value = n

/-- The value is an unsigned number of sixty-four bits. -/
def IsUInt64 (d : Decimal) : Prop :=
  ∃ n : ℕ, n < 2 ^ 64 ∧ d.value = n

/-- The unsigned numbers of sixty-four bits are the whole amounts. -/
theorem isUInt64_iff : d.IsUInt64 ↔ d.IsWhole ∧ d.InRange := by
  rw [inRange_iff]
  constructor
  · rintro ⟨n, hn, hvalue⟩
    have hle : (n : ℚ) ≤ 2 ^ 64 - 1 := by
      have hcast : ((n + 1 : ℕ) : ℚ) ≤ (2 ^ 64 : ℕ) := Nat.cast_le.mpr hn
      push_cast at hcast
      linarith
    rw [hvalue]
    exact ⟨⟨n, by rw [hvalue, Int.cast_natCast]⟩, n.cast_nonneg, hle⟩
  · rintro ⟨⟨n, hvalue⟩, hnonneg, hle⟩
    rw [hvalue] at hnonneg hle
    obtain ⟨m, rfl⟩ := Int.eq_ofNat_of_zero_le (Int.cast_nonneg_iff.mp hnonneg)
    rw [Int.cast_natCast] at hvalue hle
    refine ⟨m, ?_, hvalue⟩
    have hlt : (m : ℚ) < (2 ^ 64 : ℕ) := by
      push_cast
      linarith
    exact Nat.cast_lt.mp hlt

end Decimal

/-! ### Numbers at a place -/

/-- At a place of a value a decimal is spelled, be it of any size. -/
def Json.NumberAt (v : Json) (place : List String) (d : Decimal) : Prop :=
  v.Gives place (Check.decimal .payload) d

/-- An amount is a number in the range. -/
theorem Json.gives_amount_iff {v : Json} {place : List String} {d : Decimal} :
    v.Gives place Check.amount d ↔ v.NumberAt place d ∧ d.InRange := by
  constructor
  · rintro ⟨w, hw, hd⟩
    obtain ⟨hnumber, hrange⟩ := Check.amount_eq_ok_iff.mp hd
    exact ⟨⟨w, hw, hnumber⟩, hrange⟩
  · rintro ⟨⟨w, hw, hnumber⟩, hrange⟩
    exact ⟨w, hw, Check.amount_eq_ok_iff.mpr ⟨hnumber, hrange⟩⟩

/-- Amounts from several places are unsigned numbers of sixty-four bits exactly if the numbers at these
places are whole. -/
theorem Json.forall_isUInt64_iff {v : Json} {places : List (List String)} {ds : List Decimal}
    (h : List.Forall₂ (fun place d => v.Gives place Check.amount d) places ds) :
    (∀ d ∈ ds, d.IsUInt64) ↔ ∀ place ∈ places, ∀ d, v.NumberAt place d → d.IsWhole := by
  constructor
  · intro hall place hplace d hd
    obtain ⟨d', hmem, hd'⟩ := exists_of_forall₂ h hplace
    obtain rfl : d = d' := hd.unique (Json.gives_amount_iff.mp hd').1
    exact (Decimal.isUInt64_iff.mp (hall d hmem)).1
  · intro hwhole d hd
    obtain ⟨place, hplace, hgives⟩ := exists_of_forall₂ h.flip hd
    obtain ⟨hnumber, hrange⟩ := Json.gives_amount_iff.mp hgives
    exact Decimal.isUInt64_iff.mpr ⟨hwhole place hplace d hnumber, hrange⟩

/-! ### Numbers of a decoded event -/

namespace Event

/-- **A decoded event has the numbers of its payload.** They lie between zero and the greatest unsigned
number of sixty-four bits, and are such numbers exactly if those in the payload are whole. A payload in
which a number of the kind lies beyond the range, or is missing, is refused. -/
theorem numbers_of_decoded (tag payload : RawText) :
    (∀ e, decode tag payload = .ok (some e) → ∃ v, Reads tag payload e.kind v ∧
      List.Forall₂ (fun place d => v.NumberAt place d ∧ 0 ≤ d.value ∧ d.value ≤ 2 ^ 64 - 1)
        e.kind.numberPlaces e.decimals ∧
      ((∀ d ∈ e.decimals, d.IsUInt64) ↔
        ∀ place ∈ e.kind.numberPlaces, ∀ d, v.NumberAt place d → d.IsWhole)) ∧
    ∀ kind v, Reads tag payload kind v → ∀ place ∈ kind.numberPlaces,
      (∀ d, v.NumberAt place d → ¬ (0 ≤ d.value ∧ d.value ≤ 2 ^ 64 - 1)) →
      ∃ issues, decode tag payload = .error ⟨kind, issues⟩ := by
  constructor
  · intro e he
    obtain ⟨kind, v, hreads, hcheck⟩ := exists_reads_of_decode he
    obtain rfl : e.kind = kind := kind_of_check hcheck
    have hplaces := amounts_of_check hcheck
    refine ⟨v, hreads, hplaces.imp fun place d hd => ?_, Json.forall_isUInt64_iff hplaces⟩
    obtain ⟨hnumber, hrange⟩ := Json.gives_amount_iff.mp hd
    exact ⟨hnumber, d.inRange_iff.mp hrange⟩
  · intro kind v hreads place hplace hbeyond
    refine hreads.decode_error (refused_of_place hplace fun d hd => ?_)
    obtain ⟨hnumber, hrange⟩ := Json.gives_amount_iff.mp hd
    exact hbeyond d hnumber (d.inRange_iff.mp hrange)

/-! ### Deposits of an amount -/

/-- A deposit of an amount of a token. -/
def deposited (n : Decimal) : Event :=
  .deposit ⟨⟨"0x1", "a", "b"⟩, .zero⟩ n

theorem regular_deposited {n : Decimal} (h : n.Payable) : (deposited n).Regular :=
  regular_of_decimals nofun
    (List.forall_mem_cons.mpr ⟨Decimal.zero_payable, List.forall_mem_singleton.mpr h⟩)

/-- The greatest number of sixty-four bits is deposited as it is, and one more is refused. -/
theorem numbers_of_deposited :
    (∃ v, Reads (.text EventKind.deposit.tag) (.text (deposited ⟨false, 2 ^ 64 - 1, 0⟩).toJson.text)
        .deposit v ∧ v.NumberAt ["amount"] ⟨false, 2 ^ 64 - 1, 0⟩) ∧
      ∃ issues, decode (.text EventKind.deposit.tag)
        (.text (deposited ⟨false, 2 ^ 64, 0⟩).toJson.text) = .error ⟨.deposit, issues⟩ := by
  constructor
  · have hamount : (⟨false, 2 ^ 64 - 1, 0⟩ : Decimal).Payable :=
      ⟨(Decimal.inRange_iff _).mp ⟨by decide, by decide⟩, by decide⟩
    obtain ⟨v, hreads, hnumbers, -⟩ :=
      (numbers_of_decoded _ _).1 _ (decode_tag (ofPayload_toJson (regular_deposited hamount)))
    obtain _ | ⟨-, hrest⟩ := hnumbers
    obtain _ | ⟨⟨hnumber, -⟩, -⟩ := hrest
    exact ⟨v, hreads, hnumber⟩
  · have hheight : (deposited ⟨false, 2 ^ 64, 0⟩).toJson.height ≤ 4 := Nat.le_refl 4
    have hreads := reads_toJson (List.forall_mem_nil _) (hheight.trans (by decide))
    refine (numbers_of_decoded _ _).2 _ _ hreads ["amount"]
      (List.mem_cons_of_mem _ (List.mem_singleton_self _)) ?_
    rintro d ⟨w, hw, hd⟩ ⟨-, hle⟩
    cases hw
    have hspelled : Check.decimal .payload (.ofDecimal ⟨false, 2 ^ 64, 0⟩) = .ok ⟨false, 2 ^ 64, 0⟩ :=
      Check.decimal_text .payload (by decide)
    cases hspelled.symm.trans hd
    norm_num [Decimal.value] at hle

/-- A deposit of one and a half is decoded. -/
theorem fraction_of_deposited :
    decode (.text (deposited ⟨false, 15, -1⟩).kind.tag)
        (.text (deposited ⟨false, 15, -1⟩).toJson.text) = .ok (some (deposited ⟨false, 15, -1⟩)) ∧
      ¬ ∀ d ∈ (deposited ⟨false, 15, -1⟩).decimals, d.IsUInt64 := by
  have hamount : (⟨false, 15, -1⟩ : Decimal).Payable :=
    ⟨(Decimal.inRange_iff _).mp ⟨by decide, by decide⟩, by decide⟩
  refine ⟨decode_tag (ofPayload_toJson (regular_deposited hamount)), fun hall => ?_⟩
  obtain ⟨n, -, hn⟩ := hall ⟨false, 15, -1⟩ (List.mem_cons_of_mem _ (List.mem_singleton_self _))
  have hvalue : (⟨false, 15, -1⟩ : Decimal).value = 3 / 2 := by
    norm_num [Decimal.value]
  have htwice : ((2 * n : ℕ) : ℚ) = (3 : ℕ) := by
    rw [hvalue] at hn
    push_cast
    linarith
  have hnat : 2 * n = 3 := Nat.cast_injective htwice
  omega

end Event
end TokenLedger
