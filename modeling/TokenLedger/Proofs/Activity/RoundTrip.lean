/-
# Activities read back

The object of an activity, its decimals in their own spelling, is accepted as that activity, with the
coefficients and exponents of its decimals and the microseconds of its time (`Activity.check_toJson`).
The decimals have to be within the limits of what can be read, and the time has to be one of the
calendar; the activities of transactions are such (`Transaction.exportable_of_mem_given`). If the
numbers of an activity fit the store, the object may go through a text (`Activity.read_toJson`).

Key definitions: `Activity.Exportable`.
Key theorems: `Activity.check_toJson`, `Activity.read_toJson`, `Transaction.exportable_of_mem_given`.
-/
import TokenLedger.Proofs.Activity.Proper
import TokenLedger.Proofs.Event.RoundTrip
import TokenLedger.Proofs.Time.Written

namespace TokenLedger

/-! ### Written members -/

namespace Check

/-- What may be null is accepted if it is accepted where it is there, and is not written as null. -/
theorem orNull_ofOption {α : Type} {check : Check α} {spell : α → Json} {o : Option α}
    (h : ∀ a ∈ o, spell a ≠ .null ∧ check (spell a) = .ok a) :
    orNull check (.ofOption spell o) = .ok o := by
  cases o with
  | none => rfl
  | some a =>
    obtain ⟨hnull, ha⟩ := h a rfl
    unfold orNull Json.ofOption
    split
    · rename_i heq
      exact absurd heq hnull
    · rw [ha]
      rfl

end Check

namespace Json

variable {α : Type} {spell : α → Json}

theorem plain_ofOption {o : Option α}
    (h : ∀ x ∈ o, (spell x).plain = true) : (ofOption spell o).plain = true := by
  cases o with
  | none => rfl
  | some x => exact h x rfl

theorem height_ofOption (h : ∀ x, (spell x).height = 1) (o : Option α) :
    (ofOption spell o).height = 1 := by
  cases o with
  | none => rfl
  | some x => exact h x

end Json

/-! ### Activities -/

/-- An activity can be written and read again: its decimals are within the limits, and its time is one
of the calendar. -/
structure Activity.Exportable (a : Activity) : Prop where
  propertyVersion : a.propertyVersion.readable = true
  amount : a.amount.readable = true
  coinAmount : ∀ d ∈ a.coinAmount, d.readable = true
  time : a.time.Valid

namespace Activity

variable {a : Activity}

/-- **The object of an activity is accepted as that activity.** -/
theorem check_toJson (h : a.Exportable) : check a.toJson = .ok a := by
  have hversion := Check.decimal_text .direct h.propertyVersion
  have hamount := Check.decimal_text .direct h.amount
  have htime := Check.dateTime_text h.time
  have hparty : ∀ o : Option String,
      Check.orNull Check.text (.ofOption .ofText o) = .ok o := fun o =>
    Check.orNull_ofOption fun s _ => ⟨nofun, rfl⟩
  have hcoins : Check.orNull (Check.decimal .direct)
      (.ofOption (fun d => .str d.text) a.coinAmount) = .ok a.coinAmount :=
    Check.orNull_ofOption fun d hd => ⟨nofun, Check.decimal_text .direct (h.coinAmount d hd)⟩
  have hindex : Check.orNull Check.int (.ofOption .whole a.index) = .ok a.index :=
    Check.orNull_ofOption fun n _ => ⟨nofun, rfl⟩
  simp [check, checkKey, toJson, toJsonWith, Check.record, Check.required, Check.defaulted, Json.last?,
    Check.text, Check.int, hversion, hamount, htime, hparty, hcoins, hindex, Checked.ap, Checked.under,
    Checked.value]

/-! ### The text of an activity -/

theorem plain_toJson (h : a.fits = true) : a.toJson.plain = true := by
  simp only [fits, Bool.and_eq_true, Option.all_eq_true] at h
  obtain ⟨⟨⟨hversion, hcreation⟩, hsequence⟩, hindex⟩ := h
  have hparty : ∀ o : Option String, (Json.ofOption .ofText o).plain = true := fun o =>
    Json.plain_ofOption fun s _ => rfl
  have hcoins : (Json.ofOption (fun d : Decimal => .str d.text) a.coinAmount).plain = true :=
    Json.plain_ofOption fun d _ => rfl
  have hplace : (Json.ofOption .whole a.index).plain = true :=
    Json.plain_ofOption fun n hn => decide_eq_true (Whole.digitCount_of_fits (hindex n hn))
  simp [toJson, toJsonWith, Json.plain, Json.plainMembers, RawText.readable,
    Whole.digitCount_of_fits hversion, Whole.digitCount_of_fits hcreation,
    Whole.digitCount_of_fits hsequence, hparty, hcoins, hplace]

theorem height_toJson (a : Activity) : a.toJson.height = 2 := by
  have hparty : ∀ o : Option String, (Json.ofOption .ofText o).height = 1 :=
    Json.height_ofOption fun _ => rfl
  have hcoins : (Json.ofOption (fun d : Decimal => .str d.text) a.coinAmount).height = 1 :=
    Json.height_ofOption (fun _ => rfl) _
  have hplace : (Json.ofOption .whole a.index).height = 1 := Json.height_ofOption (fun _ => rfl) _
  simp [toJson, toJsonWith, Json.height, Json.heightOfMembers, hparty, hcoins, hplace]

/-- The object of an activity is read from its text, whatever the dialect, if the numbers fit. -/
theorem read_toJson (d : Json.Dialect) (h : a.fits = true) (hdepth : 1 ≤ d.depth) :
    Json.read d a.toJson.text = .ok a.toJson := by
  refine Json.read_text d (plain_toJson h) ?_
  rw [height_toJson]
  exact Nat.succ_le_succ hdepth

/-- **The activities of transactions can be written and read again.** -/
theorem exportable_of_ofRawEvent {version index : ℕ} {time : DateTime} {raw : RawEvent}
    (h : ofRawEvent version time index raw = .ok (some a)) (htime : time.Valid) : a.Exportable := by
  obtain ⟨e, he, hactivity⟩ := ofRawEvent_eq_ok h
  have hdecoded : e.Decoded := ⟨raw.tag, raw.payload, he⟩
  obtain ⟨i, hi, hpayable⟩ := hdecoded.identity_ok
  obtain ⟨j, text, hj, -, rfl⟩ := exists_of_ofEvent hactivity
  obtain rfl : i = j := Except.ok.inj (hi.symm.trans hj)
  exact
    { propertyVersion := hpayable.readable
      amount := hdecoded.amount_payable.readable
      coinAmount := nofun
      time := htime }

end Activity

theorem Transaction.exportable_of_mem_given {t : Transaction} {a : Activity} (ha : a ∈ t.given) :
    a.Exportable := by
  obtain ⟨k, raw, time, -, -, hactivity⟩ := exists_event_of_mem_given ha
  exact Activity.exportable_of_ofRawEvent hactivity time.dateTime_valid.2

end TokenLedger
