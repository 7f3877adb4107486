/-
# Proper activities

What a transaction gives is proper: the version of the token's properties and the amount lie in the
range of amounts, the time is one of the calendar, and both hashes are those of texts that exist. No
payload, no timestamp and no spelling of a number in them leads to anything else
(`Transaction.proper_of_mem_given`).

Key definitions: `Activity.Proper`.
Key theorems: `Activity.ofEvent_eq_ok`, `Activity.ofRawEvent_eq_ok`, `Transaction.proper_of_mem_given`.
-/
import TokenLedger.Proofs.Activity.Given
import TokenLedger.Proofs.Time.Calendar

namespace TokenLedger

/-- The decimals of an activity, which are finite by their type, lie in the range of amounts, and its
time is one of the calendar. Its hashes are those of the texts of an identity. -/
structure Activity.Proper (a : Activity) : Prop where
  propertyVersion : a.propertyVersion.InRange
  amount : a.amount.InRange
  time : a.time.Valid
  hashes : ∃ (i : Identity) (text : String), i.propertyVersion = a.propertyVersion ∧
    i.tokenText = .ok text ∧ a.tokenHash = Sha256.ofText text ∧
    a.collectionHash = Sha256.ofText i.collectionText

namespace Activity

variable {version index : ℕ} {time : DateTime} {raw : RawEvent} {a : Activity}

/-- What an activity has from the token of its event, and from the event. -/
theorem ofEvent_eq_ok {e : Event} (h : ofEvent version time index raw e = .ok a) :
    ∃ i, e.identity = .ok i ∧ a.propertyVersion = i.propertyVersion ∧ a.amount = e.amount ∧
      a.time = time := by
  obtain ⟨i, text, hi, -, rfl⟩ := exists_of_ofEvent h
  exact ⟨i, hi, rfl, rfl, rfl⟩

/-- The activity of an event is that of a decoded event. -/
theorem ofRawEvent_eq_ok (h : ofRawEvent version time index raw = .ok (some a)) :
    ∃ e, Event.decode raw.tag raw.payload = .ok (some e) ∧
      ofEvent version time index raw e = .ok a := by
  unfold ofRawEvent at h
  split at h
  · cases h
  · cases h
  · rename_i e he
    split at h
    · cases h
    · rename_i hactivity
      cases h
      exact ⟨e, he, hactivity⟩

theorem proper_of_ofRawEvent (h : ofRawEvent version time index raw = .ok (some a))
    (htime : time.Valid) : a.Proper := by
  obtain ⟨e, he, hactivity⟩ := ofRawEvent_eq_ok h
  have hdecoded : e.Decoded := ⟨raw.tag, raw.payload, he⟩
  obtain ⟨i, hi, hversion, hamount, rfl⟩ := ofEvent_eq_ok hactivity
  obtain ⟨j, text, hj, hrange, htext, hgives⟩ := hdecoded.ofEvent_ok
  obtain rfl : j = i := Except.ok.inj (hj.symm.trans hi)
  obtain ⟨b, hb, htoken, hcollection⟩ := hgives version a.time index raw
  obtain rfl : b = a := Except.ok.inj (hb.symm.trans hactivity)
  exact
    { propertyVersion := hversion ▸ hrange
      amount := hamount ▸ hdecoded.amount_payable.inRange
      time := htime
      hashes := ⟨j, text, hversion.symm, htext, htoken, hcollection⟩ }

end Activity

/-- **The activities of a transaction are proper.** -/
theorem Transaction.proper_of_mem_given {t : Transaction} {a : Activity} (ha : a ∈ t.given) :
    a.Proper := by
  obtain ⟨k, raw, time, -, -, hactivity⟩ := exists_event_of_mem_given ha
  exact Activity.proper_of_ofRawEvent hactivity time.dateTime_valid.2

end TokenLedger
