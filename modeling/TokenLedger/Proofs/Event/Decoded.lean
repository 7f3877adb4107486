/-
# Events that were decoded

An event that the check of a kind accepts has its decimals from the payload, each accepted as an amount
(`Event.holds_of_check`). So the decimals of a decoded event are amounts and can be written again,
whatever the kind of the event and the spelling of the payload (`Event.Decoded.payable`). The token of
such an event has an identity, the identity has a text, and the event has an activity
(`Event.Decoded.ofEvent_ok`): nothing stands in the way of an activity but a payload that does not fit.

Key definitions: `Json.Holds`, `Event.Decoded`, `Event.Reads`.
Key theorems: `Event.holds_of_check`, `Event.exists_reads_of_decode`, `Event.Decoded.payable`,
`Event.Decoded.identity_ok`, `Event.Decoded.ofEvent_ok`, `Transaction.activities_ne_broken`.
-/
import TokenLedger.Activity.OfTransaction
import TokenLedger.Proofs.Event.Places

namespace TokenLedger

/-! ### Amounts in a payload -/

/-- Somewhere in a value a decimal is accepted as an amount. -/
def Json.Holds (v : Json) (d : Decimal) : Prop :=
  ∃ u : Json, u.Inside v ∧ Check.amount u = .ok d

section

variable {v : Json} {d : Decimal}

theorem Json.Gives.holds {place : List String} (h : v.Gives place Check.amount d) : v.Holds d := by
  obtain ⟨w, hw, hd⟩ := h
  exact ⟨w, Json.inside_of_at? hw, hd⟩

theorem Json.Regular.payable (hv : v.Regular) (h : v.Holds d) : d.Payable := by
  obtain ⟨u, hu, hd⟩ := h
  exact Check.payable_of_amount (fun x hx => hv x (hx ▸ hu)) hd

end

namespace Event

variable {v : Json} {e : Event} {d : Decimal}

/-- **An accepted event has its decimals from the payload.** -/
theorem holds_of_check {kind : EventKind} (h : check kind v = .ok e) :
    ∀ d ∈ e.decimals, v.Holds d := by
  intro d hd
  obtain ⟨place, -, hplace⟩ := exists_of_forall₂ (amounts_of_check h).flip hd
  exact Json.Gives.holds hplace

/-! ### Decoded events -/

/-- An event that some tag and payload describe. -/
def Decoded (e : Event) : Prop :=
  ∃ tag payload, decode tag payload = .ok (some e)

/-- The tag names a kind, and the payload is the text of a value. -/
structure Reads (tag payload : RawText) (kind : EventKind) (v : Json) : Prop where
  tag : tag = .text kind.tag
  payload : ∃ text, payload = .text text ∧ Json.read payloadDialect text = .ok v

section

variable {tag payload : RawText} {kind : EventKind}

theorem kindOf?_eq_some_iff : kindOf? tag = some kind ↔ tag = .text kind.tag := by
  cases tag with
  | text t =>
    rw [RawText.text.injEq]
    exact EventKind.ofTag?_eq_some_iff
  | unreadable codes => exact iff_of_false nofun nofun

/-- An event whose tag names no kind is nothing, whatever its payload. -/
theorem decode_of_kindOf?_eq_none (h : kindOf? tag = none) (payload : RawText) :
    decode tag payload = .ok none := by
  unfold decode
  rw [h]

theorem Reads.regular (h : Reads tag payload kind v) : v.Regular := by
  obtain ⟨text, -, hread⟩ := h.payload
  exact Json.regular_of_read hread

theorem Reads.ofPayload_eq (h : Reads tag payload kind v) : ofPayload kind payload = check kind v := by
  obtain ⟨text, rfl, hread⟩ := h.payload
  simp only [ofPayload, hread]

/-- A value that is read is refused if the check of the kind that the tag names refuses it. -/
theorem Reads.decode_error (h : Reads tag payload kind v) (hv : (check kind).Refuses v) :
    ∃ issues, decode tag payload = .error ⟨kind, issues⟩ := by
  obtain ⟨issues, hv⟩ := hv
  exact ⟨issues, by simp only [decode, kindOf?_eq_some_iff.mpr h.tag, h.ofPayload_eq, hv]⟩

/-- A decoded event was accepted by the check of the kind that its tag names, in a value that was
read. -/
theorem exists_reads_of_decode (h : decode tag payload = .ok (some e)) :
    ∃ kind v, Reads tag payload kind v ∧ check kind v = .ok e := by
  unfold decode at h
  split at h
  · cases h
  · rename_i kind hkind
    split at h
    · rename_i e' hp
      cases h
      unfold ofPayload at hp
      split at hp
      · split at hp
        · rename_i hread
          exact ⟨kind, _, ⟨kindOf?_eq_some_iff.mp hkind, _, rfl, hread⟩, hp⟩
        · cases hp
      · cases hp
    · cases h

end

/-- **The decimals of a decoded event are amounts.** -/
theorem Decoded.payable (h : e.Decoded) (hd : d ∈ e.decimals) : d.Payable := by
  obtain ⟨tag, payload, h⟩ := h
  obtain ⟨kind, v, hreads, h⟩ := exists_reads_of_decode h
  exact hreads.regular.payable (holds_of_check h d hd)

end Event

/-! ### Identities -/

/-- An identity exists if its version is not below zero. -/
theorem TokenData.identity_ok {t : TokenData} {d : Decimal} (h : d.InRange) :
    t.identity d = .ok ⟨t.creator, t.collection, t.name, d⟩ := by
  simp [TokenData.identity, Identity.of?, h.1, Checked.value]

namespace Event

variable {e : Event}

/-- The identity of an event is that of a token in one of the versions that the event holds, or in
version zero. -/
theorem exists_identity_eq (e : Event) :
    ∃ (t : TokenData) (d : Decimal), e.identity = t.identity d ∧ (d ∈ e.decimals ∨ d = .zero) := by
  cases e with
  | mint t n => exact ⟨t, .zero, rfl, .inr rfl⟩
  | mutate before after => exact ⟨after.data, after.propertyVersion, rfl, .inl (by simp [decimals])⟩
  | burn t n | withdraw t n | deposit t n =>
    exact ⟨t.data, t.propertyVersion, rfl, .inl (by simp [decimals])⟩
  | offer t | cancelOffer t | claim t =>
    exact ⟨t.token.data, t.token.propertyVersion, rfl, .inl (by simp [decimals])⟩

/-- The amount is one of the decimals of the event, or zero. -/
theorem amount_cases (e : Event) : e.amount ∈ e.decimals ∨ e.amount = .zero := by
  cases e <;> simp [amount, decimals]

/-- **The token of a decoded event has an identity**, and its version is an amount. -/
theorem Decoded.identity_ok (h : e.Decoded) :
    ∃ i, e.identity = .ok i ∧ i.propertyVersion.Payable := by
  obtain ⟨t, d, hidentity, hd⟩ := e.exists_identity_eq
  have hpayable : d.Payable := by
    rcases hd with hd | rfl
    · exact h.payable hd
    · exact Decimal.zero_payable
  exact ⟨_, hidentity.trans (TokenData.identity_ok hpayable.inRange), hpayable⟩

theorem Decoded.amount_payable (h : e.Decoded) : e.amount.Payable := by
  rcases e.amount_cases with hd | hzero
  · exact h.payable hd
  · rw [hzero]
    exact Decimal.zero_payable

/-- **A decoded event has an activity**, with the hashes of its token's identity. -/
theorem Decoded.ofEvent_ok (h : e.Decoded) :
    ∃ i text, e.identity = .ok i ∧ i.propertyVersion.InRange ∧ i.tokenText = .ok text ∧
      ∀ version time index raw, ∃ a, Activity.ofEvent version time index raw e = .ok a ∧
        a.tokenHash = Sha256.ofText text ∧ a.collectionHash = i.collectionHash := by
  obtain ⟨i, hi, hpayable⟩ := h.identity_ok
  obtain ⟨v, hv⟩ := hpayable.inRange.canonicalText_ok
  have ht : i.tokenText = .ok (i.collectionText ++ "::" ++ i.token ++ "::" ++ v) := by
    rw [Identity.tokenText, hv]; rfl
  refine ⟨i, _, hi, hpayable.inRange, ht, fun version time index raw => ?_⟩
  have hh : i.tokenHash = .ok (Sha256.ofText (i.collectionText ++ "::" ++ i.token ++ "::" ++ v)) := by
    rw [Identity.tokenHash, ht]; rfl
  simp only [Activity.ofEvent, hi, hh]
  exact ⟨_, rfl, rfl, rfl⟩

end Event

/-! ### Activities -/

theorem Activity.ofRawEvent_ne_broken (version : ℕ) (time : DateTime) (index : ℕ) (raw : RawEvent)
    (b : Breakdown) : Activity.ofRawEvent version time index raw ≠ .error (.broken b) := by
  unfold Activity.ofRawEvent
  intro h
  split at h
  · cases h
  · cases h
  · rename_i e he
    obtain ⟨i, text, -, -, -, hok⟩ := Event.Decoded.ofEvent_ok ⟨raw.tag, raw.payload, he⟩
    obtain ⟨a, ha, -⟩ := hok version time index raw
    rw [ha] at h
    cases h

theorem Activity.ofEvents_ne_broken (version : ℕ) (time : DateTime) (b : Breakdown) :
    ∀ (raws : List RawEvent) (start : ℕ),
      Activity.ofEvents version time start raws ≠ .error (.broken b)
  | [], _ => fun h => by cases h
  | raw :: rest, start => by
    intro h
    unfold Activity.ofEvents at h
    split at h
    · rename_i f hf
      cases h
      exact ofRawEvent_ne_broken version time start raw b hf
    · split at h
      · rename_i f hf
        cases h
        exact ofEvents_ne_broken version time b rest (start + 1) hf
      · cases h

/-- **A transaction gives its activities or is refused.** -/
theorem Transaction.activities_ne_broken (t : Transaction) (b : Breakdown) :
    t.activities ≠ .error (.broken b) := by
  unfold Transaction.activities
  intro h
  split at h
  · split at h
    · cases h
    · exact Activity.ofEvents_ne_broken _ _ b _ _ h
  · cases h

end TokenLedger
