/-
# Transactions in other spellings

An address has many spellings, and an activity depends on none of them: with all addresses of an
event in their canonical spelling, the event has the same activity (`Activity.ofEvent_canonical`).
So two transactions that differ in the spelling of addresses only give the same activities, and one
that was processed can be delivered again in another spelling, which adds nothing.

Key definitions: `Event.canonical`, `RawEvent.Respelled`, `Transaction.Respelled`.
Key theorems: `Event.identity_canonical`, `Activity.ofEvent_canonical`,
`Transaction.Respelled.activities_eq`, `Store.Settled.of_respelled`,
`Session.activities_of_respelled`.
-/
import TokenLedger.Proofs.Address.Canonical
import TokenLedger.Proofs.Event.RoundTrip
import TokenLedger.Proofs.Session.Redelivery

namespace TokenLedger

/-! ### Identities -/

namespace Identity

variable {i : Identity}

/-- The identity with its creator in canonical spelling. -/
def canonical (i : Identity) : Identity :=
  { i with creator := i.creatorAddress }

theorem creatorAddress_canonical (i : Identity) : i.canonical.creatorAddress = i.creatorAddress :=
  Address.canonical_canonical i.creator

theorem collectionText_canonical (i : Identity) : i.canonical.collectionText = i.collectionText := by
  unfold collectionText
  rw [creatorAddress_canonical]
  simp only [canonical]

theorem collectionHash_canonical (i : Identity) : i.canonical.collectionHash = i.collectionHash := by
  unfold collectionHash
  rw [collectionText_canonical]

theorem tokenHash_canonical (i : Identity) : i.canonical.tokenHash = i.tokenHash := by
  unfold tokenHash tokenText
  rw [collectionText_canonical]
  simp only [canonical]

end Identity

/-! ### Events -/

/-- The token with its creator in canonical spelling. -/
def TokenData.canonical (t : TokenData) : TokenData :=
  { t with creator := Address.canonical t.creator }

def TokenId.canonical (t : TokenId) : TokenId :=
  { t with data := t.data.canonical }

/-- The transfer with its recipient and the creator of its token in canonical spelling. -/
def Transfer.canonical (t : Transfer) : Transfer :=
  { t with recipient := Address.canonical t.recipient, token := t.token.canonical }

namespace Event

/-- The event with all its addresses in canonical spelling. -/
def canonical : Event → Event
  | .mint t n => .mint t.canonical n
  | .burn t n => .burn t.canonical n
  | .mutate before after keys values types => .mutate before.canonical after.canonical keys values types
  | .withdraw t n => .withdraw t.canonical n
  | .deposit t n => .deposit t.canonical n
  | .offer t => .offer t.canonical
  | .cancelOffer t => .cancelOffer t.canonical
  | .claim t => .claim t.canonical

end Event

theorem TokenData.identity_canonical (t : TokenData) (d : Decimal) :
    t.canonical.identity d = (t.identity d).map Identity.canonical := by
  unfold identity Identity.of?
  by_cases hd : d.belowZero = true
  · rw [if_pos hd, if_pos hd]
    rfl
  · rw [if_neg hd, if_neg hd]
    rfl

theorem TokenId.identity_canonical (t : TokenId) :
    t.canonical.identity = t.identity.map Identity.canonical := by
  simp only [identity, canonical, TokenData.identity_canonical]

namespace Event

/-- The token of the event in canonical spelling is the token of the event. -/
theorem identity_canonical (e : Event) : e.canonical.identity = e.identity.map Identity.canonical := by
  cases e <;> simp only [canonical, identity, Transfer.canonical, TokenId.identity_canonical,
    TokenData.identity_canonical]

theorem amount_canonical (e : Event) : e.canonical.amount = e.amount := by
  cases e <;> simp only [canonical, amount, Transfer.canonical]

theorem recipient?_canonical (e : Event) : e.canonical.recipient? = e.recipient? := by
  cases e <;> simp only [canonical, recipient?, Transfer.canonical, Address.canonical_canonical]

theorem sender?_canonical (emitter : String) (e : Event) :
    e.canonical.sender? emitter = e.sender? emitter := by
  cases e <;> simp only [canonical, sender?]

theorem receiver?_canonical (emitter : String) (e : Event) :
    e.canonical.receiver? emitter = e.receiver? emitter := by
  have hrecipient := e.recipient?_canonical
  cases e <;> simp only [canonical, receiver?] at hrecipient ⊢ <;> exact hrecipient

end Event

/-! ### Activities -/

namespace Activity

variable {version index : ℕ} {time : DateTime} {raw raw' : RawEvent}

/-- **An activity does not depend on the spelling of addresses in its event.** -/
theorem ofEvent_canonical (version : ℕ) (time : DateTime) (index : ℕ) (raw : RawEvent) (e : Event) :
    ofEvent version time index raw e.canonical = ofEvent version time index raw e := by
  unfold ofEvent
  rw [e.identity_canonical]
  cases e.identity with
  | error issues => rfl
  | ok i =>
    have hlabels : i.canonical.collectionLabel = i.collectionLabel ∧
        i.canonical.tokenLabel = i.tokenLabel ∧ i.canonical.propertyVersion = i.propertyVersion := by
      simp only [Identity.collectionLabel, Identity.tokenLabel, Identity.canonical, and_self]
    simp only [Except.map, i.tokenHash_canonical, i.creatorAddress_canonical,
      i.collectionHash_canonical, hlabels, e.amount_canonical, e.sender?_canonical,
      e.receiver?_canonical]

/-- What an activity has from the raw event, beside its payload: no more than the canonical account,
the numbers and the tag. -/
theorem ofEvent_of_account (e : Event)
    (haccount : Address.canonical raw.account.shown = Address.canonical raw'.account.shown)
    (hcreation : raw.creationNumber = raw'.creationNumber)
    (hsequence : raw.sequenceNumber = raw'.sequenceNumber) (htag : raw.tag = raw'.tag) :
    ofEvent version time index raw e = ofEvent version time index raw' e := by
  unfold ofEvent
  simp only [haccount, hcreation, hsequence, htag]

end Activity

/-! ### Transactions -/

/-- Two raw events differ in the spelling of addresses at most: of their accounts, and in their
payloads. Payloads of an unknown tag may differ in anything. -/
structure RawEvent.Respelled (raw raw' : RawEvent) : Prop where
  account : Address.canonical raw.account.shown = Address.canonical raw'.account.shown
  creationNumber : raw.creationNumber = raw'.creationNumber
  sequenceNumber : raw.sequenceNumber = raw'.sequenceNumber
  tag : raw.tag = raw'.tag
  payload : Event.kindOf? raw.tag = none ∨ ∃ e e', e.canonical = e'.canonical ∧
    Event.decode raw.tag raw.payload = .ok (some e) ∧
    Event.decode raw'.tag raw'.payload = .ok (some e')

/-- Two transactions of users have one version and one time, and their events differ in the spelling
of addresses at most. -/
structure Transaction.Respelled (t t' : Transaction) : Prop where
  version : t.version = t'.version
  kind : t.kind = .user ∧ t'.kind = .user
  timestamp : ∃ time, t.timestamp = some time ∧ t'.timestamp = some time
  events : ∃ raws raws', t.events = some raws ∧ t'.events = some raws' ∧
    List.Forall₂ RawEvent.Respelled raws raws'

namespace RawEvent

variable {raw raw' : RawEvent}

/-- Both payloads can be decoded. -/
theorem Respelled.decodes (h : raw.Respelled raw') :
    ∃ o, Event.decode raw.tag raw.payload = .ok o := by
  rcases h.payload with hnone | ⟨e, e', -, he, -⟩
  · exact ⟨none, Event.decode_of_kindOf?_eq_none hnone raw.payload⟩
  · exact ⟨some e, he⟩

theorem Respelled.ofRawEvent_eq (h : raw.Respelled raw') (version : ℕ) (time : DateTime)
    (index : ℕ) :
    Activity.ofRawEvent version time index raw = Activity.ofRawEvent version time index raw' := by
  unfold Activity.ofRawEvent
  rcases h.payload with hnone | ⟨e, e', hcanonical, he, he'⟩
  · rw [Event.decode_of_kindOf?_eq_none hnone, Event.decode_of_kindOf?_eq_none (h.tag ▸ hnone)]
  · have hactivity : Activity.ofEvent version time index raw e =
        Activity.ofEvent version time index raw' e' := by
      rw [← Activity.ofEvent_canonical version time index raw e, hcanonical,
        Activity.ofEvent_canonical,
        Activity.ofEvent_of_account e' h.account h.creationNumber h.sequenceNumber h.tag]
    rw [he, he']
    simp only [hactivity]

end RawEvent

namespace Transaction

variable {t t' : Transaction}

theorem ofEvents_of_respelled {raws raws' : List RawEvent}
    (h : List.Forall₂ RawEvent.Respelled raws raws') (version : ℕ) (time : DateTime) (start : ℕ) :
    Activity.ofEvents version time start raws = Activity.ofEvents version time start raws' := by
  induction h generalizing start with
  | nil => rfl
  | cons hraw _ ih =>
    unfold Activity.ofEvents
    rw [hraw.ofRawEvent_eq version time start, ih (start + 1)]

theorem decodes_of_respelled {raws raws' : List RawEvent}
    (h : List.Forall₂ RawEvent.Respelled raws raws') :
    ∀ raw ∈ raws, ∃ o, Event.decode raw.tag raw.payload = .ok o := by
  induction h with
  | nil => simp
  | cons hraw _ ih => exact List.forall_mem_cons.mpr ⟨hraw.decodes, ih⟩

/-- **Transactions in two spellings give the same activities.** -/
theorem Respelled.activities_eq (h : t.Respelled t') : t.activities = t'.activities := by
  obtain ⟨time, htime, htime'⟩ := h.timestamp
  obtain ⟨raws, raws', hraws, hraws', hevents⟩ := h.events
  unfold activities
  rw [h.kind.1, h.kind.2, htime, htime', hraws, hraws', h.version]
  exact ofEvents_of_respelled hevents t'.version time.dateTime 0

/-- Neither is refused. -/
theorem Respelled.exists_activities (h : t.Respelled t') :
    ∃ as, t.activities = .ok as ∧ t'.activities = .ok as := by
  obtain ⟨time, htime, -⟩ := h.timestamp
  obtain ⟨raws, raws', hraws, -, hevents⟩ := h.events
  have hlegible : t.Legible :=
    { kind := h.kind.1
      timestamp := by rw [htime]; rfl
      events := ⟨raws, hraws, decodes_of_respelled hevents⟩ }
  obtain ⟨as, has⟩ := t.exists_activities_iff.mpr hlegible
  exact ⟨as, has, h.activities_eq ▸ has⟩

theorem Respelled.given?_eq (h : t.Respelled t') : t.given? = t'.given? := by
  rw [given?, given?, h.activities_eq]

theorem Respelled.given_eq (h : t.Respelled t') : t.given = t'.given := by
  rw [given, given, h.given?_eq]

end Transaction

/-! ### Deliveries -/

namespace Store

variable {s : Store} {t t' : Transaction}

/-- A transaction whose activities are stored is settled in every spelling that can be written. -/
theorem Settled.of_respelled (h : s.Settled t) (ht : t.Respelled t') (hwritable : t'.writable = true) :
    s.Settled t' where
  sound := ⟨ht.version ▸ h.sound.1, fun _ => hwritable⟩
  given := ht.given?_eq ▸ h.given
  stored := ht.given_eq ▸ h.stored

/-- A transaction that cannot be written cannot be taken in, unless it is refused. -/
theorem not_takes_of_unwritable (hgiven : t.given?.isSome = true) (h : t.writable = false) :
    ¬ s.Takes [t] := by
  rintro ⟨hsound, -⟩
  have hwritable := (hsound t (List.mem_singleton_self t)).2 hgiven
  rw [h] at hwritable
  cases hwritable

end Store

namespace Session

variable {cs : List Command} {t t' : Transaction}

/-- A settled transaction, delivered with others, is as if it were not there. -/
theorem activities_with_settled (h : (after cs).Settled t) {c d : Command} {us ws : List Transaction}
    (hc : c.Delivers (us ++ t :: ws)) (hd : d.Delivers (us ++ ws)) :
    (after (cs ++ [c])).activities = (after (cs ++ [d])).activities := by
  rw [after_append_singleton, after_append_singleton]
  by_cases htakes : (after cs).Takes (us ++ ws)
  · rw [Command.next_of_takes hc ((h.takes_iff us ws).mpr htakes), Command.next_of_takes hd htakes]
    exact h.activities_batch _ _ us ws
  · have hnot : ¬ (after cs).Takes (us ++ t :: ws) := fun hwith => htakes ((h.takes_iff us ws).mp hwith)
    rw [Command.next_of_not_takes hc hnot, Command.next_of_not_takes hd htakes]

/-- A processed transaction, delivered alone in another spelling, adds nothing. -/
theorem Processed.activities_alone (h : Processed cs t) (ht : t.Respelled t') {c : Command}
    (hc : c.Delivers [t']) : (after (cs ++ [c])).activities = (after cs).activities := by
  have hsettled := h.settled
  rw [after_append_singleton]
  by_cases hwritable : t'.writable = true
  · have hsettled' := hsettled.of_respelled ht hwritable
    rw [Command.next_of_takes hc hsettled'.takes_alone]
    exact hsettled'.activities_alone cs.length
  · have hgiven : t'.given?.isSome = true := ht.given?_eq ▸ hsettled.given
    rw [Bool.not_eq_true] at hwritable
    rw [Command.next_of_not_takes hc (Store.not_takes_of_unwritable hgiven hwritable)]

/-- **The spelling of addresses does not matter.** The spellings of a number have one canonical form.
Two transactions of users that differ in the spelling of addresses at most both give activities, and
the same. Once one of them was processed, the other one adds nothing by itself; if its accounts can
be written, its delivery succeeds, is reported with nothing inserted, and has no effect on the
activities of those that are delivered with it. -/
theorem activities_of_respelled :
    (∀ n (r r' : String), Address.Spells n r.toList → Address.Spells n r'.toList →
      Address.canonical r = Address.canonical r') ∧
    ∀ t t' : Transaction, t.Respelled t' →
      (∃ as, t.activities = .ok as ∧ t'.activities = .ok as) ∧
      ∀ cs, Processed cs t →
        (∀ c : Command, c.Delivers [t'] →
          (after (cs ++ [c])).activities = (after cs).activities) ∧
        (t'.writable = true →
          (∀ c : Command, c.Delivers [t'] → ∃ s o, c.run (after cs) cs.length = .ok (s, o) ∧
            o.Reports [t'] ⟨1, 1, 0, t'.given.length, 0⟩) ∧
          ∀ c d us ws, c.Delivers (us ++ t' :: ws) → d.Delivers (us ++ ws) →
            (after (cs ++ [c])).activities = (after (cs ++ [d])).activities) := by
  refine ⟨fun n r r' hr hr' => Address.canonical_of_spells hr hr', fun t t' ht => ?_⟩
  refine ⟨ht.exists_activities, fun cs hcs => ⟨fun c hc => hcs.activities_alone ht hc, ?_⟩⟩
  intro hwritable
  have hsettled := hcs.settled.of_respelled ht hwritable
  refine ⟨fun c hc => ?_, fun c d us ws hc hd => activities_with_settled hsettled hc hd⟩
  obtain ⟨o, hrun, hreport⟩ := Command.run_of_takes hc hsettled.takes_alone cs.length
  rw [hsettled.tally_alone] at hreport
  exact ⟨_, o, hrun, hreport⟩

/-! ### An offer in two spellings -/

/-- An offer of a token, with the addresses of its creator and of the recipient. -/
def offered (creator recipient : String) : Event :=
  .offer ⟨recipient, ⟨⟨creator, "a", "b"⟩, .zero⟩, .zero⟩

theorem regular_offered (creator recipient : String) : (offered creator recipient).Regular := by
  refine Event.regular_of_decimals nofun ?_
  exact List.forall_mem_cons.mpr
    ⟨Decimal.zero_payable, List.forall_mem_singleton.mpr Decimal.zero_payable⟩

/-- A transaction with such an offer, emitted by an account. -/
def offering (account creator recipient : String) : Transaction :=
  { Transaction.minting 1 with
    events := some [{ Event.toRaw (offered creator recipient) with account := .text account }] }

theorem respelled_offering {account creator recipient account' creator' recipient' : String}
    (haccount : Address.canonical account = Address.canonical account')
    (hcreator : Address.canonical creator = Address.canonical creator')
    (hrecipient : Address.canonical recipient = Address.canonical recipient') :
    (offering account creator recipient).Respelled (offering account' creator' recipient') := by
  have hcanonical : (offered creator recipient).canonical = (offered creator' recipient').canonical := by
    simp only [offered, Event.canonical, Transfer.canonical, TokenId.canonical, TokenData.canonical,
      hcreator, hrecipient]
  have hdecode := fun creator recipient =>
    Event.decode_tag (Event.ofPayload_toJson (regular_offered creator recipient))
  have hraw : RawEvent.Respelled
      { Event.toRaw (offered creator recipient) with account := .text account }
      { Event.toRaw (offered creator' recipient') with account := .text account' } :=
    { account := haccount
      creationNumber := rfl
      sequenceNumber := rfl
      tag := rfl
      payload := .inr ⟨_, _, hcanonical, hdecode creator recipient, hdecode creator' recipient'⟩ }
  exact
    { version := rfl
      kind := ⟨rfl, rfl⟩
      timestamp := ⟨_, rfl, rfl⟩
      events := ⟨_, _, rfl, rfl, .cons hraw .nil⟩ }

/-- It gives one activity, that of the offer. -/
theorem exists_activities_of_offering (account creator recipient : String) :
    ∃ a raw time, Activity.ofEvent 1 time 0 raw (offered creator recipient) = .ok a ∧
      (offering account creator recipient).activities = .ok [a] := by
  obtain ⟨a, ha⟩ := Transaction.exists_activities_of_decode (t := offering account creator recipient)
    rfl rfl rfl (Event.decode_tag (Event.ofPayload_toJson (regular_offered creator recipient)))
  exact ⟨a, _, _, ha⟩

/-- An offer is delivered, and delivered again with a capital mark, without a mark, with zeros, in
capital digits and among blanks. -/
theorem activities_of_respelled_offer :
    Processed [.processTransaction (offering "0x1" "0x1" "0xab").toJson] (offering "0x1" "0x1" "0xab") ∧
    (offering "0x1" "0x1" "0xab").Respelled (offering " 0X1" "001\n" "AB") ∧
    ∃ s o, (Command.processTransaction (offering " 0X1" "001\n" "AB").toJson).run
        (after [.processTransaction (offering "0x1" "0x1" "0xab").toJson]) 1 = .ok (s, o) ∧
      o.Reports [offering " 0X1" "001\n" "AB"] ⟨1, 1, 0, 1, 0⟩ := by
  have htakes : Store.empty.Takes [offering "0x1" "0x1" "0xab"] :=
    Store.takes_singleton _ (Transaction.storable_of_toRaw (by decide) rfl)
  obtain ⟨a, -, -, -, ha⟩ := exists_activities_of_offering "0x1" "0x1" "0xab"
  obtain ⟨b, -, -, -, hb⟩ := exists_activities_of_offering " 0X1" "001\n" "AB"
  have hprocessed := processed_first (Command.delivers_toJson _) htakes (List.mem_singleton_self _)
    (by rw [Transaction.given?_of_ok ha]; rfl)
  have hrespelled : (offering "0x1" "0x1" "0xab").Respelled (offering " 0X1" "001\n" "AB") :=
    respelled_offering (by decide) (by decide) (by decide)
  obtain ⟨-, hagree⟩ := activities_of_respelled
  obtain ⟨-, hagain⟩ := hagree _ _ hrespelled
  obtain ⟨-, hwritten⟩ := hagain _ hprocessed
  obtain ⟨halone, -⟩ := hwritten (by decide)
  rw [Transaction.given_of_ok hb] at halone
  exact ⟨hprocessed, hrespelled, halone _ (Command.delivers_toJson _)⟩

end Session
end TokenLedger
