/-
# The form of an activity

Whatever a payload says, the activity that it leads to has one form: its addresses are canonical, its
hashes are sixty-four digits, its names fit the width of a row, its numbers lie in the range of amounts,
and the parties are those of its kind (`Activity.FitsKind`). This holds of every activity that a
transaction gives (`Transaction.wellFormed_of_mem_given`): the facts about addresses, hashes, names and
numbers are each proved of the function that makes them, and the parties kind by kind.

Key definitions: `Sha256.IsHash`, `Activity.FitsKind`, `Activity.WellFormed`.
Key theorems: `Sha256.isHash_ofText`, `Event.kind_of_check`, `Event.tag_of_decode`,
`Activity.fitsKind_of_ofEvent`, `Transaction.wellFormed_of_mem_given`.
-/
import TokenLedger.Proofs.Activity.Proper
import TokenLedger.Proofs.Address.Canonical
import TokenLedger.Proofs.Decimal.Bounds
import TokenLedger.Proofs.Text.Utf8

namespace TokenLedger

/-! ### Hashes -/

namespace Sha256

/-- Sixty-four hexadecimal digits in lower case. -/
def IsHash (s : String) : Prop :=
  s.length = 64 ∧ ∀ c ∈ s.toList, ('0' ≤ c ∧ c ≤ '9') ∨ ('a' ≤ c ∧ c ≤ 'f')

theorem hexDigit_range : ∀ n < 16,
    ('0' ≤ hexDigit n ∧ hexDigit n ≤ '9') ∨ ('a' ≤ hexDigit n ∧ hexDigit n ≤ 'f') := by
  decide

theorem length_hexWord (w : UInt32) : (hexWord w).length = 8 := by
  unfold hexWord
  rw [List.length_map]
  rfl

theorem mem_hexWord {w : UInt32} {c : Char} (h : c ∈ hexWord w) :
    ('0' ≤ c ∧ c ≤ '9') ∨ ('a' ≤ c ∧ c ≤ 'f') := by
  obtain ⟨shift, -, rfl⟩ := List.mem_map.mp h
  exact hexDigit_range _ (Nat.mod_lt _ (by decide))

/-- **The hash of a text is one.** -/
theorem isHash_ofText (s : String) : IsHash (ofText s) := by
  unfold ofText hex
  generalize s.toUTF8.data.toList = message
  constructor
  · have hwords : (digest message).length = 8 := rfl
    have hlength : ∀ ws : List UInt32, (ws.flatMap hexWord).length = 8 * ws.length := by
      intro ws
      induction ws with
      | nil => rfl
      | cons w ws ih =>
        rw [List.flatMap_cons, List.length_append, length_hexWord, ih, List.length_cons]
        ring
    rw [String.length_ofList, hlength, hwords]
  · intro c hc
    rw [String.toList_ofList] at hc
    obtain ⟨w, -, hc⟩ := List.mem_flatMap.mp hc
    exact mem_hexWord hc

end Sha256

/-! ### Kinds -/

theorem EventKind.tag_injective {k l : EventKind} (h : k.tag = l.tag) : k = l := by
  have hk : ofTag? k.tag = some k := ofTag?_eq_some_iff.mpr rfl
  have hl : ofTag? k.tag = some l := ofTag?_eq_some_iff.mpr h
  exact Option.some.inj (hk.symm.trans hl)

namespace Event

/-- What a check of a kind accepts is an event of that kind. -/
theorem kind_of_check {kind : EventKind} {v : Json} {e : Event} (h : check kind v = .ok e) :
    e.kind = kind := by
  have ofTransfer : ∀ {event : Transfer → Event}, (∀ t, (event t).kind = kind) →
      (Transfer.check v).map event = .ok e → e.kind = kind := by
    intro event hevent h
    obtain ⟨t, -, rfl⟩ := Checked.map_eq_ok_iff.mp h
    exact hevent t
  have ofMove : ∀ {α : Type} {token : Check α} {event : α → Decimal → Event},
      (∀ t n, (event t n).kind = kind) → checkMove token event v = .ok e → e.kind = kind := by
    intro α token event hevent h
    obtain ⟨t, n, -, -, rfl⟩ := checkMove_eq_ok h
    exact hevent t n
  cases kind with
  | mint | burn | withdraw | deposit => exact ofMove (fun _ _ => rfl) h
  | mutate =>
    obtain ⟨before, after, keys, values, types, -, -, rfl⟩ := checkMutate_eq_ok h
    rfl
  | offer | cancelOffer | claim => exact ofTransfer (fun _ => rfl) h

/-- A decoded event has the kind that its tag names. -/
theorem tag_of_decode {tag payload : RawText} {e : Event} (h : decode tag payload = .ok (some e)) :
    tag = .text e.kind.tag := by
  obtain ⟨kind, v, hreads, hv⟩ := exists_reads_of_decode h
  rw [hreads.tag, kind_of_check hv]

/-! ### What an event moves -/

section

variable {e : Event} (emitter : String)

theorem sender?_eq : e.sender? emitter = if e.kind = .deposit then none else some emitter := by
  cases e <;> rfl

theorem sender?_cases {s : String} (h : e.sender? emitter = some s) : s = emitter := by
  rw [sender?_eq] at h
  by_cases hkind : e.kind = .deposit
  · rw [if_pos hkind] at h
    cases h
  · rw [if_neg hkind] at h
    exact (Option.some.inj h).symm

theorem receiver?_of_deposit (h : e.kind = .deposit) : e.receiver? emitter = some emitter := by
  cases e with
  | deposit => rfl
  | mint | burn | mutate | withdraw | offer | cancelOffer | claim => cases h

theorem isSome_receiver? (h : e.kind ∈ [.offer, .cancelOffer, .claim]) :
    (e.receiver? emitter).isSome = true := by
  cases e with
  | offer | cancelOffer | claim => rfl
  | mint | burn | mutate | withdraw | deposit => simp [kind] at h

theorem receiver?_eq_none (h : e.kind ∉ [.deposit, .offer, .cancelOffer, .claim]) :
    e.receiver? emitter = none := by
  cases e with
  | mint | burn | mutate | withdraw => rfl
  | deposit | offer | cancelOffer | claim => simp [kind] at h

/-- Whom a token reaches is the account that the event came from, or a recipient, whose address was
made canonical. -/
theorem receiver?_cases {s : String} (h : e.receiver? emitter = some s) :
    s = emitter ∨ ∃ raw, s = Address.canonical raw := by
  cases e with
  | mint | burn | mutate | withdraw => cases h
  | deposit => exact .inl (Option.some.inj h).symm
  | offer t | cancelOffer t | claim t => exact .inr ⟨t.recipient, (Option.some.inj h).symm⟩

theorem amount_of_mutate (h : e.kind = .mutate) : e.amount = .zero := by
  cases e with
  | mutate => rfl
  | mint | burn | withdraw | deposit | offer | cancelOffer | claim => cases h

/-- A new token has version zero. -/
theorem version_of_mint {i : Identity} (h : e.kind = .mint) (hi : e.identity = .ok i) :
    i.propertyVersion = .zero := by
  cases e with
  | mint t n =>
    have hnew : (Event.mint t n).identity = .ok ⟨t.creator, t.collection, t.name, .zero⟩ :=
      TokenData.identity_ok Decimal.zero_inRange
    cases hnew.symm.trans hi
    rfl
  | burn | mutate | withdraw | deposit | offer | cancelOffer | claim => cases h

end

end Event

/-! ### Activities -/

/-- What the kind of its event says about an activity: whom the token left and reached, and which
number is zero. -/
structure Activity.FitsKind (a : Activity) (kind : EventKind) : Prop where
  sender : a.sender = if kind = .deposit then none else some a.key.account
  arrival : kind = .deposit → a.receiver = some a.key.account
  recipient : kind ∈ [.offer, .cancelOffer, .claim] → a.receiver.isSome = true
  noReceiver : kind ∉ [.deposit, .offer, .cancelOffer, .claim] → a.receiver = none
  amount : kind = .mutate → a.amount.value = 0
  propertyVersion : kind = .mint → a.propertyVersion.value = 0

/-- The form of an activity that was made of an event. -/
structure Activity.WellFormed (a : Activity) : Prop where
  account : Address.Canonical a.key.account
  creator : Address.Canonical a.creator
  sender : ∀ s, a.sender = some s → Address.Canonical s
  receiver : ∀ s, a.receiver = some s → Address.Canonical s
  tag : ∃ kind : EventKind, a.tag = kind.tag
  kind : ∀ kind : EventKind, a.tag = kind.tag → a.FitsKind kind
  amount : 0 ≤ a.amount.value ∧ a.amount.value ≤ 2 ^ 64 - 1
  propertyVersion : 0 ≤ a.propertyVersion.value ∧ a.propertyVersion.value ≤ 2 ^ 64 - 1
  tokenHash : Sha256.IsHash a.tokenHash
  collectionHash : Sha256.IsHash a.collectionHash
  collection : a.collection.utf8ByteSize ≤ Identity.nameWidth
  name : a.name.utf8ByteSize ≤ Identity.nameWidth
  coins : a.coinType = none ∧ a.coinAmount = none
  index : ∃ k : ℕ, a.index = some (k : ℤ)

namespace Activity

variable {version index : ℕ} {time : DateTime} {raw : RawEvent} {a : Activity} {e : Event}

/-- **The parties of an activity are those of its kind.** -/
theorem fitsKind_of_ofEvent (h : ofEvent version time index raw e = .ok a) : a.FitsKind e.kind := by
  obtain ⟨i, text, hi, -, rfl⟩ := exists_of_ofEvent h
  have hzero : Decimal.zero.value = 0 := Decimal.value_eq_zero_iff.mpr rfl
  exact
    { sender := e.sender?_eq _
      arrival := Event.receiver?_of_deposit _
      recipient := Event.isSome_receiver? _
      noReceiver := Event.receiver?_eq_none _
      amount := fun hkind => by
        dsimp only
        rw [Event.amount_of_mutate hkind, hzero]
      propertyVersion := fun hkind => by
        dsimp only
        rw [Event.version_of_mint hkind hi, hzero] }

/-- **The activity of an event is well-formed.** -/
theorem wellFormed_of_ofRawEvent (h : ofRawEvent version time index raw = .ok (some a)) :
    a.WellFormed := by
  obtain ⟨e, hdecode, hactivity⟩ := ofRawEvent_eq_ok h
  have hdecoded : e.Decoded := ⟨raw.tag, raw.payload, hdecode⟩
  have hkind := fitsKind_of_ofEvent hactivity
  obtain ⟨i, hi, hversion⟩ := hdecoded.identity_ok
  obtain ⟨j, text, hj, -, rfl⟩ := exists_of_ofEvent hactivity
  obtain rfl : i = j := Except.ok.inj (hi.symm.trans hj)
  have htag : raw.tag.shown = e.kind.tag := by rw [Event.tag_of_decode hdecode]; rfl
  have haccount := Address.canonical_isCanonical raw.account.shown
  exact
    { account := haccount
      creator := Address.canonical_isCanonical i.creator
      sender := fun s hs => by
        obtain rfl := Event.sender?_cases _ hs
        exact haccount
      receiver := fun s hs => by
        rcases Event.receiver?_cases _ hs with rfl | ⟨r, rfl⟩
        · exact haccount
        · exact Address.canonical_isCanonical r
      tag := ⟨e.kind, htag⟩
      kind := fun kind hk => by
        obtain rfl : e.kind = kind := EventKind.tag_injective (htag.symm.trans hk)
        exact hkind
      amount := hdecoded.amount_payable.range
      propertyVersion := hversion.range
      tokenHash := Sha256.isHash_ofText text
      collectionHash := Sha256.isHash_ofText i.collectionText
      collection := Text.utf8ByteSize_truncate_le i.collection Identity.nameWidth
      name := Text.utf8ByteSize_truncate_le i.token Identity.nameWidth
      coins := ⟨rfl, rfl⟩
      index := ⟨index, rfl⟩ }

end Activity

/-- **The activities of a transaction are well-formed.** -/
theorem Transaction.wellFormed_of_mem_given {t : Transaction} {a : Activity} (ha : a ∈ t.given) :
    a.WellFormed := by
  obtain ⟨k, raw, time, -, -, hactivity⟩ := exists_event_of_mem_given ha
  exact Activity.wellFormed_of_ofRawEvent hactivity

end TokenLedger
