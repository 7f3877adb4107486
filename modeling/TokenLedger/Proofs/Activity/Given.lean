/-
# What a transaction gives

A transaction gives its activities or is refused, whatever the store holds; it gives them exactly if
it is legible (`Transaction.exists_activities_iff`). Each activity comes from one event
(`Activity.exists_of_ofEvent`): it has the numbers of that event, and its place in the transaction for
its index. So a transaction whose own numbers fit gives activities that fit
(`Transaction.Storable.fits`), and nothing stands in its way.

Key definitions: `Transaction.given?`, `Transaction.given`, `Transaction.Legible`,
`Transaction.Sound`, `Transaction.Storable`.
Key theorems: `Whole.fits_iff`, `Activity.exists_of_ofEvent`, `Activity.mem_ofEvents`,
`Transaction.given_or_refused`, `Transaction.exists_activities_iff`, `Transaction.Storable.fits`,
`Transaction.exists_activities_of_decode`.
-/
import TokenLedger.Proofs.Event.Agreement

namespace TokenLedger

/-- The numbers that fit are those from minus two to the sixty-third to less than that. -/
theorem Whole.fits_iff {n : ℤ} : Whole.fits n = true ↔ -(2 ^ 63) ≤ n ∧ n < 2 ^ 63 := by
  cases n with
  | ofNat k =>
    rw [fits, decide_eq_true_eq, Nat.pow_eq, Int.ofNat_eq_natCast]
    omega
  | negSucc k =>
    rw [fits, decide_eq_true_eq, Nat.pow_eq, Int.negSucc_eq]
    omega

/-- A number that fits the store is short enough to be read. -/
theorem Whole.digitCount_of_fits {n : ℤ} (h : Whole.fits n = true) :
    Text.digitCount n.natAbs ≤ Whole.maxLength := by
  obtain ⟨hlow, hhigh⟩ := Whole.fits_iff.mp h
  refine (Text.digitCount_le_iff (by decide)).mpr ?_
  calc n.natAbs ≤ 2 ^ 63 := by omega
    _ < 10 ^ 19 := by norm_num
    _ ≤ 10 ^ Whole.maxLength := Nat.pow_le_pow_right (by norm_num) (by decide)

/-! ### Where an activity comes from -/

namespace Activity

variable {version index : ℕ} {time : DateTime} {raw : RawEvent} {a : Activity}

/-- An activity is made of its event, of the token of the event and of the raw event. -/
theorem exists_of_ofEvent {e : Event} (h : ofEvent version time index raw e = .ok a) :
    ∃ i text, e.identity = .ok i ∧ i.tokenText = .ok text ∧
      a = { key := ⟨version, Address.canonical raw.account.shown, raw.creationNumber, raw.sequenceNumber⟩
            tokenHash := Sha256.ofText text
            propertyVersion := i.propertyVersion
            creator := i.creatorAddress
            collection := i.collectionLabel
            name := i.tokenLabel
            tag := raw.tag.shown
            sender := e.sender? (Address.canonical raw.account.shown)
            receiver := e.receiver? (Address.canonical raw.account.shown)
            amount := e.amount
            coinType := none
            coinAmount := none
            collectionHash := i.collectionHash
            time := time
            index := some index } := by
  unfold ofEvent at h
  split at h
  · cases h
  · rename_i i hi
    split at h
    · cases h
    · rename_i hash hhash
      cases h
      obtain ⟨text, htext, rfl⟩ : ∃ text, i.tokenText = .ok text ∧ Sha256.ofText text = hash := by
        unfold Identity.tokenHash at hhash
        cases ht : i.tokenText with
        | error f => rw [ht] at hhash; cases hhash
        | ok text => rw [ht] at hhash; exact ⟨text, rfl, Except.ok.inj hhash⟩
      exact ⟨i, text, hi, htext, rfl⟩

/-- An activity has the numbers of its event. -/
theorem numbers_of_ofEvent {e : Event} (h : ofEvent version time index raw e = .ok a) :
    a.key.version = version ∧ a.key.creationNumber = raw.creationNumber ∧
      a.key.sequenceNumber = raw.sequenceNumber ∧ a.index = some (index : ℤ) := by
  obtain ⟨i, text, -, -, rfl⟩ := exists_of_ofEvent h
  exact ⟨rfl, rfl, rfl, rfl⟩

theorem numbers_of_ofRawEvent (h : ofRawEvent version time index raw = .ok (some a)) :
    a.key.version = version ∧ a.key.creationNumber = raw.creationNumber ∧
      a.key.sequenceNumber = raw.sequenceNumber ∧ a.index = some (index : ℤ) := by
  unfold ofRawEvent at h
  split at h
  · cases h
  · cases h
  · split at h
    · cases h
    · rename_i hactivity
      cases h
      exact numbers_of_ofEvent hactivity

/-- Each activity of a list of events is the activity of one of them, at its place. -/
theorem mem_ofEvents : ∀ {raws : List RawEvent} {start : ℕ} {as : List Activity},
    ofEvents version time start raws = .ok as → a ∈ as →
    ∃ k raw, raws[k]? = some raw ∧ ofRawEvent version time (start + k) raw = .ok (some a)
  | [], _, _, h, ha => by
    cases h
    cases ha
  | raw :: rest, start, as, h, ha => by
    unfold ofEvents at h
    split at h
    · cases h
    · rename_i first hfirst
      split at h
      · cases h
      · rename_i others hothers
        cases h
        rcases List.mem_append.mp ha with ha | ha
        · rw [Option.mem_toList] at ha
          rw [Option.mem_def.mp ha] at hfirst
          exact ⟨0, raw, rfl, hfirst⟩
        · obtain ⟨k, raw', hk, hactivity⟩ := mem_ofEvents hothers ha
          refine ⟨k + 1, raw', hk, ?_⟩
          rw [← Nat.add_assoc, Nat.add_right_comm]
          exact hactivity

/-- An event leaves an activity or none if its payload fits. -/
theorem exists_ofRawEvent_iff :
    (∃ o, ofRawEvent version time index raw = .ok o) ↔
      ∃ e, Event.decode raw.tag raw.payload = .ok e := by
  unfold ofRawEvent
  cases hdecode : Event.decode raw.tag raw.payload with
  | error m => simp
  | ok e =>
    cases e with
    | none => simp
    | some e =>
      obtain ⟨i, text, -, -, -, hok⟩ := Event.Decoded.ofEvent_ok ⟨raw.tag, raw.payload, hdecode⟩
      obtain ⟨a, ha, -⟩ := hok version time index raw
      simp [ha]

/-- A list of events gives its activities if all payloads fit. -/
theorem exists_ofEvents_iff {raws : List RawEvent} {start : ℕ} :
    (∃ as, ofEvents version time start raws = .ok as) ↔
      ∀ raw ∈ raws, ∃ e, Event.decode raw.tag raw.payload = .ok e := by
  induction raws generalizing start with
  | nil => simp [ofEvents]
  | cons raw rest ih =>
    have hhead : (∃ o, ofRawEvent version time start raw = .ok o) ↔
        ∃ e, Event.decode raw.tag raw.payload = .ok e := exists_ofRawEvent_iff
    have hrest := @ih (start + 1)
    rw [List.forall_mem_cons, ← hhead, ← hrest, ofEvents]
    cases ofRawEvent version time start raw with
    | error f => simp
    | ok o =>
      cases ofEvents version time (start + 1) rest with
      | error f => simp
      | ok as => simp

end Activity

namespace Transaction

variable {t : Transaction}

/-! ### Activities or a refusal -/

/-- The activities of a transaction that is not refused. -/
def given? (t : Transaction) : Option (List Activity) :=
  t.activities.toOption

/-- The activities of a transaction; none if it is refused. -/
def given (t : Transaction) : List Activity :=
  t.given?.getD []

/-- A transaction gives activities or is refused. -/
theorem given_or_refused (t : Transaction) :
    (∃ as, t.activities = .ok as) ∨ ∃ r, t.activities = .error (.refused r) := by
  rcases h : t.activities with f | as
  · cases f with
    | refused r => exact .inr ⟨r, rfl⟩
    | broken b => exact absurd h (t.activities_ne_broken b)
  · exact .inl ⟨as, rfl⟩

/-- A transaction of a user that has a time, and whose token events have payloads that fit. -/
structure Legible (t : Transaction) : Prop where
  kind : t.kind = .user
  timestamp : t.timestamp.isSome = true
  events : ∃ raws, t.events = some raws ∧
    ∀ raw ∈ raws, ∃ e, Event.decode raw.tag raw.payload = .ok e

/-- **What is needed to give activities.** -/
theorem exists_activities_iff (t : Transaction) : (∃ as, t.activities = .ok as) ↔ t.Legible := by
  unfold activities
  constructor
  · rintro ⟨as, has⟩
    split at has
    · rename_i raws hkind hevents
      split at has
      · cases has
      · rename_i time htime
        refine ⟨hkind, by rw [htime]; rfl, raws, hevents, ?_⟩
        exact Activity.exists_ofEvents_iff.mp ⟨as, has⟩
    · cases has
  · rintro ⟨hkind, htime, raws, hevents, hdecode⟩
    obtain ⟨time, htime⟩ := Option.isSome_iff_exists.mp htime
    rw [hkind, hevents, htime]
    exact Activity.exists_ofEvents_iff.mpr hdecode

theorem given?_of_ok {as : List Activity} (h : t.activities = .ok as) : t.given? = some as := by
  rw [given?, h]
  rfl

theorem given?_of_refused {r : Refusal} (h : t.activities = .error (.refused r)) :
    t.given? = none := by
  rw [given?, h]
  rfl

theorem given_of_some {as : List Activity} (h : t.given? = some as) : t.given = as := by
  rw [given, h]
  rfl

theorem given_of_none (h : t.given? = none) : t.given = [] := by
  rw [given, h]
  rfl

theorem given_of_ok {as : List Activity} (h : t.activities = .ok as) : t.given = as :=
  given_of_some (given?_of_ok h)

/-- A transaction that is not legible is refused. -/
theorem given?_of_not_legible (h : ¬ t.Legible) : t.given? = none := by
  rcases t.given_or_refused with ⟨as, has⟩ | ⟨r, hr⟩
  · exact absurd (t.exists_activities_iff.mp ⟨as, has⟩) h
  · exact given?_of_refused hr

/-- A transaction that gives an activity is not refused. -/
theorem isSome_given? {a : Activity} (ha : a ∈ t.given) : t.given?.isSome = true := by
  cases hgiven : t.given? with
  | none =>
    rw [given_of_none hgiven] at ha
    cases ha
  | some as => rfl

/-- An activity of a transaction is that of one of its events, at the time of the transaction. -/
theorem exists_event_of_mem_given {a : Activity} (ha : a ∈ t.given) :
    ∃ k raw time, t.timestamp = some time ∧ (t.events.getD [])[k]? = some raw ∧
      Activity.ofRawEvent t.version time.dateTime k raw = .ok (some a) := by
  rcases t.given_or_refused with ⟨as, has⟩ | ⟨r, hr⟩
  · rw [given_of_ok has] at ha
    unfold activities at has
    split at has
    · rename_i events _ hevents
      split at has
      · cases has
      · rename_i time htime
        obtain ⟨k, raw, hk, hactivity⟩ := Activity.mem_ofEvents has ha
        rw [Nat.zero_add] at hactivity
        exact ⟨k, raw, time, htime, by rw [hevents]; exact hk, hactivity⟩
    · cases has
  · rw [given_of_none (given?_of_refused hr)] at ha
    cases ha

/-- The activities of a transaction have its version. -/
theorem version_of_mem_given {a : Activity} (ha : a ∈ t.given) : a.key.version = t.version := by
  obtain ⟨k, raw, time, -, -, hactivity⟩ := exists_event_of_mem_given ha
  exact (Activity.numbers_of_ofRawEvent hactivity).1

/-! ### Transactions that can be stored -/

/-- A transaction can be taken in as far as its version and its accounts are concerned. -/
def Sound (t : Transaction) : Prop :=
  Whole.fits t.version = true ∧ (t.given?.isSome = true → t.writable = true)

/-- All numbers of a transaction fit the store, and the accounts of its token events are text. -/
structure Storable (t : Transaction) : Prop where
  version : Whole.fits t.version = true
  writable : t.writable = true
  length : (t.events.getD []).length ≤ 2 ^ 63
  numbers : ∀ raw ∈ t.events.getD [],
    Whole.fits raw.creationNumber = true ∧ Whole.fits raw.sequenceNumber = true

theorem Storable.sound (h : t.Storable) : t.Sound :=
  ⟨h.version, fun _ => h.writable⟩

/-- The activities of a transaction whose numbers fit have numbers that fit. -/
theorem Storable.fits (h : t.Storable) : ∀ a ∈ t.given, a.fits = true := by
  intro a ha
  obtain ⟨k, raw, time, -, hk, hactivity⟩ := exists_event_of_mem_given ha
  obtain ⟨hversion, hcreation, hsequence, hindex⟩ := Activity.numbers_of_ofRawEvent hactivity
  obtain ⟨hc, hs⟩ := h.numbers raw (List.mem_of_getElem? hk)
  have hlt : k < (t.events.getD []).length := (List.getElem?_eq_some_iff.mp hk).1
  have hi : Whole.fits k = true := by
    have := h.length
    rw [Whole.fits_iff]
    omega
  simp only [Activity.fits, hversion, hcreation, hsequence, hindex, h.version, hc, hs, hi,
    Option.all_some, Bool.and_self]

/-! ### Transactions of one event -/

/-- A transaction of a version in which a token is minted. -/
def minting (version : ℕ) : Transaction :=
  ⟨version, some ⟨0, ⟨0, by decide⟩⟩, .user, some [Event.toRaw Event.minted]⟩

/-- The same transaction without its time. -/
def untimely (version : ℕ) : Transaction :=
  { minting version with timestamp := none }

/-- A transaction of a version in which that token ends, with a version of its properties. -/
def burning (version : ℕ) (propertyVersion : Decimal) : Transaction :=
  { minting version with events := some [Event.toRaw (Event.burnt propertyVersion)] }

/-- A transaction of one token event that is decoded gives the activity of that event. -/
theorem exists_activities_of_decode {raw : RawEvent} {e : Event} {time : Timestamp}
    (hkind : t.kind = .user) (htime : t.timestamp = some time) (hevents : t.events = some [raw])
    (h : Event.decode raw.tag raw.payload = .ok (some e)) :
    ∃ a, Activity.ofEvent t.version time.dateTime 0 raw e = .ok a ∧ t.activities = .ok [a] := by
  obtain ⟨i, text, -, -, -, hgives⟩ := Event.Decoded.ofEvent_ok ⟨raw.tag, raw.payload, h⟩
  obtain ⟨a, ha, -⟩ := hgives t.version time.dateTime 0 raw
  refine ⟨a, ha, ?_⟩
  unfold activities
  simp only [hkind, hevents, htime, Activity.ofEvents, Activity.ofRawEvent, h, ha]
  rfl

theorem exists_activities_of_minting (version : ℕ) :
    ∃ a time, Activity.ofEvent version time 0 (Event.toRaw Event.minted) Event.minted = .ok a ∧
      (minting version).activities = .ok [a] := by
  obtain ⟨a, ha⟩ := exists_activities_of_decode (t := minting version) rfl rfl rfl
    (Event.decode_toRaw Event.regular_minted)
  exact ⟨a, _, ha⟩

theorem storable_of_toRaw {e : Event} (hv : Whole.fits t.version = true)
    (he : t.events = some [Event.toRaw e]) : t.Storable where
  version := hv
  writable := by
    rw [writable, he]
    simp [RawEvent.writable, Event.toRaw, RawText.readable]
  length := by
    rw [he]
    norm_num
  numbers := by
    rw [he]
    intro raw hraw
    obtain rfl : raw = Event.toRaw e := List.mem_singleton.mp hraw
    have hzero : Whole.fits 0 = true := by decide
    exact ⟨hzero, hzero⟩

end Transaction
end TokenLedger
