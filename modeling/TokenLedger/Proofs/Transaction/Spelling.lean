/-
# What a transaction is read from

A value is accepted as a transaction if it is an object with the members that a transaction needs, each
of which spells its part (`Transaction.ReadFrom`). A number may be spelled in any way that
`Check.int` reads, and has to be a natural; strings and kinds are spelled in one way. A time, or the
part of a user, may be missing or null, and the kind, the nanoseconds and the events may be missing.
Nothing else matters, and so it does not matter by which convention the value came
(`Transaction.check_of_check`). The written form of a transaction is accepted as that transaction
(`Transaction.check_toJson`).

Key definitions: `Json.Counts`, `Json.MayHold`, `Timestamp.ReadFrom`, `RawEvent.ReadFrom`,
`Transaction.ReadFrom`.
Key theorems: `Timestamp.check_eq_ok_iff`, `RawEvent.check_eq_ok_iff`, `Transaction.check_eq_ok_iff`,
`Transaction.check_of_check`, `Transaction.check_toJson`.
-/
import TokenLedger.Proofs.Schema.Accepted
import TokenLedger.Transaction

namespace TokenLedger

/-! ### Accepted parts -/

namespace Check

variable {α : Type} {check : Check α} {ms : Json.Members} {name : String} {a : α} {v : Json}

theorem rawText_eq_ok_iff {s : RawText} : rawText v = .ok s ↔ v = .str s := by
  cases v <;> simp [rawText, Checked.fail]

theorem natural_eq_ok_iff {n : ℕ} : natural v = .ok n ↔ int v = .ok (n : ℤ) := by
  unfold natural atLeast
  cases int v with
  | error issues => exact iff_of_false nofun nofun
  | ok k =>
    by_cases hk : k < 0
    · have hne : k ≠ n := by omega
      simp [hk, hne, Checked.fail, Except.map]
    · have heq : k.toNat = n ↔ k = n := by omega
      simp [hk, heq, Except.map]

theorem below_eq_ok_iff {bound : ℕ} {k : Fin bound} :
    below bound v = .ok k ↔ int v = .ok ((k : ℕ) : ℤ) := by
  unfold below
  cases int v with
  | error issues => exact iff_of_false nofun nofun
  | ok n =>
    have hbound := k.isLt
    by_cases hn : n < 0
    · have hne : n ≠ (k : ℕ) := by omega
      simp [hn, hne, Checked.fail]
    · by_cases hlt : n.toNat < bound
      · have heq : n.toNat = k ↔ n = (k : ℕ) := by omega
        simp [hn, hlt, Fin.ext_iff, heq]
      · have hne : n ≠ (k : ℕ) := by omega
        simp [hn, hlt, hne, Checked.fail]

theorem defaulted_eq_ok_iff {absent : α} : defaulted ms name absent check = .ok a ↔
    (Json.last? name ms = none ∧ a = absent) ∨
      ∃ v, Json.last? name ms = some v ∧ check v = .ok a := by
  unfold defaulted
  cases Json.last? name ms with
  | none => simp [eq_comm]
  | some v => simp [Checked.under_eq_ok_iff]

theorem orNull_of_ne_null (h : v ≠ .null) : orNull check v = (check v).map some := by
  unfold orNull
  split
  · exact absurd rfl h
  · rfl

theorem kind_eq_ok_iff {k : TransactionKind} :
    choice TransactionKind.ofName? v = .ok k ↔ v = .str (.text k.name) := by
  unfold choice
  split
  · rename_i s
    have hname : TransactionKind.ofName? s = some k ↔ s = k.name := TransactionKind.ofName?_eq_some_iff
    simp only [Json.str.injEq, RawText.text.injEq, ← hname]
    cases TransactionKind.ofName? s <;> simp [Checked.fail]
  · rename_i hno
    simpa [Checked.fail] using hno k.name

end Check

namespace Json

/-- A member spells a natural. -/
def Counts (ms : Members) (name : String) (n : ℕ) : Prop :=
  ∃ v, last? name ms = some v ∧ Check.int v = .ok (n : ℤ)

/-- Something is read from the members of a member. Nothing is read if it is missing or null. -/
def MayHold {α : Type} (ms : Members) (name : String) (reads : α → Members → Prop) : Option α → Prop
  | none => last? name ms = none ∨ last? name ms = some .null
  | some a => ∃ ns, last? name ms = some (.obj ns) ∧ reads a ns

end Json

namespace Check

variable {α : Type} {check : Check α} {ms : Json.Members} {name : String}

theorem required_natural_eq_ok_iff {n : ℕ} :
    required ms name natural = .ok n ↔ Json.Counts ms name n := by
  simp only [required_eq_ok_iff, natural_eq_ok_iff, Json.Counts]

theorem required_rawText_eq_ok_iff {s : RawText} :
    required ms name rawText = .ok s ↔ Json.last? name ms = some (.str s) := by
  simp only [required_eq_ok_iff, rawText_eq_ok_iff, exists_eq_right]

/-- An object that may be missing or null. -/
theorem defaulted_orNull_eq_ok_iff {reads : α → Json.Members → Prop} {o : Option α}
    (h : ∀ v a, check v = .ok a ↔ ∃ ns, v = .obj ns ∧ reads a ns) :
    defaulted ms name none (orNull check) = .ok o ↔ Json.MayHold ms name reads o := by
  have hsome : ∀ v, v ≠ .null → (orNull check v = .ok o ↔
      ∃ a, o = some a ∧ ∃ ns, v = .obj ns ∧ reads a ns) := by
    intro v hv
    rw [orNull_of_ne_null hv, Checked.map_eq_ok_iff]
    simp only [h]
    exact ⟨fun ⟨a, ha, ho⟩ => ⟨a, ho.symm, ha⟩, fun ⟨a, ho, ha⟩ => ⟨a, ha, ho.symm⟩⟩
  rw [defaulted_eq_ok_iff]
  constructor
  · intro hread
    rcases hread with ⟨hnone, rfl⟩ | ⟨v, hv, hread⟩
    · exact .inl hnone
    · by_cases hnull : v = .null
      · subst hnull
        cases hread
        exact .inr hv
      · obtain ⟨a, rfl, ns, rfl, ha⟩ := (hsome v hnull).mp hread
        exact ⟨ns, hv, ha⟩
  · intro hread
    cases o with
    | none =>
      rcases hread with hnone | hnull
      · exact .inl ⟨hnone, rfl⟩
      · exact .inr ⟨.null, hnull, rfl⟩
    | some a =>
      obtain ⟨ns, hns, ha⟩ := hread
      have hobject : Json.obj ns ≠ .null := nofun
      exact .inr ⟨.obj ns, hns, (hsome _ hobject).mpr ⟨a, rfl, ns, rfl, ha⟩⟩

end Check

/-! ### What is read -/

/-- A time is read from members: the seconds are there, and the nanoseconds are zero if they are
missing. -/
structure Timestamp.ReadFrom (t : Timestamp) (ms : Json.Members) : Prop where
  seconds : Json.Counts ms "seconds" t.seconds
  nanos : (Json.last? "nanos" ms = none ∧ t.nanos = 0) ∨ Json.Counts ms "nanos" t.nanos

/-- An event is read from members, its account and creation number from those of its key. -/
structure RawEvent.ReadFrom (e : RawEvent) (ms : Json.Members) : Prop where
  key : ∃ ks, Json.last? "key" ms = some (.obj ks) ∧
    Json.last? "account_address" ks = some (.str e.account) ∧
    Json.Counts ks "creation_number" e.creationNumber
  sequenceNumber : Json.Counts ms "sequence_number" e.sequenceNumber
  tag : Json.last? "type_str" ms = some (.str e.tag)
  payload : Json.last? "data" ms = some (.str e.payload)

/-- The events of a user are read from members. There are none if the list is missing. -/
def Transaction.EventsFrom (es : List RawEvent) (ms : Json.Members) : Prop :=
  (Json.last? "events" ms = none ∧ es = []) ∨
    ∃ vs, Json.last? "events" ms = some (.arr vs) ∧
      List.Forall₂ (fun v e => ∃ ns, v = Json.obj ns ∧ RawEvent.ReadFrom e ns) vs es

/-- A transaction is read from members. -/
structure Transaction.ReadFrom (t : Transaction) (ms : Json.Members) : Prop where
  version : Json.Counts ms "version" t.version
  timestamp : Json.MayHold ms "timestamp" Timestamp.ReadFrom t.timestamp
  kind : (Json.last? "type" ms = none ∧ t.kind = .user) ∨
    Json.last? "type" ms = some (.str (.text t.kind.name))
  events : Json.MayHold ms "user" Transaction.EventsFrom t.events

variable {c : Convention} {v : Json}

theorem Timestamp.check_eq_ok_iff {t : Timestamp} :
    Timestamp.check c v = .ok t ↔ ∃ ms, v = .obj ms ∧ t.ReadFrom ms := by
  rw [Timestamp.check, Check.record_eq_ok_iff]
  apply exists_congr
  intro ms
  apply and_congr_right
  intro _
  simp only [Checked.ap_eq_ok_iff, Checked.value, Except.ok.injEq, Check.required_natural_eq_ok_iff,
    Check.defaulted_eq_ok_iff, Check.below_eq_ok_iff]
  constructor
  · intro h
    obtain ⟨_, nanos, ⟨_, seconds, rfl, hseconds, rfl⟩, hnanos, rfl⟩ := h
    exact ⟨hseconds, hnanos⟩
  · intro h
    exact ⟨_, t.nanos, ⟨_, t.seconds, rfl, h.seconds, rfl⟩, h.nanos, rfl⟩

theorem RawEvent.checkKey_eq_ok_iff {account : RawText} {n : ℕ} :
    RawEvent.checkKey c v = .ok (account, n) ↔ ∃ ks, v = .obj ks ∧
      Json.last? "account_address" ks = some (.str account) ∧
      Json.Counts ks "creation_number" n := by
  rw [RawEvent.checkKey, Check.record_eq_ok_iff]
  simp only [Checked.ap_eq_ok_iff, Checked.value, Except.ok.injEq, Check.required_natural_eq_ok_iff,
    Check.required_rawText_eq_ok_iff]
  apply exists_congr
  intro ks
  apply and_congr_right
  intro _
  constructor
  · intro h
    obtain ⟨_, _, ⟨_, _, rfl, haccount, rfl⟩, hnumber, heq⟩ := h
    cases heq
    exact ⟨haccount, hnumber⟩
  · intro h
    exact ⟨_, n, ⟨_, account, rfl, h.1, rfl⟩, h.2, rfl⟩

theorem RawEvent.check_eq_ok_iff {e : RawEvent} :
    RawEvent.check c v = .ok e ↔ ∃ ms, v = .obj ms ∧ e.ReadFrom ms := by
  rw [RawEvent.check, Check.record_eq_ok_iff]
  simp only [Checked.ap_eq_ok_iff, Checked.value, Except.ok.injEq, Check.required_natural_eq_ok_iff,
    Check.required_rawText_eq_ok_iff]
  apply exists_congr
  intro ms
  apply and_congr_right
  intro _
  constructor
  · intro h
    obtain ⟨_, payload, ⟨_, tag, ⟨_, sequence, ⟨_, key, rfl, hmember, rfl⟩, hsequence, rfl⟩, htag, rfl⟩,
      hpayload, rfl⟩ := h
    obtain ⟨w, hw, hkey⟩ := Check.required_eq_ok_iff.mp hmember
    obtain ⟨ks, rfl, haccount, hnumber⟩ := checkKey_eq_ok_iff.mp hkey
    exact ⟨⟨ks, hw, haccount, hnumber⟩, hsequence, htag, hpayload⟩
  · intro h
    obtain ⟨ks, hks, haccount, hnumber⟩ := h.key
    have hkey : Check.required ms "key" (checkKey c) = .ok (e.account, e.creationNumber) :=
      Check.required_eq_ok_iff.mpr ⟨_, hks, checkKey_eq_ok_iff.mpr ⟨ks, rfl, haccount, hnumber⟩⟩
    exact ⟨_, e.payload, ⟨_, e.tag, ⟨_, e.sequenceNumber, ⟨_, _, rfl, hkey, rfl⟩, h.sequenceNumber,
      rfl⟩, h.tag, rfl⟩, h.payload, rfl⟩

/-- The items of a list are read one by one. -/
theorem RawEvent.listOf_check_eq_ok_iff {es : List RawEvent} :
    Check.listOf (RawEvent.check c) v = .ok es ↔ ∃ vs, v = .arr vs ∧
      List.Forall₂ (fun v e => ∃ ns, v = Json.obj ns ∧ RawEvent.ReadFrom e ns) vs es := by
  cases v with
  | arr vs => simp [Check.listOf_eq_ok_iff, RawEvent.check_eq_ok_iff]
  | null | bool | whole | float | str | obj => exact iff_of_false nofun nofun

theorem Transaction.checkEvents_eq_ok_iff {es : List RawEvent} :
    Transaction.checkEvents c v = .ok es ↔ ∃ ms, v = .obj ms ∧ Transaction.EventsFrom es ms := by
  rw [Transaction.checkEvents, Check.record_eq_ok_iff]
  apply exists_congr
  intro ms
  apply and_congr_right
  intro _
  simp only [Check.defaulted_eq_ok_iff, RawEvent.listOf_check_eq_ok_iff, Transaction.EventsFrom]
  apply or_congr_right
  constructor
  · intro h
    obtain ⟨_, hw, vs, rfl, hvs⟩ := h
    exact ⟨vs, hw, hvs⟩
  · intro h
    obtain ⟨vs, hw, hvs⟩ := h
    exact ⟨_, hw, vs, rfl, hvs⟩

/-- **What is accepted as a transaction.** -/
theorem Transaction.check_eq_ok_iff {t : Transaction} :
    Transaction.check c v = .ok t ↔ ∃ ms, v = .obj ms ∧ t.ReadFrom ms := by
  rw [Transaction.check, Check.record_eq_ok_iff]
  simp only [Checked.ap_eq_ok_iff, Checked.value, Except.ok.injEq, Check.required_natural_eq_ok_iff,
    Check.defaulted_orNull_eq_ok_iff fun _ _ => Timestamp.check_eq_ok_iff,
    Check.defaulted_orNull_eq_ok_iff fun _ _ => Transaction.checkEvents_eq_ok_iff,
    Check.defaulted_eq_ok_iff, Check.kind_eq_ok_iff, exists_eq_right]
  apply exists_congr
  intro ms
  apply and_congr_right
  intro _
  constructor
  · intro h
    obtain ⟨_, events, ⟨_, kind, ⟨_, time, ⟨_, version, rfl, hversion, rfl⟩, htime, rfl⟩, hkind, rfl⟩,
      hevents, rfl⟩ := h
    exact ⟨hversion, htime, hkind, hevents⟩
  · intro h
    exact ⟨_, t.events, ⟨_, t.kind, ⟨_, t.timestamp, ⟨_, t.version, rfl, h.version, rfl⟩, h.timestamp,
      rfl⟩, h.kind, rfl⟩, h.events, rfl⟩

/-- It does not matter how a transaction came. -/
theorem Transaction.check_of_check {t : Transaction} (h : Transaction.check c v = .ok t)
    (c' : Convention) : Transaction.check c' v = .ok t :=
  check_eq_ok_iff.mpr (check_eq_ok_iff.mp h)

/-! ### Written forms are accepted -/

theorem Timestamp.readFrom_toJson (t : Timestamp) : ∃ ms, t.toJson = .obj ms ∧ t.ReadFrom ms :=
  ⟨_, rfl, ⟨⟨_, rfl, rfl⟩, .inr ⟨_, rfl, rfl⟩⟩⟩

theorem RawEvent.readFrom_toJson (e : RawEvent) : ∃ ms, e.toJson = .obj ms ∧ e.ReadFrom ms :=
  ⟨_, rfl, ⟨⟨_, rfl, rfl, _, rfl, rfl⟩, ⟨_, rfl, rfl⟩, rfl, rfl⟩⟩

theorem Transaction.eventsFrom_toJson (es : List RawEvent) :
    Transaction.EventsFrom es [("events", .arr (es.map RawEvent.toJson))] := by
  refine .inr ⟨_, rfl, ?_⟩
  rw [List.forall₂_map_left_iff, List.forall₂_same]
  exact fun e _ => e.readFrom_toJson

/-- **The written form of a transaction is accepted as that transaction**, however it came. -/
theorem Transaction.check_toJson (c : Convention) (t : Transaction) : check c t.toJson = .ok t := by
  refine check_eq_ok_iff.mpr ⟨_, rfl, ⟨_, rfl, rfl⟩, ?timestamp, .inr rfl, ?events⟩
  case timestamp =>
    cases t.timestamp with
    | none => exact .inr rfl
    | some time =>
      obtain ⟨ms, hms, hread⟩ := time.readFrom_toJson
      exact ⟨ms, congrArg some hms, hread⟩
  case events =>
    cases t.events with
    | none => exact .inr rfl
    | some es => exact ⟨_, rfl, eventsFrom_toJson es⟩

/-- Written forms are accepted one by one. -/
theorem Transaction.forall₂_check_toJson (c : Convention) (ts : List Transaction) :
    List.Forall₂ (fun v t => check c v = .ok t) (ts.map toJson) ts := by
  rw [List.forall₂_map_left_iff, List.forall₂_same]
  exact fun t _ => check_toJson c t

end TokenLedger
