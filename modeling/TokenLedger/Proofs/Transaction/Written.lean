/-
# Transactions in their written form

Every value that is accepted as a transaction may be replaced by the written form of what it is accepted
as. The numbers of that form are those that the value spells, where it spells them; none is below zero,
and the nanoseconds are fewer than a second has (`Transaction.NumberAt`). A number that was read from a
body is not too long to be written, so a batch whose strings are text can be posted again in its written
form (`Transaction.agrees_with_written`).

Key definitions: `Transaction.NumberAt`, `Transaction.nanosPlace`, `Transaction.Textual`,
`Transaction.Short`.
Key theorems: `Transaction.NumberAt.find?_toJson`, `Transaction.ReadFrom.spells`,
`Transaction.plain_toJson`, `Service.short_of_carries`, `Service.respond_of_written`,
`Transaction.agrees_with_written`.
-/
import TokenLedger.Proofs.Activity.RoundTrip
import TokenLedger.Proofs.Json.Limits
import TokenLedger.Proofs.Service.Bodies
import TokenLedger.Proofs.Session.Steps

namespace TokenLedger

/-! ### The numbers of a transaction -/

namespace Transaction

variable {t : Transaction} {v : Json} {place : List Json.Step} {n : ℤ}

/-- Where the nanoseconds of a transaction stand. -/
def nanosPlace : List Json.Step :=
  [.member "timestamp", .member "nanos"]

/-- The numbers of a transaction, and where they stand in its written form. -/
inductive NumberAt (t : Transaction) : List Json.Step → ℤ → Prop where
  | version : NumberAt t [.member "version"] t.version
  | seconds {time : Timestamp} (h : t.timestamp = some time) :
    NumberAt t [.member "timestamp", .member "seconds"] time.seconds
  | nanos {time : Timestamp} (h : t.timestamp = some time) : NumberAt t nanosPlace (time.nanos : ℕ)
  | creationNumber {es : List RawEvent} {i : ℕ} {e : RawEvent} (h : t.events = some es)
    (hi : es[i]? = some e) :
    NumberAt t [.member "user", .member "events", .item i, .member "key", .member "creation_number"]
      e.creationNumber
  | sequenceNumber {es : List RawEvent} {i : ℕ} {e : RawEvent} (h : t.events = some es)
    (hi : es[i]? = some e) :
    NumberAt t [.member "user", .member "events", .item i, .member "sequence_number"] e.sequenceNumber

theorem NumberAt.nonneg (h : t.NumberAt place n) : 0 ≤ n := by
  cases h <;> exact Int.natCast_nonneg _

/-- The nanoseconds are a part of a second. -/
theorem NumberAt.lt_of_nanosPlace (h : t.NumberAt place n) (hplace : place = nanosPlace) :
    n < 10 ^ 9 := by
  cases h with
  | nanos h =>
    rename_i time
    exact_mod_cast time.nanos.isLt
  | version | seconds | creationNumber | sequenceNumber => simp [nanosPlace] at hplace

/-- A path into the written form of an event goes on from there. -/
theorem find?_event {es : List RawEvent} {i : ℕ} {e : RawEvent} (h : t.events = some es)
    (hi : es[i]? = some e) (path : List Json.Step) :
    t.toJson.find? (.member "user" :: .member "events" :: .item i :: path) = e.toJson.find? path := by
  have hitem : (es.map RawEvent.toJson)[i]? = some e.toJson := by
    rw [List.getElem?_map, hi, Option.map_some]
  rw [toJson, h]
  show ((es.map RawEvent.toJson)[i]?).bind (Json.find? · path) = e.toJson.find? path
  rw [hitem, Option.bind_some]

/-- The numbers stand in the written form. -/
theorem NumberAt.find?_toJson (h : t.NumberAt place n) :
    t.toJson.find? place = some (.whole n) := by
  cases h with
  | version => rfl
  | seconds h =>
    rw [toJson, h]
    rfl
  | nanos h =>
    rw [toJson, h]
    rfl
  | creationNumber h hi => rw [find?_event h hi]; rfl
  | sequenceNumber h hi => rw [find?_event h hi]; rfl

end Transaction

/-! ### The numbers that a value spells -/

theorem Json.Counts.spellsAt {ms : Json.Members} {name : String} {n : ℕ} (h : Json.Counts ms name n) :
    (Json.obj ms).SpellsAt [.member name] n := by
  obtain ⟨w, hw, hn⟩ := h
  exact ⟨w, Json.find?_of_last? hw [], hn⟩

/-- Of two lists that go together, what stands at an index of the second has a partner in the first. -/
theorem exists_getElem?_of_forall₂ {α β : Type} {R : α → β → Prop} {as : List α} {bs : List β}
    (h : List.Forall₂ R as bs) {i : ℕ} {b : β} (hb : bs[i]? = some b) :
    ∃ a, as[i]? = some a ∧ R a b := by
  induction h generalizing i with
  | nil => cases hb
  | cons hr _ ih =>
    cases i with
    | zero =>
      rw [List.getElem?_cons_zero, Option.some.injEq] at hb
      exact ⟨_, rfl, hb ▸ hr⟩
    | succ i => exact ih hb

namespace Transaction

variable {t : Transaction} {ms : Json.Members} {place : List Json.Step} {n : ℤ}

theorem ReadFrom.exists_event (h : t.ReadFrom ms) {es : List RawEvent} (hes : t.events = some es)
    {i : ℕ} {e : RawEvent} (hi : es[i]? = some e) :
    ∃ ns, e.ReadFrom ns ∧ ∀ path n, (Json.obj ns).SpellsAt path n →
      (Json.obj ms).SpellsAt (.member "user" :: .member "events" :: .item i :: path) n := by
  have huser := h.events
  rw [hes] at huser
  obtain ⟨us, hus, hevents⟩ := huser
  rcases hevents with ⟨-, rfl⟩ | ⟨vs, hvs, hall⟩
  · cases hi
  · obtain ⟨_, hv, ns, rfl, hread⟩ := exists_getElem?_of_forall₂ hall hi
    exact ⟨ns, hread, fun _ _ hspells => ((hspells.item hv).member hvs).member hus⟩

/-- **The numbers are those that the value spells**, at the same places. Only the nanoseconds may be
missing; then they are none. -/
theorem ReadFrom.spells (hread : t.ReadFrom ms) (h : t.NumberAt place n) :
    (Json.obj ms).SpellsAt place n ∨
      (place = nanosPlace ∧ (Json.obj ms).find? place = none ∧ n = 0) := by
  cases h with
  | version => exact .inl hread.version.spellsAt
  | seconds h =>
    have htime := hread.timestamp
    rw [h] at htime
    obtain ⟨ts, hts, htime⟩ := htime
    exact .inl (htime.seconds.spellsAt.member hts)
  | nanos h =>
    have htime := hread.timestamp
    rw [h] at htime
    obtain ⟨ts, hts, htime⟩ := htime
    rcases htime.nanos with ⟨hnone, hzero⟩ | hcounts
    · refine .inr ⟨rfl, ?_, by rw [hzero]; rfl⟩
      rw [nanosPlace, Json.find?_of_last? hts]
      show (Json.last? "nanos" ts).bind (Json.find? · []) = none
      rw [hnone, Option.bind_none]
    · exact .inl (hcounts.spellsAt.member hts)
  | creationNumber h hi =>
    obtain ⟨ns, he, hplace⟩ := hread.exists_event h hi
    obtain ⟨ks, hks, -, hnumber⟩ := he.key
    exact .inl (hplace _ _ (hnumber.spellsAt.member hks))
  | sequenceNumber h hi =>
    obtain ⟨ns, he, hplace⟩ := hread.exists_event h hi
    exact .inl (hplace _ _ he.sequenceNumber.spellsAt)

end Transaction

/-! ### Written transactions as text -/

theorem RawText.readable_text (s : String) : (RawText.text s).readable = true := rfl

namespace Transaction

variable {t : Transaction}

/-- The strings of a transaction are text. -/
def Textual (t : Transaction) : Prop :=
  ∀ es, t.events = some es → ∀ e ∈ es,
    e.account.readable = true ∧ e.tag.readable = true ∧ e.payload.readable = true

/-- No number of a transaction is too long to be read. -/
def Short (t : Transaction) : Prop :=
  ∀ place n, t.NumberAt place n → Text.digitCount n.natAbs ≤ Whole.maxLength

theorem Short.plain_event (h : t.Short) (htext : t.Textual) {es : List RawEvent}
    (hes : t.events = some es) {e : RawEvent} (he : e ∈ es) : e.toJson.plain = true := by
  obtain ⟨i, hi⟩ := List.getElem?_of_mem he
  obtain ⟨haccount, htag, hpayload⟩ := htext es hes e he
  have hcreation := h _ _ (.creationNumber hes hi)
  have hsequence := h _ _ (.sequenceNumber hes hi)
  rw [Int.natAbs_natCast] at hcreation hsequence
  simp [RawEvent.toJson, Json.plain, Json.plainMembers, RawText.readable_text, haccount, htag, hpayload,
    hcreation, hsequence]

theorem Short.plain_timestamp (h : t.Short) {time : Timestamp} (htime : t.timestamp = some time) :
    time.toJson.plain = true := by
  have hseconds := h _ _ (.seconds htime)
  have hnanos := h _ _ (.nanos htime)
  rw [Int.natAbs_natCast] at hseconds hnanos
  simp [Timestamp.toJson, Json.plain, Json.plainMembers, RawText.readable_text, hseconds, hnanos]

/-- **The written form reads as it is** if the strings are text and the numbers not too long. -/
theorem plain_toJson (h : t.Short) (htext : t.Textual) : t.toJson.plain = true := by
  have hversion := h _ _ .version
  rw [Int.natAbs_natCast] at hversion
  have htime : (Json.ofOption Timestamp.toJson t.timestamp).plain = true :=
    Json.plain_ofOption fun time htime => h.plain_timestamp htime
  have hevents : (Json.ofOption (fun es => .obj [("events", .arr (es.map RawEvent.toJson))])
      t.events).plain = true := by
    apply Json.plain_ofOption
    intro es hes
    have hitems : Json.plainItems (es.map RawEvent.toJson) = true := by
      rw [Json.plainItems_iff]
      intro v hv
      obtain ⟨e, he, rfl⟩ := List.mem_map.mp hv
      exact h.plain_event htext hes he
    simp [Json.plain, Json.plainMembers, RawText.readable_text, hitems]
  simp [toJson, Json.plain, Json.plainMembers, RawText.readable_text, hversion, htime, hevents]

end Transaction

/-! ### Posted again -/

namespace Service

variable {r : Request} {vs : List Json} {ts : List Transaction} {s : Store} {time : ℕ}

/-- **The numbers of what a body brings are not too long.** -/
theorem short_of_carries (h : r.Carries vs) {c : Convention} {v : Json} {t : Transaction}
    (hv : v ∈ vs) (ht : Transaction.check c v = .ok t) : t.Short := by
  obtain ⟨text, ms, -, -, hvalue, hms⟩ := h.body
  obtain ⟨cs, u, hu, hmerged⟩ := exists_of_valueOfBody hvalue
  have hlimited := Json.limited_of_readCharacters hu
  obtain ⟨i, hi⟩ := List.getElem?_of_mem hv
  obtain ⟨ns, rfl, hread⟩ := Transaction.check_eq_ok_iff.mp ht
  intro place n hn
  rcases hread.spells hn with hspells | ⟨-, -, rfl⟩
  · have hbody : (Json.obj ms).SpellsAt (.member "transactions" :: .item i :: place) n :=
      (hspells.item hi).member hms
    rw [hmerged] at hbody
    exact hlimited.digitCount_of_spellsAt hbody
  · decide

/-- **A batch whose strings are text can be posted in its written form**, with the same effect. -/
theorem respond_of_written (h : r.Posts .ingest checkBatch ts) (htext : ∀ t ∈ ts, t.Textual)
    (s : Store) (time : ℕ) :
    respond s time { r with body := some (batchJson (ts.map Transaction.toJson)).text } =
      respond s time r := by
  obtain ⟨vs, hcarries, hall⟩ := carries_of_posts h
  have hplain : ∀ v ∈ ts.map Transaction.toJson, v.plain = true := by
    intro v hv
    obtain ⟨t, ht, rfl⟩ := List.mem_map.mp hv
    obtain ⟨w, hw, haccepted⟩ := exists_of_forall₂ hall.flip ht
    exact Transaction.plain_toJson (short_of_carries hcarries hw haccepted) (htext t ht)
  have hheight : ∀ v ∈ ts.map Transaction.toJson, v.height < bodyDialect.depth := by
    intro v hv
    obtain ⟨t, -, rfl⟩ := List.mem_map.mp hv
    exact t.height_toJson_le.trans_lt (by decide)
  have hposts := posts_of_carries (Request.carries_write h.target h.verb hplain hheight)
    (Transaction.forall₂_check_toJson .request ts)
  rw [respond_eq_ingest hposts, respond_eq_ingest h]

end Service

/-! ### In place of the original -/

/-- An item may be replaced by one that is checked alike. -/
theorem checkEach_congr {α : Type} {check : Check α} {v w : Json} (h : check w = check v)
    (before after : List Json) :
    checkEach check (before ++ w :: after) = checkEach check (before ++ v :: after) := by
  induction before with
  | nil => rw [List.nil_append, List.nil_append, checkEach, checkEach, h]
  | cons u before ih => rw [List.cons_append, List.cons_append, checkEach, checkEach, ih]

namespace Transaction

/-- **The written form of a transaction agrees with every value that is accepted as it.** It is accepted
as the same transaction, however it comes, and as a text as well if it can be written as one. Its
numbers are not below zero, and those that the value spells at the same places; only the nanoseconds,
which are less than a second, may be missing there and are none then. Given to a store in place of the
value, alone, in a batch, or in the body of a request, it has the same effect and the same answer, also
where something else in the batch is refused. And a batch that was posted may be posted again as the
text of its written form, if its strings are text. -/
theorem agrees_with_written {c : Convention} {v : Json} {t : Transaction} (h : check c v = .ok t) :
    (∀ c', check c' t.toJson = .ok t) ∧
      (∀ d : Json.Dialect, 5 ≤ d.depth → t.Short → t.Textual →
        Json.read d t.toJson.text = .ok t.toJson) ∧
      (∀ place n, t.NumberAt place n → 0 ≤ n ∧ (place = nanosPlace → n < 10 ^ 9) ∧
        t.toJson.find? place = some (.whole n) ∧
        (v.SpellsAt place n ∨ (place = nanosPlace ∧ v.find? place = none ∧ n = 0))) ∧
      (∀ s time, (Command.processTransaction t.toJson).run s time =
        (Command.processTransaction v).run s time) ∧
      (∀ before after s time, (Command.processBatch (before ++ t.toJson :: after)).run s time =
        (Command.processBatch (before ++ v :: after)).run s time) ∧
      (∀ (r r' : Request) before after, r.Carries (before ++ v :: after) →
        r'.Carries (before ++ t.toJson :: after) →
          ∀ s time, Service.respond s time r' = Service.respond s time r) ∧
      ∀ (r : Request) ts, r.Posts .ingest Service.checkBatch ts → (∀ t ∈ ts, t.Textual) →
        ∀ s time, Service.respond s time
            { r with body := some (Service.batchJson (ts.map toJson)).text } =
          Service.respond s time r := by
  have halike : check .direct t.toJson = check .direct v :=
    (check_toJson .direct t).trans (check_of_check h .direct).symm
  refine ⟨fun c' => check_toJson c' t, ?text, ?numbers, ?single, ?batch, ?body, ?written⟩
  case text =>
    intro d hdepth hshort htext
    exact Json.read_text d (plain_toJson hshort htext)
      (t.height_toJson_le.trans (Nat.succ_le_succ hdepth))
  case numbers =>
    intro place n hn
    obtain ⟨ms, rfl, hread⟩ := check_eq_ok_iff.mp h
    exact ⟨hn.nonneg, hn.lt_of_nanosPlace, hn.find?_toJson, hread.spells hn⟩
  case single =>
    intro s time
    simp only [Command.run, halike]
  case batch =>
    intro before after s time
    simp only [Command.run, checkEach_congr halike]
  case body =>
    intro r r' before after hr hr'
    exact Service.respond_congr_of_carries (check_of_check h .request) (check_toJson .request t) hr hr'
  case written =>
    intro r ts hposts htext
    exact Service.respond_of_written hposts htext

/-- A transaction with its numbers as a text, a truth value and binary numbers, and without what may be
missing. -/
def loose : Json :=
  .obj [("version", .str " +1_0.0"), ("timestamp", .obj [("seconds", .bool true)]),
    ("user", .obj [("events", .arr [.obj
      [("key", .obj [("account_address", .str "0x1"), ("creation_number", .float (.finite false 1 1))]),
        ("sequence_number", .str "-0"), ("type_str", .str "0x1::coin::DepositEvent"),
        ("data", .str "")]])])]

/-- What it is accepted as. -/
def tight : Transaction :=
  ⟨10, some ⟨1, ⟨0, Nat.zero_lt_succ _⟩⟩, .user, some [⟨"0x1", 2, 0, "0x1::coin::DepositEvent", ""⟩]⟩

/-- A request that brings a value alone. -/
def posting (v : Json) : Request :=
  ⟨"POST", "/api/activities/ingest", [], some (Service.batchJson [v]).text⟩

/-- It is written with plain numbers and with everything that was missing, and may be replaced by that,
also in a body. -/
theorem agrees_with_written_of_loose :
    check .direct loose = .ok tight ∧
      tight.toJson = .obj [("version", .whole 10),
        ("timestamp", .obj [("seconds", .whole 1), ("nanos", .whole 0)]), ("type", .str "user"),
        ("user", .obj [("events", .arr [.obj
          [("key", .obj [("account_address", .str "0x1"), ("creation_number", .whole 2)]),
            ("sequence_number", .whole 0), ("type_str", .str "0x1::coin::DepositEvent"),
            ("data", .str "")]])])] ∧
      check .direct tight.toJson = .ok tight ∧
      loose.SpellsAt [.member "version"] 10 ∧ loose.find? nanosPlace = none ∧
      (Command.processTransaction tight.toJson).run .empty 0 =
        (Command.processTransaction loose).run .empty 0 ∧
      (posting loose).Posts .ingest Service.checkBatch [tight] ∧
      Service.respond .empty 0 (posting tight.toJson) = Service.respond .empty 0 (posting loose) := by
  have hcheck : check .direct loose = .ok tight := eq_ok_of_toOption (by decide)
  have hposts : (posting loose).Posts .ingest Service.checkBatch [tight] :=
    ⟨by decide, Request.verb_of_method rfl (by decide),
      Service.withBody_ofList (a := '\x7b') (b := '"') (by decide) (by decide) (by decide +kernel)⟩
  obtain ⟨haccepted, -, hnumbers, hsingle, -, -, hwritten⟩ := agrees_with_written hcheck
  have hspelled : loose.SpellsAt [.member "version"] 10 := by
    rcases (hnumbers _ _ .version).2.2.2 with hspells | ⟨hplace, -⟩
    · exact hspells
    · simp [nanosPlace] at hplace
  have htext : ∀ t ∈ [tight], t.Textual := by
    intro t ht es hes e he
    rw [List.mem_singleton.mp ht] at hes
    cases hes
    rw [List.mem_singleton.mp he]
    exact ⟨rfl, rfl, rfl⟩
  exact ⟨hcheck, rfl, haccepted .direct, hspelled, rfl, hsingle .empty 0, hposts,
    hwritten _ _ hposts htext .empty 0⟩

end Transaction
end TokenLedger
