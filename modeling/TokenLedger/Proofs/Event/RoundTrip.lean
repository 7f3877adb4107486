/-
# Events read back from their payloads

The object of an event's fields, as a text, is a payload of the event: decoded under the tag of its kind
it gives the event back, with the coefficients and exponents of its decimals. The fields may hold any
texts; the decimals have to lie in the range of amounts, and the values of a change of properties have
to be plain and not too high.

Key definitions: `Event.values`, `Event.Regular`.
Key theorems: `Check.amount_ofDecimal`, `Event.regular_of_decimals`, `Event.check_toJson`,
`Event.plain_toJson`, `Event.decode_of_regular`.
-/
import TokenLedger.Proofs.Decimal.Reading
import TokenLedger.Proofs.Event.Decoded
import TokenLedger.Proofs.Json.RoundTrip

namespace TokenLedger

/-! ### Checks of written values -/

namespace Check

variable {α : Type} {check : Check α}

/-- A list passes if its items do. -/
theorem listOf_map {spell : α → Json} {xs : List α} (h : ∀ x ∈ xs, check (spell x) = .ok x) :
    listOf check (.arr (xs.map spell)) = .ok xs := by
  rw [listOf_eq_ok_iff, List.forall₂_map_left_iff, List.forall₂_same]
  exact h

/-- A decimal is accepted in its own spelling, whatever way it came. -/
theorem decimal_text (c : Convention) {d : Decimal} (h : d.readable = true) :
    decimal c (.str d.text) = .ok d := by
  simp only [decimal, Numeral.read?_text h, decimalOfNumeral]

end Check

/-- **A written amount is accepted as it is.** -/
theorem Check.amount_ofDecimal {d : Decimal} (h : d.Payable) : Check.amount (.ofDecimal d) = .ok d :=
  amount_eq_ok_iff.mpr ⟨decimal_text .payload h.readable, h.inRange⟩

/-! ### The fields of an event -/

theorem TokenData.check_toJson (t : TokenData) : TokenData.check t.toJson = .ok t := by
  simp [TokenData.check, TokenData.toJson, Check.record, Check.required, Json.last?, Check.text,
    Checked.ap, Checked.under, Checked.value]

theorem TokenId.check_toJson {t : TokenId} (h : t.propertyVersion.Payable) :
    TokenId.check t.toJson = .ok t := by
  have hversion := Check.amount_ofDecimal h
  simp [TokenId.check, TokenId.toJson, Check.record, Check.required, Json.last?,
    t.data.check_toJson, hversion, Checked.ap, Checked.under, Checked.value]

theorem Transfer.check_toJson {t : Transfer} (hversion : t.token.propertyVersion.Payable)
    (hamount : t.amount.Payable) : Transfer.check t.toJson = .ok t := by
  have htoken := TokenId.check_toJson hversion
  have hamount' := Check.amount_ofDecimal hamount
  simp [Transfer.check, Transfer.toJson, Check.record, Check.required, Json.last?, Check.text,
    htoken, hamount', Checked.ap, Checked.under, Checked.value]

namespace Event

variable {e : Event}

theorem checkMove_toJson {α : Type} {token : Check α} {event : α → Decimal → Event} {v : Json} {t : α}
    {n : Decimal} (ht : token v = .ok t) (hn : n.Payable) :
    checkMove token event (.obj [("id", v), ("amount", .ofDecimal n)]) = .ok (event t n) := by
  have hamount := Check.amount_ofDecimal hn
  simp [checkMove, Check.record, Check.required, Json.last?, ht, hamount, Checked.ap, Checked.under,
    Checked.value]

theorem checkMutate_toJson {before after : TokenId} {keys types : List String} {values : List Json}
    (hbefore : before.propertyVersion.Payable) (hafter : after.propertyVersion.Payable)
    (hvalues : ∀ v ∈ values, v.plain = true) :
    checkMutate (Event.mutate before after keys values types).toJson =
      .ok (.mutate before after keys values types) := by
  have htokens := TokenId.check_toJson hbefore
  have htokens' := TokenId.check_toJson hafter
  have htexts : ∀ ss : List String, Check.listOf Check.text (.arr (ss.map .ofText)) = .ok ss :=
    fun ss => Check.listOf_map fun s _ => rfl
  have hany : Check.listOf Check.any (.arr values) = .ok values := by
    have hlist : Check.listOf Check.any (.arr (values.map id)) = .ok values :=
      Check.listOf_map fun v hv => congrArg Except.ok (Json.merged_of_plain v (hvalues v hv))
    rw [List.map_id] at hlist
    exact hlist
  simp [checkMutate, toJson, Check.record, Check.required, Check.defaulted, Json.last?, htokens,
    htokens', htexts, hany, Checked.ap, Checked.under, Checked.value]

/-- The values that an event holds as they are. -/
def values : Event → List Json
  | .mutate _ _ _ vs _ => vs
  | _ => []

/-- A payload can hold the event: its decimals are amounts, its values are plain, and they are not so
high that the payload would be deeper than what is read. -/
structure Regular (e : Event) : Prop where
  decimals : ∀ d ∈ e.decimals, d.Payable
  values : ∀ v ∈ e.values, v.plain = true
  height : e.toJson.height ≤ payloadDialect.depth + 1

/-- Of an event that changes no properties only the decimals count. -/
theorem regular_of_decimals (hkind : e.kind ≠ .mutate) (h : ∀ d ∈ e.decimals, d.Payable) :
    e.Regular := by
  have hparts : e.values = [] ∧ e.toJson.height ≤ 4 := by
    cases e with
    | mutate => exact absurd rfl hkind
    | mint => exact ⟨rfl, Nat.le_succ 3⟩
    | burn | withdraw | deposit | offer | cancelOffer | claim => exact ⟨rfl, Nat.le_refl 4⟩
  exact
    { decimals := h
      values := hparts.1 ▸ List.forall_mem_nil _
      height := hparts.2.trans (by decide) }

/-- **The object of an event's fields passes the check of its kind**, and gives the event. -/
theorem check_toJson (hdecimals : ∀ d ∈ e.decimals, d.Payable)
    (hvalues : ∀ v ∈ e.values, v.plain = true) : check e.kind e.toJson = .ok e := by
  have hpair : ∀ {d n : Decimal}, (∀ x ∈ [d, n], x.Payable) → d.Payable ∧ n.Payable := fun h =>
    ⟨h _ List.mem_cons_self, h _ (List.mem_cons_of_mem _ List.mem_cons_self)⟩
  cases e with
  | mint t n => exact checkMove_toJson t.check_toJson (hdecimals n List.mem_cons_self)
  | burn t n =>
    obtain ⟨hversion, hamount⟩ := hpair hdecimals
    exact checkMove_toJson (TokenId.check_toJson hversion) hamount
  | mutate before after keys values types =>
    obtain ⟨hbefore, hafter⟩ := hpair hdecimals
    exact checkMutate_toJson hbefore hafter hvalues
  | withdraw t n =>
    obtain ⟨hversion, hamount⟩ := hpair hdecimals
    exact checkMove_toJson (TokenId.check_toJson hversion) hamount
  | deposit t n =>
    obtain ⟨hversion, hamount⟩ := hpair hdecimals
    exact checkMove_toJson (TokenId.check_toJson hversion) hamount
  | offer t =>
    obtain ⟨hversion, hamount⟩ := hpair hdecimals
    exact congrArg (Except.map Event.offer) (Transfer.check_toJson hversion hamount)
  | cancelOffer t =>
    obtain ⟨hversion, hamount⟩ := hpair hdecimals
    exact congrArg (Except.map Event.cancelOffer) (Transfer.check_toJson hversion hamount)
  | claim t =>
    obtain ⟨hversion, hamount⟩ := hpair hdecimals
    exact congrArg (Except.map Event.claim) (Transfer.check_toJson hversion hamount)

end Event

/-! ### The text of a payload -/

theorem Json.plainItems_texts (ss : List String) : plainItems (ss.map .ofText) = true := by
  refine plainItems_iff.mpr fun v hv => ?_
  obtain ⟨s, -, rfl⟩ := List.mem_map.mp hv
  rfl

theorem TokenData.plain_toJson (t : TokenData) : t.toJson.plain = true := by
  simp [toJson, Json.plain, Json.plainMembers, RawText.readable]

theorem TokenId.plain_toJson (t : TokenId) : t.toJson.plain = true := by
  simp [toJson, Json.plain, Json.plainMembers, Json.ofDecimal, RawText.readable, t.data.plain_toJson]

theorem Transfer.plain_toJson (t : Transfer) : t.toJson.plain = true := by
  simp [toJson, Json.plain, Json.plainMembers, Json.ofDecimal, RawText.readable, t.token.plain_toJson]

namespace Event

variable {e : Event}

/-- The object of an event's fields is plain if the values are that the event holds. -/
theorem plain_toJson (hvalues : ∀ v ∈ e.values, v.plain = true) : e.toJson.plain = true := by
  have hmove : ∀ {v : Json} (n : Decimal), v.plain = true →
      (Json.obj [("id", v), ("amount", .ofDecimal n)]).plain = true := by
    intro v n hv
    simp [Json.plain, Json.plainMembers, Json.ofDecimal, RawText.readable, hv]
  cases e with
  | mint t n => exact hmove n t.plain_toJson
  | burn t n => exact hmove n t.plain_toJson
  | mutate before after keys values types =>
    have hitems := Json.plainItems_iff.mpr hvalues
    simp only [Event.values] at hitems
    simp [toJson, Json.plain, Json.plainMembers, RawText.readable, before.plain_toJson,
      after.plain_toJson, Json.plainItems_texts, hitems]
  | withdraw t n => exact hmove n t.plain_toJson
  | deposit t n => exact hmove n t.plain_toJson
  | offer t => exact t.plain_toJson
  | cancelOffer t => exact t.plain_toJson
  | claim t => exact t.plain_toJson

/-- What is read of the text of an event's fields is their object, be the decimals amounts or not. -/
theorem reads_toJson (hvalues : ∀ v ∈ e.values, v.plain = true)
    (hheight : e.toJson.height ≤ payloadDialect.depth + 1) :
    Reads (.text e.kind.tag) (.text e.toJson.text) e.kind e.toJson :=
  ⟨rfl, _, rfl, Json.read_text payloadDialect (plain_toJson hvalues) hheight⟩

theorem ofPayload_toJson (h : e.Regular) : ofPayload e.kind (.text e.toJson.text) = .ok e := by
  rw [(reads_toJson h.values h.height).ofPayload_eq]
  exact check_toJson h.decimals h.values

/-- A payload that the check of a kind accepts is decoded under the tag of that kind. -/
theorem decode_tag {kind : EventKind} {payload : RawText} (h : ofPayload kind payload = .ok e) :
    decode (.text kind.tag) payload = .ok (some e) := by
  have hkind : kindOf? (.text kind.tag) = some kind := kindOf?_eq_some_iff.mpr rfl
  unfold decode
  simp only [hkind, h]

/-- **Decoding undoes encoding.** An event of any kind is decoded from the text of its fields, under
the tag of its kind, as the event that it is. -/
theorem decode_of_regular (h : e.Regular) :
    decode (.text e.kind.tag) (.text e.toJson.text) = .ok (some e) :=
  decode_tag (ofPayload_toJson h)

/-- A change of properties with a version in the thousands, a version that is minus zero with two places,
and nested values with characters beyond ASCII. -/
def altered : Event :=
  .mutate ⟨⟨"0x1", "a", "b"⟩, ⟨false, 12, 3⟩⟩ ⟨⟨" 0X01\n", "\x07\"\\", "😀"⟩, ⟨true, 0, -2⟩⟩
    ["\u00e9", ""] [.obj [("😀", .arr [.null, .whole (-50), .str "\ud7ff\t"]), ("", .obj [])]]
    ["0x1::string::String"]

theorem decode_of_altered :
    altered.Regular ∧ decode (.text altered.kind.tag) (.text altered.toJson.text) = .ok (some altered) := by
  have hthousands : (⟨false, 12, 3⟩ : Decimal).Payable := ⟨by norm_num [Decimal.value], by decide⟩
  have hzero : (⟨true, 0, -2⟩ : Decimal).Payable := Decimal.payable_of_zero rfl (by decide)
  have hregular : altered.Regular :=
    { decimals := List.forall_mem_cons.mpr ⟨hthousands, List.forall_mem_singleton.mpr hzero⟩
      values := List.forall_mem_singleton.mpr (by decide)
      height := by decide }
  exact ⟨hregular, decode_of_regular hregular⟩

end Event
end TokenLedger
