/-
# Payloads of token events

The payload of an event is the JSON text of an object with the fields of the event's kind. `decode`
reads it: an event of an unknown tag is nothing, whatever its payload, and a payload that does not
fit its tag is reported with all its issues. Tag and payload may be any strings; one that is no text
is no known tag, and no payload. `Event.toJson` is the object that stands for an event.

Key definitions: `Event.check`, `Event.ofPayload`, `Event.decode`, `Malformed`, `Event.toJson`.
-/
import TokenLedger.Event.Basic
import TokenLedger.Json.Reader

namespace TokenLedger

/-! ### Checks -/

/-- An amount or a property version. -/
def Check.amount : Check Decimal :=
  Check.decimalUpTo (some maxAmount) .payload

def TokenData.check : Check TokenData :=
  Check.record .payload fun ms =>
    (((Checked.value TokenData.mk).ap (Check.required ms "creator" Check.text)).ap
      (Check.required ms "collection" Check.text)).ap
      (Check.required ms "name" Check.text)

def TokenId.check : Check TokenId :=
  Check.record .payload fun ms =>
    ((Checked.value TokenId.mk).ap (Check.required ms "token_data_id" TokenData.check)).ap
      (Check.required ms "property_version" Check.amount)

def Transfer.check : Check Transfer :=
  Check.record .payload fun ms =>
    (((Checked.value Transfer.mk).ap (Check.required ms "to_address" Check.text)).ap
      (Check.required ms "token_id" TokenId.check)).ap
      (Check.required ms "amount" Check.amount)

namespace Event

/-- The check of an event that is about a token and an amount of it. -/
def checkMove {α : Type} (token : Check α) (event : α → Decimal → Event) : Check Event :=
  Check.record .payload fun ms =>
    ((Checked.value event).ap (Check.required ms "id" token)).ap
      (Check.required ms "amount" Check.amount)

/-- The check of a change of properties. The three lists may be absent. -/
def checkMutate : Check Event :=
  Check.record .payload fun ms =>
    (((((Checked.value Event.mutate).ap (Check.required ms "old_id" TokenId.check)).ap
      (Check.required ms "new_id" TokenId.check)).ap
      (Check.defaulted ms "keys" [] (Check.listOf Check.text))).ap
      (Check.defaulted ms "values" [] (Check.listOf Check.any))).ap
      (Check.defaulted ms "types" [] (Check.listOf Check.text))

/-- The check of an event of a kind. -/
def check : EventKind → Check Event
  | .mint => checkMove TokenData.check .mint
  | .burn => checkMove TokenId.check .burn
  | .mutate => checkMutate
  | .withdraw => checkMove TokenId.check .withdraw
  | .deposit => checkMove TokenId.check .deposit
  | .offer => fun v => (Transfer.check v).map .offer
  | .cancelOffer => fun v => (Transfer.check v).map .cancelOffer
  | .claim => fun v => (Transfer.check v).map .claim

/-! ### Decoding -/

/-- The JSON text of payloads: strings are text, and nesting is at most two hundred levels deep. -/
def payloadDialect : Json.Dialect :=
  ⟨200, false, false, .everyNumber⟩

/-- The event of a kind that a payload describes. -/
def ofPayload (kind : EventKind) : RawText → Checked Event
  | .text payload =>
    match Json.read payloadDialect payload with
    | .ok v => check kind v
    | .error _ => .fail .notJson
  | .unreadable _ => .fail .unreadableString

end Event

/-- A payload that does not fit the kind of its event. -/
structure Malformed where
  kind : EventKind
  issues : List Issue
deriving DecidableEq, Repr

/-- What is said about a payload that does not fit. -/
def Malformed.message (m : Malformed) : String :=
  m.kind.tag ++ ": payload does not match " ++ m.kind.recordName ++ " ("
    ++ Whole.text m.issues.length ++ " error(s))"

namespace Event

/-- The kind of events of a tag. -/
def kindOf? : RawText → Option EventKind
  | .text tag => EventKind.ofTag? tag
  | .unreadable _ => none

/-- The event of a tag and a payload; nothing if the tag is unknown. -/
def decode (tag payload : RawText) : Except Malformed (Option Event) :=
  match kindOf? tag with
  | none => .ok none
  | some kind =>
    match ofPayload kind payload with
    | .ok e => .ok (some e)
    | .error issues => .error ⟨kind, issues⟩

end Event

/-! ### Written form -/

/-- A decimal in its own spelling. -/
def Json.ofDecimal (d : Decimal) : Json :=
  .str d.text

def TokenData.toJson (t : TokenData) : Json :=
  .obj [("creator", .str t.creator), ("collection", .str t.collection), ("name", .str t.name)]

def TokenId.toJson (t : TokenId) : Json :=
  .obj [("token_data_id", t.data.toJson), ("property_version", .ofDecimal t.propertyVersion)]

def Transfer.toJson (t : Transfer) : Json :=
  .obj [("to_address", .str t.recipient), ("token_id", t.token.toJson),
    ("amount", .ofDecimal t.amount)]

/-- The object of an event's fields. -/
def Event.toJson : Event → Json
  | .mint t n => .obj [("id", t.toJson), ("amount", .ofDecimal n)]
  | .burn t n => .obj [("id", t.toJson), ("amount", .ofDecimal n)]
  | .mutate before after keys values types =>
    .obj [("old_id", before.toJson), ("new_id", after.toJson), ("keys", .arr (keys.map .ofText)),
      ("values", .arr values), ("types", .arr (types.map .ofText))]
  | .withdraw t n => .obj [("id", t.toJson), ("amount", .ofDecimal n)]
  | .deposit t n => .obj [("id", t.toJson), ("amount", .ofDecimal n)]
  | .offer t => t.toJson
  | .cancelOffer t => t.toJson
  | .claim t => t.toJson

end TokenLedger
