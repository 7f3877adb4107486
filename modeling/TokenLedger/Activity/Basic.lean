/-
# Activities

An activity is the ledger's record of one token event: which token, out of or into which account,
how much, and when. Its key is the version of the transaction and the place of the event in the
stream of the account that emitted it; no two activities of the ledger have the same key.

Key definitions: `ActivityKey`, `Activity`, `Activity.check`, `Activity.toJson`,
`Activity.toStoredJson`.
-/
import TokenLedger.Schema.Check
import TokenLedger.Time.Reading

namespace TokenLedger

/-- What tells an activity from all others. -/
structure ActivityKey where
  version : Int
  account : String
  creationNumber : Int
  sequenceNumber : Int
deriving DecidableEq, Repr

/-- The record of a token event. -/
structure Activity where
  key : ActivityKey
  tokenHash : String
  propertyVersion : Decimal
  creator : String
  collection : String
  name : String
  /-- The tag of the event. -/
  tag : String
  /-- The account that the token left. -/
  sender : Option String
  /-- The account that the token reached. -/
  receiver : Option String
  amount : Decimal
  coinType : Option String
  coinAmount : Option Decimal
  collectionHash : String
  time : DateTime
  /-- The place of the event in its transaction. -/
  index : Option Int
deriving DecidableEq, Repr

namespace Activity

/-- Whether all numbers of an activity fit the store. -/
def fits (a : Activity) : Bool :=
  Whole.fits a.key.version && Whole.fits a.key.creationNumber && Whole.fits a.key.sequenceNumber
    && a.index.all Whole.fits

/-! ### Check -/

/-- The members of an activity that make up its key. -/
def checkKey (ms : Json.Members) : Checked ActivityKey :=
  ((((Checked.value ActivityKey.mk).ap (Check.required ms "transaction_version" Check.int)).ap
    (Check.required ms "event_account_address" Check.text)).ap
    (Check.required ms "event_creation_number" Check.int)).ap
    (Check.required ms "event_sequence_number" Check.int)

/-- The check of an activity. What may be null may also be absent. -/
def check : Check Activity :=
  Check.record .direct fun ms =>
    (((((((((((((((Checked.value Activity.mk).ap (checkKey ms)).ap
      (Check.required ms "token_data_id_hash" Check.text)).ap
      (Check.required ms "property_version" (Check.decimal .direct))).ap
      (Check.required ms "creator_address" Check.text)).ap
      (Check.required ms "collection_name" Check.text)).ap
      (Check.required ms "name" Check.text)).ap
      (Check.required ms "transfer_type" Check.text)).ap
      (Check.defaulted ms "from_address" none (Check.orNull Check.text))).ap
      (Check.defaulted ms "to_address" none (Check.orNull Check.text))).ap
      (Check.required ms "token_amount" (Check.decimal .direct))).ap
      (Check.defaulted ms "coin_type" none (Check.orNull Check.text))).ap
      (Check.defaulted ms "coin_amount" none (Check.orNull (Check.decimal .direct)))).ap
      (Check.required ms "collection_data_id_hash" Check.text)).ap
      (Check.required ms "transaction_timestamp" Check.dateTime)).ap
      (Check.defaulted ms "event_index" none (Check.orNull Check.int))

/-! ### Written forms -/

/-- The object of an activity, its decimals spelled by `spell`. -/
def toJsonWith (spell : Decimal → String) (a : Activity) : Json :=
  .obj
    [("transaction_version", .whole a.key.version),
     ("event_account_address", .str a.key.account),
     ("event_creation_number", .whole a.key.creationNumber),
     ("event_sequence_number", .whole a.key.sequenceNumber),
     ("token_data_id_hash", .str a.tokenHash),
     ("property_version", .str (spell a.propertyVersion)),
     ("creator_address", .str a.creator),
     ("collection_name", .str a.collection),
     ("name", .str a.name),
     ("transfer_type", .str a.tag),
     ("from_address", .ofOption .ofText a.sender),
     ("to_address", .ofOption .ofText a.receiver),
     ("token_amount", .str (spell a.amount)),
     ("coin_type", .ofOption .ofText a.coinType),
     ("coin_amount", .ofOption (fun d => .str (spell d)) a.coinAmount),
     ("collection_data_id_hash", .str a.collectionHash),
     ("transaction_timestamp", .str a.time.text),
     ("event_index", .ofOption .whole a.index)]

/-- The object of an activity as it was computed: its decimals keep their spelling. -/
def toJson : Activity → Json :=
  toJsonWith Decimal.text

end Activity

/-- A decimal as it reads once it was stored: its canonical text, and zero has no sign. A value that
is too great for one is written out. -/
def Decimal.storedText (d : Decimal) : String :=
  match canonicalText (if d.coefficient = 0 then .zero else d) with
  | .ok s => s
  | .error _ => d.plain

/-- The object of an activity as it reads once it was stored. -/
def Activity.toStoredJson : Activity → Json :=
  toJsonWith Decimal.storedText

end TokenLedger
