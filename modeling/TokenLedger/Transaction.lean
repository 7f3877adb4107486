/-
# Transactions

A transaction as the chain delivers it: a version, a kind, a time if it has one, and the events that
it emitted if it is a transaction of a user. The payloads of the events are still unread, and their
strings need not even be text.

Key definitions: `Transaction`, `Transaction.check`, `Transaction.toJson`, `Timestamp.dateTime`.
-/
import TokenLedger.Schema.Check
import TokenLedger.Time.DateTime

namespace TokenLedger

/-! ### Times -/

/-- Seconds from the start of 1970, and nanoseconds. -/
structure Timestamp where
  seconds : Nat
  nanos : Fin 1000000000
deriving DecidableEq, Repr

/-- The last second of the year 9999. -/
def Timestamp.lastSecond : Nat := 253402300799

/-- The point in time of a timestamp, to the microsecond. Seconds beyond the last one count as the
last one. -/
def Timestamp.dateTime (t : Timestamp) : DateTime :=
  DateTime.ofSeconds (min t.seconds lastSecond : Nat) (t.nanos / 1000)

/-! ### Kinds -/

/-- A kind of transaction. -/
inductive TransactionKind where
  | user
  | genesis
  | blockMetadata
  | stateCheckpoint
  | validator
deriving DecidableEq, Repr

namespace TransactionKind

/-- All kinds. -/
def all : List TransactionKind :=
  [.user, .genesis, .blockMetadata, .stateCheckpoint, .validator]

/-- The name of a kind. -/
def name : TransactionKind → String
  | .user => "user"
  | .genesis => "genesis"
  | .blockMetadata => "block_metadata"
  | .stateCheckpoint => "state_checkpoint"
  | .validator => "validator"

/-- The kind of a name. -/
def ofName? (name : String) : Option TransactionKind :=
  all.find? (·.name == name)

/-- A kind is found under its own name only. -/
theorem ofName?_eq_some_iff {s : String} {k : TransactionKind} :
    ofName? s = some k ↔ s = k.name := by
  constructor
  · intro h
    have found : all.find? (·.name == s) = some k := h
    have same := List.find?_some found
    exact (eq_of_beq same).symm
  · rintro rfl
    cases k <;> rfl

end TransactionKind

/-! ### Transactions -/

/-- An event as a transaction holds it. -/
structure RawEvent where
  /-- The account that emitted the event, in the spelling of the transaction. -/
  account : RawText
  creationNumber : Nat
  sequenceNumber : Nat
  tag : RawText
  payload : RawText
deriving DecidableEq, Repr

/-- A transaction. -/
structure Transaction where
  version : Nat
  timestamp : Option Timestamp
  kind : TransactionKind
  /-- The events, of a transaction that carries any. -/
  events : Option (List RawEvent)
deriving DecidableEq, Repr

/-! ### Checks -/

def Timestamp.check (c : Convention) : Check Timestamp :=
  Check.record c fun ms =>
    ((Checked.value Timestamp.mk).ap (Check.required ms "seconds" Check.natural)).ap
      (Check.defaulted ms "nanos" 0 (Check.below 1000000000))

/-- The account and the creation number that identify a stream of events. -/
def RawEvent.checkKey (c : Convention) : Check (RawText × Nat) :=
  Check.record c fun ms =>
    ((Checked.value Prod.mk).ap (Check.required ms "account_address" Check.rawText)).ap
      (Check.required ms "creation_number" Check.natural)

def RawEvent.check (c : Convention) : Check RawEvent :=
  Check.record c fun ms =>
    ((((Checked.value fun (key : RawText × Nat) => RawEvent.mk key.1 key.2).ap
      (Check.required ms "key" (RawEvent.checkKey c))).ap
      (Check.required ms "sequence_number" Check.natural)).ap
      (Check.required ms "type_str" Check.rawText)).ap
      (Check.required ms "data" Check.rawText)

/-- The events of a user's part; they may be absent. -/
def Transaction.checkEvents (c : Convention) : Check (List RawEvent) :=
  Check.record c fun ms => Check.defaulted ms "events" [] (Check.listOf (RawEvent.check c))

/-- The check of a transaction. Only the version has to be there; the kind is that of a user if
none is given. -/
def Transaction.check (c : Convention) : Check Transaction :=
  Check.record c fun ms =>
    ((((Checked.value Transaction.mk).ap (Check.required ms "version" Check.natural)).ap
      (Check.defaulted ms "timestamp" none (Check.orNull (Timestamp.check c)))).ap
      (Check.defaulted ms "type" .user (Check.choice TransactionKind.ofName?))).ap
      (Check.defaulted ms "user" none (Check.orNull (Transaction.checkEvents c)))

/-! ### Written form -/

def Timestamp.toJson (t : Timestamp) : Json :=
  .obj [("seconds", .whole t.seconds), ("nanos", .whole (t.nanos : Nat))]

def RawEvent.toJson (e : RawEvent) : Json :=
  .obj [("key", .obj [("account_address", .str e.account),
      ("creation_number", .whole e.creationNumber)]),
    ("sequence_number", .whole e.sequenceNumber), ("type_str", .str e.tag),
    ("data", .str e.payload)]

/-- The object of a transaction, with all that may be left out. -/
def Transaction.toJson (t : Transaction) : Json :=
  .obj [("version", .whole t.version), ("timestamp", .ofOption Timestamp.toJson t.timestamp),
    ("type", .str t.kind.name),
    ("user", .ofOption (fun es => .obj [("events", .arr (es.map RawEvent.toJson))]) t.events)]

end TokenLedger
