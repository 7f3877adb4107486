/-
# The activities of a transaction

The token events of a user's transaction give its activities, one for each, in the order of the
events; other events leave no trace. A transaction is refused as a whole if it is not one of a user,
has no time, or holds a token event whose payload does not fit; of several such events the first
decides. An account that is no text is taken as it is shown; activities of such an account can be
computed, but neither be written nor stored.

Key definitions: `Refusal`, `Breakdown`, `Failure`, `Activity.ofEvent`, `Activity.ofEvents`,
`Transaction.activities`, `Transaction.writable`.
-/
import TokenLedger.Activity.Basic
import TokenLedger.Event.Payload
import TokenLedger.Transaction

namespace TokenLedger

/-- Why a transaction gives no activities. -/
inductive Refusal where
  /-- It is no transaction of a user, or carries no events. -/
  | noUserPart (kind : TransactionKind)
  | noTimestamp
  | malformedEvent (m : Malformed)
deriving DecidableEq, Repr

/-- The name of a kind of refusal. -/
def Refusal.label : Refusal → String
  | .noUserPart _ => "MissingUserTransaction"
  | .noTimestamp => "MissingTimestamp"
  | .malformedEvent _ => "MalformedEvent"

/-- What is said about a transaction of a version that is refused. -/
def Refusal.message (version : Nat) : Refusal → String
  | .noUserPart kind =>
    "Transaction " ++ Whole.text version ++ " (" ++ kind.name ++ ") has no user transaction data"
  | .noTimestamp => "Transaction " ++ Whole.text version ++ " has no timestamp"
  | .malformedEvent m => m.message

/-- What else could stand in the way of an activity: its token has no identity, or the version of
the token's properties no canonical text. -/
inductive Breakdown where
  | invalid (issues : List Issue)
  | arithmetic (f : ArithmeticFault)
deriving DecidableEq, Repr

/-- Why there is no list of activities. -/
inductive Failure where
  | refused (r : Refusal)
  | broken (b : Breakdown)
deriving DecidableEq, Repr

namespace Activity

/-- The activity of a token event at a place of a transaction. -/
def ofEvent (version : Nat) (time : DateTime) (index : Nat) (raw : RawEvent) (e : Event) :
    Except Breakdown Activity :=
  match e.identity with
  | .error issues => .error (.invalid issues)
  | .ok identity =>
    match identity.tokenHash with
    | .error f => .error (.arithmetic f)
    | .ok tokenHash =>
      let emitter := Address.canonical raw.account.shown
      .ok {
        key := ⟨version, emitter, raw.creationNumber, raw.sequenceNumber⟩
        tokenHash := tokenHash
        propertyVersion := identity.propertyVersion
        creator := identity.creatorAddress
        collection := identity.collectionLabel
        name := identity.tokenLabel
        tag := raw.tag.shown
        sender := e.sender? emitter
        receiver := e.receiver? emitter
        amount := e.amount
        coinType := none
        coinAmount := none
        collectionHash := identity.collectionHash
        time := time
        index := some index }

/-- The activity of an event at a place of a transaction; nothing if it is no token event. -/
def ofRawEvent (version : Nat) (time : DateTime) (index : Nat) (raw : RawEvent) :
    Except Failure (Option Activity) :=
  match Event.decode raw.tag raw.payload with
  | .error m => .error (.refused (.malformedEvent m))
  | .ok none => .ok none
  | .ok (some e) =>
    match ofEvent version time index raw e with
    | .error b => .error (.broken b)
    | .ok a => .ok (some a)

/-- The activities of the events of a transaction from the place `start` on. -/
def ofEvents (version : Nat) (time : DateTime) (start : Nat) :
    List RawEvent → Except Failure (List Activity)
  | [] => .ok []
  | raw :: rest =>
    match ofRawEvent version time start raw with
    | .error f => .error f
    | .ok a =>
      match ofEvents version time (start + 1) rest with
      | .error f => .error f
      | .ok as => .ok (a.toList ++ as)

end Activity

/-- The activities of a transaction. -/
def Transaction.activities (t : Transaction) : Except Failure (List Activity) :=
  match t.kind, t.events with
  | .user, some events =>
    match t.timestamp with
    | none => .error (.refused .noTimestamp)
    | some time => Activity.ofEvents t.version time.dateTime 0 events
  | kind, _ => .error (.refused (.noUserPart kind))

/-- Whether an event leaves no activity, or one whose account is text. -/
def RawEvent.writable (e : RawEvent) : Bool :=
  (Event.kindOf? e.tag).isNone || e.account.readable

/-- Whether the activities of a transaction can be written. -/
def Transaction.writable (t : Transaction) : Bool :=
  (t.events.getD []).all RawEvent.writable

end TokenLedger
