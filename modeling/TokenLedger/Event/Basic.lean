/-
# Token events

A token event says what happened to a token: it was minted, burnt, given new properties, moved out
of or into an account, or offered to a recipient, with the offer withdrawn or claimed. Amounts and
property versions are decimals from zero to the greatest unsigned number of sixty-four bits; the
spelling of a decimal is kept.

Key definitions: `Event`, `Event.kind`, `Event.token?`, `Event.amount`, `Event.recipient?`.
-/
import TokenLedger.Event.Kind
import TokenLedger.Identity

namespace TokenLedger

/-- A token without the version of its properties. -/
structure TokenData where
  creator : String
  collection : String
  name : String
deriving DecidableEq, Repr

/-- A token with the version of its properties. -/
structure TokenId where
  data : TokenData
  propertyVersion : Decimal
deriving DecidableEq, Repr

/-- What an offer of a token, its withdrawal and its acceptance have in common. -/
structure Transfer where
  /-- The recipient, in the spelling of the payload. -/
  recipient : String
  token : TokenId
  amount : Decimal
deriving DecidableEq, Repr

/-- A token event. -/
inductive Event where
  | mint (token : TokenData) (amount : Decimal)
  | burn (token : TokenId) (amount : Decimal)
  | mutate (before after : TokenId) (keys : List String) (values : List Json) (types : List String)
  | withdraw (token : TokenId) (amount : Decimal)
  | deposit (token : TokenId) (amount : Decimal)
  | offer (t : Transfer)
  | cancelOffer (t : Transfer)
  | claim (t : Transfer)

/-- The greatest amount and property version. -/
def maxAmount : Nat := Nat.pow 2 64 - 1

/-- The identity of a token with a given version of its properties. -/
def TokenData.identity (t : TokenData) (propertyVersion : Decimal) : Checked Identity :=
  Identity.of? t.creator t.collection t.name propertyVersion

/-- The identity of a token. -/
def TokenId.identity (t : TokenId) : Checked Identity :=
  t.data.identity t.propertyVersion

namespace Event

/-- The kind of an event. -/
def kind : Event → EventKind
  | .mint .. => .mint
  | .burn .. => .burn
  | .mutate .. => .mutate
  | .withdraw .. => .withdraw
  | .deposit .. => .deposit
  | .offer _ => .offer
  | .cancelOffer _ => .cancelOffer
  | .claim _ => .claim

/-- The identity of the token that an event is about. A new token has version zero of its
properties, and a change of properties is about the token that results. -/
def identity : Event → Checked Identity
  | .mint t _ => t.identity .zero
  | .burn t _ => t.identity
  | .mutate _ t _ _ _ => t.identity
  | .withdraw t _ => t.identity
  | .deposit t _ => t.identity
  | .offer t => t.token.identity
  | .cancelOffer t => t.token.identity
  | .claim t => t.token.identity

/-- How much of the token an event moves; a change of properties moves none. -/
def amount : Event → Decimal
  | .mint _ n => n
  | .burn _ n => n
  | .mutate .. => .zero
  | .withdraw _ n => n
  | .deposit _ n => n
  | .offer t => t.amount
  | .cancelOffer t => t.amount
  | .claim t => t.amount

/-- The canonical address of the recipient whom a transfer names. -/
def recipient? : Event → Option String
  | .offer t => some (Address.canonical t.recipient)
  | .cancelOffer t => some (Address.canonical t.recipient)
  | .claim t => some (Address.canonical t.recipient)
  | _ => none

/-- The account that the token leaves, of an event emitted by an account: that account, unless the
token arrives there. -/
def sender? (emitter : String) : Event → Option String
  | .deposit .. => none
  | _ => some emitter

/-- The account that the token reaches, of an event emitted by an account. -/
def receiver? (emitter : String) : Event → Option String
  | .deposit .. => some emitter
  | e => e.recipient?

end Event
end TokenLedger
