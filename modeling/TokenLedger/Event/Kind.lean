/-
# Kinds of token events

The eight kinds of events that concern tokens, each known by the tag under which the chain emits it.
An event of any other tag is none of the ledger's business.

Key definitions: `EventKind`, `EventKind.tag`, `EventKind.ofTag?`.
Key theorem: `EventKind.ofTag?_eq_some_iff`.
-/

namespace TokenLedger

/-- A kind of token event. -/
inductive EventKind where
  | mint
  | burn
  | mutate
  | withdraw
  | deposit
  | offer
  | cancelOffer
  | claim
deriving DecidableEq, Repr

namespace EventKind

/-- All kinds. -/
def all : List EventKind :=
  [.mint, .burn, .mutate, .withdraw, .deposit, .offer, .cancelOffer, .claim]

/-- The tag under which the chain emits events of a kind. -/
def tag : EventKind → String
  | .mint => "0x3::token::MintTokenEvent"
  | .burn => "0x3::token::BurnTokenEvent"
  | .mutate => "0x3::token::MutateTokenPropertyMapEvent"
  | .withdraw => "0x3::token::WithdrawEvent"
  | .deposit => "0x3::token::DepositEvent"
  | .offer => "0x3::token_transfers::TokenOfferEvent"
  | .cancelOffer => "0x3::token_transfers::TokenCancelOfferEvent"
  | .claim => "0x3::token_transfers::TokenClaimEvent"

/-- The name of the record that the payload of a kind holds. -/
def recordName : EventKind → String
  | .mint => "MintTokenEvent"
  | .burn => "BurnTokenEvent"
  | .mutate => "MutateTokenPropertyMapEvent"
  | .withdraw => "WithdrawTokenEvent"
  | .deposit => "DepositTokenEvent"
  | .offer => "OfferTokenEvent"
  | .cancelOffer => "CancelTokenOfferEvent"
  | .claim => "ClaimTokenEvent"

/-- The kind of a tag. -/
def ofTag? (tag : String) : Option EventKind :=
  all.find? (·.tag == tag)

/-- A kind is found under its own tag only. -/
theorem ofTag?_eq_some_iff {t : String} {k : EventKind} : ofTag? t = some k ↔ t = k.tag := by
  constructor
  · intro h
    have found : all.find? (·.tag == t) = some k := h
    have same := List.find?_some found
    exact (eq_of_beq same).symm
  · rintro rfl
    cases k <;> rfl

end EventKind
end TokenLedger
