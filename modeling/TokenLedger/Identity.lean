/-
# Token identities

A token is identified by the account that created it, the names of its collection and of itself, and
the version of its properties; a collection by the first two. Either identity has one text, from the
canonical address of the creator and the full names, and is known by the hash of that text. Rows
keep the names cut to `nameWidth` bytes.

Key definitions: `Identity`, `Identity.of?`, `Identity.check`, `Identity.tokenText`,
`Identity.tokenHash`, `Identity.collectionHash`.
-/
import TokenLedger.Address
import TokenLedger.Digest.Sha256
import TokenLedger.Schema.Check
import TokenLedger.Text.Width

namespace TokenLedger

/-- What makes a token the token it is. -/
structure Identity where
  creator : String
  collection : String
  token : String
  propertyVersion : Decimal
deriving DecidableEq, Repr

namespace Identity

/-- The identity of given parts; the property version may not be below zero. -/
def of? (creator collection token : String) (propertyVersion : Decimal) : Checked Identity :=
  if propertyVersion.belowZero then (Checked.fail .belowBound).under (.field "property_version")
  else .value ⟨creator, collection, token, propertyVersion⟩

/-- The check of an identity; the property version may be absent and is zero then. -/
def check : Check Identity :=
  Check.record .direct fun ms =>
    ((((Checked.value Identity.mk).ap (Check.required ms "creator_address" Check.text)).ap
      (Check.required ms "collection_name" Check.text)).ap
      (Check.required ms "token_name" Check.text)).ap
      (Check.defaulted ms "property_version" .zero (Check.decimalUpTo none .direct))

/-- The canonical address of the creator. -/
def creatorAddress (i : Identity) : String :=
  Address.canonical i.creator

/-- The text of the collection. -/
def collectionText (i : Identity) : String :=
  i.creatorAddress ++ "::" ++ i.collection

/-- The text of the token; it exists if the property version has a canonical text. -/
def tokenText (i : Identity) : Except ArithmeticFault String :=
  i.propertyVersion.canonicalText.map fun version =>
    i.collectionText ++ "::" ++ i.token ++ "::" ++ version

/-- The hash of the collection's text. -/
def collectionHash (i : Identity) : String :=
  Sha256.ofText i.collectionText

/-- The hash of the token's text. -/
def tokenHash (i : Identity) : Except ArithmeticFault String :=
  i.tokenText.map Sha256.ofText

/-- The most bytes of a name that a row keeps. -/
def nameWidth : Nat := 128

/-- The name of the collection as a row keeps it. -/
def collectionLabel (i : Identity) : String :=
  Text.truncate i.collection nameWidth

/-- The name of the token as a row keeps it. -/
def tokenLabel (i : Identity) : String :=
  Text.truncate i.token nameWidth

end Identity
end TokenLedger
