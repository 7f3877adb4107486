/-
# Listings

What can be asked of a store. Activities are listed with the latest version first, those of one
version by their index (none before the first) and then by their key; records of failures with the
newest first, those of one time with the greatest version first (none after the last) and then in
the order of their arrival. A listing is a page of what passes a filter, with the number of all that
does.

Key definitions: `Activity.order`, `ErrorRecord.order`, `Page`, `Listing`, `ActivityFilter`,
`ErrorFilter`, `Store.listActivities`, `Store.activitiesOf`, `Store.keysOf`, `Store.find?`,
`Store.listErrors`.
-/
import TokenLedger.Store.Basic

namespace TokenLedger

/-! ### Orders -/

/-- Keys by version, account, creation number and sequence number. -/
def ActivityKey.order : ActivityKey → ActivityKey → Ordering :=
  compareLex (compareOn version)
    (compareLex (compareOn account)
      (compareLex (compareOn creationNumber) (compareOn sequenceNumber)))

/-- Activities as they are listed. -/
def Activity.order : Activity → Activity → Ordering :=
  compareLex (fun a b => compare b.key.version a.key.version)
    (compareLex (compareOn index) (fun a b => a.key.order b.key))

/-- Records of failures as they are listed. -/
def ErrorRecord.order : ErrorRecord → ErrorRecord → Ordering :=
  compareLex (fun a b => compare b.time a.time) (fun a b => compare b.version a.version)

/-- The items in an order; those that it does not tell apart stay as they are. -/
def sortedBy {α : Type} (order : α → α → Ordering) (xs : List α) : List α :=
  xs.mergeSort fun a b => (order a b).isLE

/-! ### Pages -/

/-- A part of a list. -/
structure Page where
  /-- How many items at most; all, if there is none or it is negative. -/
  limit : Option Int
  /-- How many items before the first; none, if there is none or it is negative. -/
  offset : Option Int
deriving DecidableEq, Repr

/-- How many items are listed if nothing else is asked for. -/
def Page.usualLimit : Int := 50

/-- The items of a page. -/
def Page.of {α : Type} (p : Page) (xs : List α) : List α :=
  let rest := xs.drop (p.offset.getD 0).toNat
  match p.limit with
  | some n => if n < 0 then rest else rest.take n.toNat
  | none => rest

/-- The items of a page and the number of all. -/
structure Listing (α : Type) where
  rows : List α
  total : Nat

/-- The page of a list. -/
def Listing.ofPage {α : Type} (p : Page) (xs : List α) : Listing α :=
  ⟨p.of xs, xs.length⟩

/-! ### Filters -/

/-- Whether a value passes a wish; an absent or empty wish is none. -/
def wished (wish : Option String) (test : String → Bool) : Bool :=
  match wish with
  | none => true
  | some w => w.isEmpty || test w

/-- What activities to list. -/
structure ActivityFilter where
  tokenHash : Option String
  collectionHash : Option String
  /-- An address that the token left or reached. -/
  address : Option String
deriving DecidableEq, Repr

/-- Whether an activity passes a filter. -/
def ActivityFilter.passes (f : ActivityFilter) (a : Activity) : Bool :=
  wished f.tokenHash (a.tokenHash == ·) && wished f.collectionHash (a.collectionHash == ·)
    && wished f.address fun w => a.sender == some w || a.receiver == some w

/-- What records of failures to list. -/
structure ErrorFilter where
  label : Option String
  resolved : Option Bool
deriving DecidableEq, Repr

/-- Whether a record passes a filter. -/
def ErrorFilter.passes (f : ErrorFilter) (e : ErrorRecord) : Bool :=
  wished f.label (e.label == ·) && f.resolved.all (e.resolved == ·)

namespace Store

/-! ### Queries -/

/-- A page of the activities that pass a filter. -/
def listActivities (s : Store) (f : ActivityFilter) (p : Page) : Listing Activity :=
  .ofPage p (sortedBy Activity.order (s.activities.filter f.passes))

/-- The activities of a version. -/
def activitiesOf (s : Store) (version : Int) : List Activity :=
  sortedBy Activity.order (s.activities.filter (·.key.version == version))

/-- The keys of the activities of some versions. -/
def keysOf (s : Store) (versions : List Int) : List ActivityKey :=
  sortedBy ActivityKey.order (s.keys.filter (versions.contains ·.version))

/-- The activity of a key. -/
def find? (s : Store) (key : ActivityKey) : Option Activity :=
  s.activities.find? (·.key == key)

/-- A page of the records of failures that pass a filter. -/
def listErrors (s : Store) (f : ErrorFilter) (p : Page) : Listing ErrorRecord :=
  .ofPage p (sortedBy ErrorRecord.order (s.errors.filter f.passes))

end Store
end TokenLedger
