/-
# Taking in transactions

A transaction that gives activities clears the records of failures of its version; one that is
refused leaves such a record. The activities of a single transaction are stored at once, those of a
batch after its last transaction. A fault ends the whole.

Key definitions: `Transaction.diagnostics`, `Store.Fault`, `Store.settle`, `Store.process`,
`Store.gather`, `Store.processBatch`, `Tally`.
-/
import TokenLedger.Activity.OfTransaction
import TokenLedger.Json.Printer
import TokenLedger.Store.Basic

namespace TokenLedger

/-- What is kept about a refused transaction: the tags of its events only if it carries any. -/
def Transaction.diagnostics (t : Transaction) : Json :=
  let tags : Json.Members :=
    match t.events with
    | some es => [("event_types", .arr (es.map fun e => .str e.tag))]
    | none => []
  .obj (("version", .whole t.version) :: ("type", .str t.kind.name) ::
    ("has_timestamp", .bool t.timestamp.isSome) :: tags)

/-- The record of a refusal at a time. -/
def Refusal.record (r : Refusal) (t : Transaction) (time : Nat) : ErrorRecord where
  version := some t.version
  label := r.label
  message := some (r.message t.version)
  traced := true
  resolved := false
  diagnostics := some t.diagnostics.text
  time := time

/-- How a batch went. -/
structure Tally where
  total : Nat
  processed : Nat
  errors : Nat
  activities : Nat
  inserted : Nat
deriving DecidableEq, Repr

namespace Store

/-- Why a store cannot take in a transaction. -/
inductive Fault where
  /-- The transaction gives no activities, and is not refused either. -/
  | broken (b : Breakdown)
  /-- The account of an activity is no text. -/
  | unwritable
  /-- A number does not fit the store. -/
  | outOfRange
deriving DecidableEq, Repr

/-- The store after a transaction was tried at a time, and its activities unless it was refused.
They are not stored yet. -/
def settle (s : Store) (time : Nat) (t : Transaction) :
    Except Fault (Store × Option (List Activity)) :=
  if Whole.fits t.version then
    match t.activities with
    | .ok as => if t.writable then .ok ((s.clear t.version).1, some as) else .error .unwritable
    | .error (.refused r) => .ok (s.record (r.record t time), none)
    | .error (.broken b) => .error (.broken b)
  else .error .outOfRange

/-- The store after a transaction was taken in at a time, and its activities unless it was
refused. -/
def process (s : Store) (time : Nat) (t : Transaction) :
    Except Fault (Store × Option (List Activity)) :=
  match s.settle time t with
  | .ok (s, some as) =>
    if s.admits as then .ok ((s.insert as).1, some as) else .error .outOfRange
  | .ok (s, none) => .ok (s, none)
  | .error f => .error f

/-- The store after transactions were tried one after the other, and the activities of each that was
not refused. -/
def gather (s : Store) (time : Nat) : List Transaction →
    Except Fault (Store × List (Option (List Activity)))
  | [] => .ok (s, [])
  | t :: ts =>
    match s.settle time t with
    | .error f => .error f
    | .ok (s, r) =>
      match s.gather time ts with
      | .error f => .error f
      | .ok (s, rs) => .ok (s, r :: rs)

/-- The store after a batch was taken in at a time, and how it went. -/
def processBatch (s : Store) (time : Nat) (ts : List Transaction) :
    Except Fault (Store × Tally) :=
  match s.gather time ts with
  | .error f => .error f
  | .ok (s, rs) =>
    let kept := rs.filterMap id
    if s.admits kept.flatten then
      let (s, inserted) := s.insert kept.flatten
      .ok (s, {
        total := ts.length
        processed := kept.length
        errors := rs.length - kept.length
        activities := kept.flatten.length
        inserted := inserted })
    else .error .outOfRange

end Store

def Tally.toJson (t : Tally) : Json :=
  .obj [("total", .whole t.total), ("processed", .whole t.processed), ("errors", .whole t.errors),
    ("activities", .whole t.activities), ("inserted", .whole t.inserted)]

end TokenLedger
