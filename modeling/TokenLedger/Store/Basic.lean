/-
# The store

The store holds activities and records of failures. An activity is added only if none of its key is
there, and is never changed or removed; of several new ones with one key the first is kept. The
records of failures of a version may be cleared.

Key definitions: `ErrorRecord`, `Store`, `Store.keys`, `Store.insert`, `Store.admits`,
`Store.record`, `Store.clear`.
Key theorem: `Store.insert_append`.
-/
import TokenLedger.Activity.Basic

namespace TokenLedger

/-- The record of a failure. -/
structure ErrorRecord where
  /-- The version of the transaction concerned, if it is known. -/
  version : Option Int
  label : String
  message : Option String
  /-- Whether a trace of the failure was kept. -/
  traced : Bool
  resolved : Bool
  diagnostics : Option String
  /-- When the record was made, on a clock that counts commands. -/
  time : Nat
deriving DecidableEq, Repr

/-- The activities in the order of their arrival, and the records of failures in theirs. -/
structure Store where
  activities : List Activity
  errors : List ErrorRecord
deriving DecidableEq, Repr

namespace Store

/-- The store that holds nothing. -/
def empty : Store :=
  ⟨[], []⟩

/-- The keys of the activities. -/
def keys (s : Store) : List ActivityKey :=
  s.activities.map Activity.key

/-- The store with an activity at its end. -/
def push (s : Store) (a : Activity) : Store :=
  { s with activities := s.activities ++ [a] }

/-- The store with those of the activities whose keys are new, and their number. -/
def insert (s : Store) : List Activity → Store × Nat
  | [] => (s, 0)
  | a :: as =>
    if a.key ∈ s.keys then s.insert as
    else
      let (t, n) := (s.push a).insert as
      (t, n + 1)

/-- Whether the numbers of all activities whose keys are new fit the store. -/
def admits (s : Store) : List Activity → Bool
  | [] => true
  | a :: as => if a.key ∈ s.keys then s.admits as else a.fits && (s.push a).admits as

/-- The store with one more record of a failure. -/
def record (s : Store) (e : ErrorRecord) : Store :=
  { s with errors := s.errors ++ [e] }

/-- The store without the records of failures of a version, and their number. -/
def clear (s : Store) (version : Int) : Store × Nat :=
  ({ s with errors := s.errors.filter (·.version != some version) },
    s.errors.countP (·.version == some version))

/-- Two insertions are one of both lists. -/
theorem insert_append (s : Store) (as bs : List Activity) :
    s.insert (as ++ bs) =
      (((s.insert as).1.insert bs).1, (s.insert as).2 + ((s.insert as).1.insert bs).2) := by
  induction as generalizing s with
  | nil => simp [insert]
  | cons a as ih =>
    simp only [List.cons_append, insert]
    split
    · exact ih s
    · rw [ih]
      simp only [Nat.add_right_comm]

end Store

/-- The object of a record, its diagnostics given. -/
def ErrorRecord.toJsonWith (diagnostics : Json) (e : ErrorRecord) : Json :=
  .obj [("transaction_version", .ofOption .whole e.version), ("error_type", .str e.label),
    ("message", .ofOption .ofText e.message), ("has_stack_trace", .bool e.traced),
    ("resolved", .bool e.resolved), ("diagnostic_data", diagnostics)]

/-- The object of a record, its diagnostics as they are stored. -/
def ErrorRecord.toJson (e : ErrorRecord) : Json :=
  e.toJsonWith (.ofOption .ofText e.diagnostics)

end TokenLedger
