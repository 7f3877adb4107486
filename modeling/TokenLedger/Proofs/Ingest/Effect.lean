/-
# What taking in transactions does

Whether a transaction can be taken in and what it gives does not depend on the store. In the store, a
trial touches the records of failures only and an insertion the activities only. So a batch succeeds
exactly if all its transactions are sound and the store admits what they give, and its result can be
written down (`Store.processBatch_eq_ok_iff`); a single transaction is like a batch of one
(`Store.process_eq_ok_iff`). Both depend on what was there before only through the keys that are
taken.

Key definitions: `Transaction.mark`, `Store.errorsAfter`, `Store.Takes`, `Store.tally`,
`Store.takenIn`.
Key theorems: `Store.settle_eq_ok_iff`, `Store.gather_eq_ok_iff`, `Store.processBatch_eq_ok_iff`,
`Store.process_eq_ok_iff`.
-/
import TokenLedger.Ingest
import TokenLedger.Proofs.Activity.Given
import TokenLedger.Proofs.Store.Fresh

namespace TokenLedger

namespace Transaction

variable {t : Transaction}

/-- The records of failures after a transaction was tried at a time. -/
def mark (t : Transaction) (time : ℕ) (es : List ErrorRecord) : List ErrorRecord :=
  match t.activities with
  | .ok _ => es.filter (·.version != some (t.version : ℤ))
  | .error (.refused r) => es ++ [r.record t time]
  | .error (.broken _) => es

theorem mark_of_ok {as : List Activity} (h : t.activities = .ok as) (time : ℕ)
    (es : List ErrorRecord) :
    t.mark time es = es.filter (·.version != some (t.version : ℤ)) := by
  rw [mark, h]

theorem mark_of_refused {r : Refusal} (h : t.activities = .error (.refused r)) (time : ℕ)
    (es : List ErrorRecord) : t.mark time es = es ++ [r.record t time] := by
  rw [mark, h]

end Transaction

namespace Store

variable {s : Store} {t : Transaction} {ts : List Transaction} {time : ℕ}

/-! ### The effect of a trial -/

theorem settle_eq_ok_iff {r : Store × Option (List Activity)} : s.settle time t = .ok r ↔
    t.Sound ∧ r = (s.withErrors (t.mark time s.errors), t.given?) := by
  unfold settle Transaction.Sound
  by_cases hv : Whole.fits t.version = true
  · rw [if_pos hv]
    rcases t.given_or_refused with ⟨as, has⟩ | ⟨f, hf⟩
    · have hg := Transaction.given?_of_ok has
      have hm := Transaction.mark_of_ok has time s.errors
      by_cases hw : t.writable = true
      · simp only [has, hw, hv, hg, hm, if_true, implies_true, true_and, Except.ok.injEq]
        exact eq_comm
      · simp [has, hw, hg]
    · have hg := Transaction.given?_of_refused hf
      have hm := Transaction.mark_of_refused hf time s.errors
      simp only [hf, hv, hg, hm, Option.isSome_none, Bool.false_eq_true, false_implies, true_and,
        Except.ok.injEq]
      exact eq_comm
  · simp [hv]

/-- The records of failures after transactions were tried at a time. -/
def errorsAfter (time : ℕ) : List ErrorRecord → List Transaction → List ErrorRecord
  | es, [] => es
  | es, t :: ts => errorsAfter time (t.mark time es) ts

theorem errorsAfter_append (time : ℕ) : ∀ (es : List ErrorRecord) (ts us : List Transaction),
    errorsAfter time es (ts ++ us) = errorsAfter time (errorsAfter time es ts) us
  | _, [], _ => rfl
  | es, t :: ts, us => by
    simp only [List.cons_append, errorsAfter]
    exact errorsAfter_append time (t.mark time es) ts us

theorem gather_eq_ok_iff {r : Store × List (Option (List Activity))} : s.gather time ts = .ok r ↔
    (∀ t ∈ ts, t.Sound) ∧
      r = (s.withErrors (errorsAfter time s.errors ts), ts.map Transaction.given?) := by
  induction ts generalizing s r with
  | nil =>
    constructor
    · intro h
      cases h
      exact ⟨fun _ ht => absurd ht List.not_mem_nil, rfl⟩
    · intro h
      rw [h.2]
      rfl
  | cons t ts ih =>
    unfold gather
    constructor
    · intro h
      split at h
      · cases h
      · rename_i s' o hsettle
        obtain ⟨ht, hs'⟩ := settle_eq_ok_iff.mp hsettle
        split at h
        · cases h
        · rename_i s'' os hgather
          obtain ⟨hts, hs''⟩ := ih.mp hgather
          cases hs'
          cases hs''
          cases h
          exact ⟨List.forall_mem_cons.mpr ⟨ht, hts⟩, rfl⟩
    · rintro ⟨hsound, rfl⟩
      obtain ⟨ht, hts⟩ := List.forall_mem_cons.mp hsound
      rw [settle_eq_ok_iff.mpr ⟨ht, rfl⟩]
      simp only
      rw [ih.mpr ⟨hts, rfl⟩]
      rfl

/-! ### The effect of a batch -/

/-- Transactions can be taken in. -/
def Takes (s : Store) (ts : List Transaction) : Prop :=
  (∀ t ∈ ts, t.Sound) ∧ s.admits (ts.flatMap Transaction.given) = true

theorem takes_of_storable (s : Store) (h : ∀ t ∈ ts, t.Storable) : s.Takes ts := by
  refine ⟨fun t ht => (h t ht).sound, admits_of_fits fun a ha => ?_⟩
  obtain ⟨t, ht, ha⟩ := List.mem_flatMap.mp ha
  exact (h t ht).fits a ha

/-- A transaction can be taken in by itself if it can be stored. -/
theorem takes_singleton (s : Store) {t : Transaction} (h : t.Storable) : s.Takes [t] :=
  s.takes_of_storable (List.forall_mem_singleton.mpr h)

theorem exists_not_storable (h : ¬ s.Takes ts) : ∃ t ∈ ts, ¬ t.Storable := by
  by_contra hall
  push Not at hall
  exact h (takes_of_storable s hall)

/-- How a batch goes. -/
def tally (s : Store) (ts : List Transaction) : Tally where
  total := ts.length
  processed := ts.countP (·.given?.isSome)
  errors := ts.countP (·.given?.isNone)
  activities := (ts.flatMap Transaction.given).length
  inserted := (s.insert (ts.flatMap Transaction.given)).2

theorem flatten_kept (ts : List Transaction) :
    ((ts.map Transaction.given?).filterMap id).flatten = ts.flatMap Transaction.given := by
  induction ts with
  | nil => rfl
  | cons t ts ih =>
    rw [List.map_cons, List.flatMap_cons, ← ih]
    unfold Transaction.given
    cases t.given? <;> simp

theorem length_kept (ts : List Transaction) :
    ((ts.map Transaction.given?).filterMap id).length = ts.countP (·.given?.isSome) := by
  induction ts with
  | nil => rfl
  | cons t ts ih =>
    rw [List.map_cons, List.countP_cons, ← ih]
    cases t.given? <;> simp

theorem countP_given_add (ts : List Transaction) :
    ts.countP (·.given?.isSome) + ts.countP (·.given?.isNone) = ts.length := by
  rw [List.length_eq_countP_add_countP (·.given?.isSome)]
  congr 2
  funext t
  cases t.given? <;> rfl

theorem length_sub_countP_given (ts : List Transaction) :
    ts.length - ts.countP (·.given?.isSome) = ts.countP (·.given?.isNone) := by
  have := countP_given_add ts
  omega

/-- **What a batch does.** -/
theorem processBatch_eq_ok_iff {r : Store × Tally} : s.processBatch time ts = .ok r ↔
    s.Takes ts ∧
      r = ((s.insert (ts.flatMap Transaction.given)).1.withErrors (errorsAfter time s.errors ts),
        s.tally ts) := by
  unfold processBatch Takes
  constructor
  · intro h
    split at h
    · cases h
    · rename_i s' os hgather
      obtain ⟨hsound, hr⟩ := gather_eq_ok_iff.mp hgather
      cases hr
      simp only [flatten_kept, length_kept, insert_withErrors, admits_withErrors, List.length_map,
        length_sub_countP_given] at h
      split at h
      · rename_i hadmits
        cases h
        exact ⟨⟨hsound, hadmits⟩, rfl⟩
      · cases h
  · rintro ⟨⟨hsound, hadmits⟩, rfl⟩
    rw [gather_eq_ok_iff.mpr ⟨hsound, rfl⟩]
    simp only [flatten_kept, length_kept, insert_withErrors, admits_withErrors, List.length_map,
      length_sub_countP_given]
    rw [if_pos hadmits]
    rfl

/-- What cannot be taken in makes a batch fail. -/
theorem processBatch_of_not_takes (time : ℕ) (h : ¬ s.Takes ts) :
    ∃ f, s.processBatch time ts = .error f := by
  cases hr : s.processBatch time ts with
  | error f => exact ⟨f, rfl⟩
  | ok r => exact absurd (processBatch_eq_ok_iff.mp hr).1 h

/-- **What a single transaction does.** -/
theorem process_eq_ok_iff {r : Store × Option (List Activity)} : s.process time t = .ok r ↔
    s.Takes [t] ∧ r = ((s.insert t.given).1.withErrors (t.mark time s.errors), t.given?) := by
  have hgiven : [t].flatMap Transaction.given = t.given := List.flatMap_singleton _ _
  unfold process Takes
  rw [hgiven, List.forall_mem_singleton]
  constructor
  · intro h
    split at h
    · rename_i s' as hsettle
      obtain ⟨hsound, hr⟩ := settle_eq_ok_iff.mp hsettle
      have has : t.given? = some as := (Prod.mk.inj hr).2.symm
      have hs' : s' = s.withErrors (t.mark time s.errors) := (Prod.mk.inj hr).1
      rw [hs', insert_withErrors, admits_withErrors] at h
      split at h
      · rename_i hadmits
        cases h
        rw [Transaction.given_of_some has, has]
        exact ⟨⟨hsound, hadmits⟩, rfl⟩
      · cases h
    · rename_i s' hsettle
      obtain ⟨hsound, hr⟩ := settle_eq_ok_iff.mp hsettle
      have hnone : t.given? = none := (Prod.mk.inj hr).2.symm
      have hs' : s' = s.withErrors (t.mark time s.errors) := (Prod.mk.inj hr).1
      cases h
      rw [Transaction.given_of_none hnone, hnone, hs']
      exact ⟨⟨hsound, rfl⟩, rfl⟩
    · cases h
  · rintro ⟨⟨hsound, hadmits⟩, rfl⟩
    rw [settle_eq_ok_iff.mpr ⟨hsound, rfl⟩]
    cases hg : t.given? with
    | none =>
      rw [Transaction.given_of_none hg]
      rfl
    | some as =>
      rw [Transaction.given_of_some hg] at hadmits ⊢
      simp only [insert_withErrors, admits_withErrors]
      rw [if_pos hadmits]

/-! ### The store after transactions -/

/-- The store after transactions were taken in at a time. -/
def takenIn (s : Store) (time : ℕ) (ts : List Transaction) : Store :=
  (s.insert (ts.flatMap Transaction.given)).1.withErrors (errorsAfter time s.errors ts)

/-- The keys of what a transaction gives are stored once it was taken in, whatever came with it. -/
theorem key_mem_keys_takenIn {a : Activity} (time : ℕ) (ht : t ∈ ts) (ha : a ∈ t.given) :
    a.key ∈ (s.takenIn time ts).keys :=
  key_mem_keys_insert (List.mem_flatMap_of_mem ht ha)

/-- The store after a transaction that gives activities. -/
theorem takenIn_of_ok {as : List Activity} (h : t.activities = .ok as) (s : Store) (time : ℕ) :
    s.takenIn time [t] =
      (s.insert as).1.withErrors (s.errors.filter (·.version != some (t.version : ℤ))) := by
  rw [takenIn, List.flatMap_singleton, Transaction.given_of_ok h,
    ← Transaction.mark_of_ok h time]
  rfl

/-- The store after a transaction that is refused. -/
theorem takenIn_of_refused {r : Refusal} (h : t.activities = .error (.refused r)) (s : Store)
    (time : ℕ) : s.takenIn time [t] = s.record (r.record t time) := by
  rw [takenIn, List.flatMap_singleton, Transaction.given_of_none (Transaction.given?_of_refused h)]
  show s.withErrors (t.mark time s.errors) = _
  rw [Transaction.mark_of_refused h]
  rfl

theorem tally_of_ok {as : List Activity} (h : t.activities = .ok as) (s : Store) :
    s.tally [t] = ⟨1, 1, 0, as.length, (s.insert as).2⟩ := by
  have hgiven := Transaction.given?_of_ok h
  simp [tally, hgiven, Transaction.given_of_some hgiven]

theorem tally_of_refused {r : Refusal} (h : t.activities = .error (.refused r)) (s : Store) :
    s.tally [t] = ⟨1, 0, 1, 0, 0⟩ := by
  have hgiven := Transaction.given?_of_refused h
  simp [tally, hgiven, Transaction.given_of_none hgiven, insert]

theorem processBatch_of_takes (time : ℕ) (h : s.Takes ts) :
    s.processBatch time ts = .ok (s.takenIn time ts, s.tally ts) :=
  processBatch_eq_ok_iff.mpr ⟨h, rfl⟩

theorem process_of_takes (time : ℕ) (h : s.Takes [t]) :
    s.process time t = .ok (s.takenIn time [t], t.given?) := by
  refine process_eq_ok_iff.mpr ⟨h, ?_⟩
  rw [takenIn, List.flatMap_singleton]
  rfl

/-- What cannot be taken in makes a single transaction fail as well. -/
theorem process_of_not_takes (time : ℕ) (h : ¬ s.Takes [t]) :
    ∃ f, s.process time t = .error f := by
  cases hr : s.process time t with
  | error f => exact ⟨f, rfl⟩
  | ok r => exact absurd (process_eq_ok_iff.mp hr).1 h

end Store
end TokenLedger
