/-
# The order of a batch does not matter

Transactions of distinct versions do not get into each other's way. The version is part of every
key, so what is stored for one of them does not depend on the others (`Transaction.fresh_flatMap`);
and a trial touches the records of failures of its own version only, so the records after a batch are
those of before that no success has cleared, and one record for each refusal
(`Store.errorsAfter_of_versions`). Both are written without reference to what came first, and a
permutation of the batch permutes them.

Within one version the order does matter: of two transactions with one key the first is kept, and a
success clears the refusals before it.

Key definitions: `Transaction.Separate`, `Transaction.complaint`, `Store.cleared`.
Key theorems: `Transaction.fresh_flatMap`, `Store.errorsAfter_of_versions`,
`Store.processBatch_of_perm`.
-/
import TokenLedger.Proofs.Ingest.Batching

namespace TokenLedger

namespace Transaction

variable {t : Transaction} {ts us : List Transaction}

/-- The versions of transactions are pairwise distinct. -/
def Separate (ts : List Transaction) : Prop :=
  (ts.map version).Nodup

instance (ts : List Transaction) : Decidable (Separate ts) :=
  inferInstanceAs (Decidable (ts.map version).Nodup)

theorem separate_cons_iff :
    Separate (t :: ts) ↔ (∀ u ∈ ts, u.version ≠ t.version) ∧ Separate ts := by
  unfold Separate
  rw [List.map_cons, List.nodup_cons, List.mem_map]
  simp only [not_exists, not_and]

theorem Separate.of_perm (h : Separate ts) (hp : ts.Perm us) : Separate us :=
  (hp.map version).nodup_iff.mp h

/-- What is stored for each of several transactions does not depend on the others. -/
theorem fresh_flatMap {ts : List Transaction} (h : Separate ts) (taken : List ActivityKey) :
    Activity.fresh taken (ts.flatMap given) = ts.flatMap fun t => Activity.fresh taken t.given := by
  induction ts with
  | nil => rfl
  | cons t ts ih =>
    obtain ⟨ht, hts⟩ := separate_cons_iff.mp h
    rw [List.flatMap_cons, List.flatMap_cons, Activity.fresh_append, ← ih hts]
    congr 1
    refine Activity.fresh_congr fun a ha => ?_
    obtain ⟨u, hu, ha⟩ := List.mem_flatMap.mp ha
    -- the keys of the first transaction are of another version
    have hother : a.key ∉ t.given.map Activity.key := by
      intro hmem
      obtain ⟨b, hb, hkey⟩ := List.mem_map.mp hmem
      have hversion : (u.version : ℤ) = t.version := by
        rw [← version_of_mem_given ha, ← version_of_mem_given hb, hkey]
      exact ht u hu (Int.ofNat_inj.mp hversion)
    rw [List.mem_append, or_iff_left hother]

/-! ### Records of failures -/

/-- The record that a transaction leaves if it is refused. -/
def complaint (t : Transaction) (time : ℕ) : List ErrorRecord :=
  match t.activities with
  | .error (.refused r) => [r.record t time]
  | _ => []

end Transaction

namespace Store

open Transaction (Separate)

variable {s : Store} {t : Transaction} {ts us : List Transaction}

/-- One of the transactions gives activities, and a record is of its version. -/
def cleared (ts : List Transaction) (e : ErrorRecord) : Bool :=
  ts.any fun t => t.given?.isSome && e.version == some (t.version : ℤ)

theorem cleared_cons (t : Transaction) (ts : List Transaction) (e : ErrorRecord) :
    cleared (t :: ts) e =
      (t.given?.isSome && e.version == some (t.version : ℤ) || cleared ts e) :=
  rfl

/-- No transaction of another version clears a record. -/
theorem cleared_eq_false {e : ErrorRecord} (he : e.version = some (t.version : ℤ))
    (h : ∀ u ∈ ts, u.version ≠ t.version) : cleared ts e = false := by
  rw [cleared, List.any_eq_false]
  intro u hu
  have hne : (t.version : ℤ) ≠ u.version := fun heq => h u hu (Int.ofNat_inj.mp heq.symm)
  simp [he, hne]

/-- **The records of failures after transactions of distinct versions**: those of before that no
success has cleared, and one for each refusal. -/
theorem errorsAfter_of_versions (time : ℕ) {ts : List Transaction} (h : Separate ts)
    (es : List ErrorRecord) : errorsAfter time es ts =
      es.filter (!cleared ts ·) ++ ts.flatMap (·.complaint time) := by
  induction ts generalizing es with
  | nil => simp [errorsAfter, cleared]
  | cons t ts ih =>
    obtain ⟨ht, hts⟩ := Transaction.separate_cons_iff.mp h
    rw [errorsAfter, ih hts, List.flatMap_cons]
    rcases t.given_or_refused with ⟨as, has⟩ | ⟨r, hr⟩
    · have hcomplaint : t.complaint time = [] := by rw [Transaction.complaint, has]
      rw [Transaction.mark_of_ok has, hcomplaint, List.nil_append, List.filter_filter]
      congr 1
      refine List.filter_congr fun e _ => ?_
      rw [cleared_cons, Transaction.given?_of_ok has, Option.isSome_some, Bool.true_and,
        Bool.not_or, Bool.and_comm]
      rfl
    · have hcomplaint : t.complaint time = [r.record t time] := by rw [Transaction.complaint, hr]
      have hkept : cleared ts (r.record t time) = false := cleared_eq_false rfl ht
      have hcleared : ∀ e, cleared (t :: ts) e = cleared ts e := fun e => by
        rw [cleared_cons, Transaction.given?_of_refused hr]
        rfl
      rw [Transaction.mark_of_refused hr, hcomplaint, List.filter_append, List.append_assoc]
      simp [hkept, hcleared]

theorem errorsAfter_perm (time : ℕ) (h : Separate ts) (hp : ts.Perm us) (es : List ErrorRecord) :
    (errorsAfter time es ts).Perm (errorsAfter time es us) := by
  have hcleared : ∀ e, cleared ts e = cleared us e := fun e => hp.any_eq
  rw [errorsAfter_of_versions time h, errorsAfter_of_versions time (h.of_perm hp)]
  simp only [hcleared]
  exact (hp.flatMap_right _).append_left _

/-! ### Permuted batches -/

theorem fresh_perm (s : Store) (h : Separate ts) (hp : ts.Perm us) :
    (Activity.fresh s.keys (ts.flatMap Transaction.given)).Perm
      (Activity.fresh s.keys (us.flatMap Transaction.given)) := by
  rw [Transaction.fresh_flatMap h, Transaction.fresh_flatMap (h.of_perm hp)]
  exact hp.flatMap_right _

theorem takes_of_perm (h : Separate ts) (hp : ts.Perm us) : s.Takes ts ↔ s.Takes us := by
  unfold Takes
  rw [admits_eq, admits_eq, (fresh_perm s h hp).all_eq]
  simp only [hp.mem_iff]

theorem tally_of_perm (s : Store) (h : Separate ts) (hp : ts.Perm us) :
    s.tally ts = s.tally us := by
  have hgiven : (ts.flatMap Transaction.given).Perm (us.flatMap Transaction.given) :=
    hp.flatMap_right _
  unfold tally
  rw [insert_eq, insert_eq, (fresh_perm s h hp).length_eq, hp.length_eq, hgiven.length_eq,
    hp.countP_eq, hp.countP_eq]

/-- **The order of a batch does not matter** if the versions of its transactions are distinct. Batches
that are permutations of each other, at whatever times, tell the same about themselves and leave the
same activities and the same records of failures but for their times, in some order. If one of them
fails, so does the other, and one of the transactions could not be stored. -/
theorem processBatch_of_perm (s : Store) (time time' : ℕ) (h : Separate ts) (hp : ts.Perm us) :
    ((∃ t ∈ ts, ¬ t.Storable) ∧ (∃ f, s.processBatch time ts = .error f) ∧
      ∃ f, s.processBatch time' us = .error f) ∨
    ∃ s₁ s₂ tally,
      s.processBatch time ts = .ok (s₁, tally) ∧ s.processBatch time' us = .ok (s₂, tally) ∧
      s₁.activities.Perm s₂.activities ∧
      (s₁.errors.map ErrorRecord.untimed).Perm (s₂.errors.map ErrorRecord.untimed) := by
  by_cases htakes : s.Takes ts
  · have htakes' : s.Takes us := (takes_of_perm h hp).mp htakes
    refine .inr ⟨_, _, s.tally ts, processBatch_eq_ok_iff.mpr ⟨htakes, rfl⟩,
      processBatch_eq_ok_iff.mpr ⟨htakes', by rw [tally_of_perm s h hp]⟩, ?_, ?_⟩
    · rw [insert_eq, insert_eq]
      exact (fresh_perm s h hp).append_left _
    · show ((errorsAfter time s.errors ts).map _).Perm ((errorsAfter time' s.errors us).map _)
      rw [map_untimed_errorsAfter, map_untimed_errorsAfter]
      exact errorsAfter_perm 0 h hp _
  · have htakes' : ¬ s.Takes us := fun h' => htakes ((takes_of_perm h hp).mpr h')
    exact .inl ⟨exists_not_storable htakes, processBatch_of_not_takes time htakes,
      processBatch_of_not_takes time' htakes'⟩

/-- A success and a refusal in either order, where an earlier record of the success is to be
cleared. -/
theorem processBatch_of_swap : ∃ s₁ s₂ tally,
    (empty.record (Refusal.noTimestamp.record (.untimely 1) 0)).processBatch 1
      [.minting 1, .untimely 2] = .ok (s₁, tally) ∧
    (empty.record (Refusal.noTimestamp.record (.untimely 1) 0)).processBatch 1
      [.untimely 2, .minting 1] = .ok (s₂, tally) ∧
    s₁.activities.Perm s₂.activities ∧
    (s₁.errors.map ErrorRecord.untimed).Perm (s₂.errors.map ErrorRecord.untimed) := by
  have hseparate : Separate [.minting 1, .untimely 2] := by decide
  rcases processBatch_of_perm _ 1 1 hseparate (.swap _ _ _) with ⟨⟨t, ht, hnot⟩, -⟩ | h
  · rcases List.mem_cons.mp ht with rfl | ht
    · exact absurd (Transaction.storable_of_toRaw (by decide) rfl) hnot
    · cases List.mem_singleton.mp ht
      exact absurd (Transaction.storable_of_toRaw (by decide) rfl) hnot
  · exact h

end Store
end TokenLedger
