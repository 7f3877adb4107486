/-
# One transaction cannot break a batch

A legible transaction gives proper activities, and one that is not legible is refused; nothing else
can happen, whatever its kind, its time and the payloads of its events. So a batch of transactions
whose numbers fit is always taken in: each of them is counted as processed or as an error, and what
one gives is stored whatever the others are.

Key theorem: `Store.batch_never_breaks`.
-/
import TokenLedger.Proofs.Activity.Proper
import TokenLedger.Proofs.Ingest.Effect

namespace TokenLedger
namespace Store

/-- **One transaction cannot break a batch.** A transaction that is legible gives proper activities,
and any other one is refused. In particular the token of an event that was decoded has an identity,
the version of its properties has a canonical text, and a timestamp names a point in time of the
calendar. So a batch of transactions whose numbers fit is taken in, whatever the store holds. -/
theorem batch_never_breaks :
    (∀ t : Transaction,
      (t.Legible ∧ ∃ as, t.activities = .ok as ∧ ∀ a ∈ as, a.Proper) ∨
        (¬ t.Legible ∧ ∃ r, t.activities = .error (.refused r))) ∧
    (∀ tag payload e, Event.decode tag payload = .ok (some e) →
      ∃ i text, e.identity = .ok i ∧ i.propertyVersion.canonicalText = .ok text ∧
        ∀ version time index raw, ∃ a, Activity.ofEvent version time index raw e = .ok a) ∧
    (∀ t : Timestamp, t.dateTime.Valid) ∧
    ∀ (s : Store) (time : ℕ) (ts : List Transaction), (∀ t ∈ ts, t.Storable) →
      ∃ s' inserted, s.processBatch time ts = .ok (s',
          { total := ts.length
            processed := ts.countP (·.given?.isSome)
            errors := ts.countP (·.given?.isNone)
            activities := (ts.flatMap Transaction.given).length
            inserted := inserted }) ∧
        ∀ t ∈ ts, ∀ a ∈ t.given, a.key ∈ s'.keys := by
  refine ⟨fun t => ?_, fun tag payload e he => ?_, fun t => t.dateTime_valid.2, fun s time ts h => ?_⟩
  · rcases t.given_or_refused with ⟨as, has⟩ | ⟨r, hr⟩
    · have hgiven : t.given = as := Transaction.given_of_some (Transaction.given?_of_ok has)
      exact .inl ⟨t.exists_activities_iff.mp ⟨as, has⟩, as, has, fun a ha =>
        Transaction.proper_of_mem_given (hgiven ▸ ha)⟩
    · refine .inr ⟨fun hlegible => ?_, r, hr⟩
      obtain ⟨as, has⟩ := t.exists_activities_iff.mpr hlegible
      rw [hr] at has
      cases has
  · have hdecoded : e.Decoded := ⟨tag, payload, he⟩
    obtain ⟨i, _, hi, hrange, -, hgives⟩ := hdecoded.ofEvent_ok
    obtain ⟨text, htext⟩ := hrange.canonicalText_ok
    refine ⟨i, text, hi, htext, fun version time index raw => ?_⟩
    obtain ⟨a, ha, -⟩ := hgives version time index raw
    exact ⟨a, ha⟩
  · exact ⟨_, _, processBatch_of_takes time (takes_of_storable s h), fun t ht a ha =>
      key_mem_keys_takenIn time ht ha⟩

/-- A mint, and an end of the same token whose version has five thousand digits. -/
theorem batch_of_oversized : ∃ s inserted,
    Store.empty.processBatch 0 [.minting 1, .burning 2 ⟨false, 1, 5000⟩] =
      .ok (s, ⟨2, 1, 1, 1, inserted⟩) ∧
    ∀ a ∈ (Transaction.minting 1).given, a.key ∈ s.keys := by
  have hstorable : ∀ t ∈ [Transaction.minting 1, .burning 2 ⟨false, 1, 5000⟩], t.Storable := by
    intro t ht
    rcases List.mem_cons.mp ht with rfl | ht
    · exact Transaction.storable_of_toRaw (by decide) rfl
    · rw [List.mem_singleton.mp ht]
      exact Transaction.storable_of_toRaw (by decide) rfl
  obtain ⟨a, -, -, ha⟩ := Transaction.exists_activities_of_minting 1
  have hmint := Transaction.given?_of_ok ha
  have hburn : (Transaction.burning 2 ⟨false, 1, 5000⟩).given? = none := by
    have hreads := Event.reads_toJson (e := Event.burnt ⟨false, 1, 5000⟩) (List.forall_mem_nil _)
      ((Nat.le_refl 4).trans (by decide))
    have hrefuses : (Event.check .burn).Refuses (Event.burnt ⟨false, 1, 5000⟩).toJson :=
      Check.refuses_of_toOption (by decide)
    obtain ⟨issues, hdecode⟩ := hreads.decode_error hrefuses
    refine Transaction.given?_of_not_legible fun hlegible => ?_
    obtain ⟨raws, hraws, hall⟩ := hlegible.events
    cases hraws
    obtain ⟨e, he⟩ := hall _ (List.mem_singleton_self _)
    cases hdecode.symm.trans he
  obtain ⟨-, -, -, hbatch⟩ := batch_never_breaks
  obtain ⟨s, inserted, hdone, hkeys⟩ := hbatch .empty 0 _ hstorable
  refine ⟨s, inserted, ?_, hkeys _ List.mem_cons_self⟩
  rw [hdone]
  simp [hmint, hburn, Transaction.given_of_some hmint, Transaction.given_of_none hburn]

end Store
end TokenLedger
