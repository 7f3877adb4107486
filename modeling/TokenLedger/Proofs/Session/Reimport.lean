/-
# Activities that were written out and are inserted again

The activities of a transaction, written out as objects and given as such, are the activities that the
transaction gives. So to insert them is to insert what the transaction gives (`Command.run_reimport`):
the same rows are new, and as many are reported. A command that delivers the transaction alone does the
same to the activities, and reports the same number, unless the transaction itself stands in the way.

Key definitions: `Command.reimport`.
Key theorems: `Command.run_reimport`, `Store.takes_alone_iff`, `Session.reimport_agrees`.
-/
import TokenLedger.Proofs.Activity.RoundTrip
import TokenLedger.Proofs.Session.Steps

namespace TokenLedger

variable {s : Store} {t : Transaction} {as : List Activity}

/-- A transaction that gives activities is taken in alone if it does not stand in the way itself and
the store admits them. -/
theorem Store.takes_alone_iff (h : t.activities = .ok as) :
    s.Takes [t] ↔ t.Sound ∧ s.admits as = true := by
  rw [Takes, List.forall_mem_singleton, List.flatMap_singleton,
    Transaction.given_of_ok h]

namespace Command

/-- The command that inserts activities as they are written out. -/
def reimport (as : List Activity) : Command :=
  .insertActivities (as.map Activity.toJson)

/-- **Activities that were written out are inserted as they were.** -/
theorem run_reimport (has : ∀ a ∈ as, a.Exportable) (s : Store) (time : ℕ) :
    (reimport as).run s time =
      if s.admits as then .ok ((s.insert as).1, .inserted (s.insert as).2)
      else .error (.store .outOfRange) := by
  have hread : checkEach Activity.check (as.map Activity.toJson) = .ok as := by
    rw [checkEach_eq_ok_iff, List.forall₂_map_left_iff, List.forall₂_same]
    exact fun a ha => Activity.check_toJson (has a ha)
  simp only [reimport, run, hread]

theorem next_reimport (has : ∀ a ∈ as, a.Exportable) (s : Store) (time : ℕ) :
    (reimport as).next s time = if s.admits as then (s.insert as).1 else s := by
  have hrun := run_reimport has s time
  by_cases h : s.admits as = true
  · rw [if_pos h] at hrun ⊢
    exact next_of_ok hrun
  · rw [if_neg h] at hrun ⊢
    exact next_of_error hrun

end Command

namespace Session

/-- **The activities of a transaction can be written out and inserted again.** Each is accepted as the
activity that it is, also from its text if its numbers fit the store. On every store their insertion
adds those that the insertion of the activities of the transaction adds, and reports their number; it
fails where that one does. A command that delivers the transaction alone, if the transaction does not
stand in the way itself, does the same to the activities, and where the store admits them it succeeds
and reports the same number. -/
theorem reimport_agrees (h : t.activities = .ok as) :
    (∀ a ∈ as, Activity.check a.toJson = .ok a ∧
      (a.fits = true → ∀ d : Json.Dialect, 1 ≤ d.depth →
        Json.read d a.toJson.text = .ok a.toJson)) ∧
    ∀ (s : Store) (time : ℕ),
      (Command.reimport as).run s time =
        (if s.admits as then .ok ((s.insert as).1, .inserted (s.insert as).2)
        else .error (.store .outOfRange)) ∧
      ∀ c : Command, c.Delivers [t] → t.Sound →
        (c.next s time).activities = ((Command.reimport as).next s time).activities ∧
        (s.admits as = true → ∃ u o, c.run s time = .ok (u, o) ∧
          o.Reports [t] ⟨1, 1, 0, as.length, (s.insert as).2⟩) := by
  have has : ∀ a ∈ as, a.Exportable := fun a ha => by
    rw [← Transaction.given_of_some (Transaction.given?_of_ok h)] at ha
    exact Transaction.exportable_of_mem_given ha
  have hread : ∀ a ∈ as, Activity.check a.toJson = .ok a ∧
      (a.fits = true → ∀ d : Json.Dialect, 1 ≤ d.depth → Json.read d a.toJson.text = .ok a.toJson) :=
    fun a ha => ⟨Activity.check_toJson (has a ha), fun hfits d hd => Activity.read_toJson d hfits hd⟩
  refine ⟨hread, fun s time => ⟨Command.run_reimport has s time, fun c hc hsound => ?_⟩⟩
  rw [Command.next_reimport has]
  by_cases hadmits : s.admits as = true
  · have htakes : s.Takes [t] := (Store.takes_alone_iff h).mpr ⟨hsound, hadmits⟩
    obtain ⟨o, hrun, hreport⟩ := Command.run_of_takes hc htakes time
    rw [Store.tally_of_ok h] at hreport
    rw [if_pos hadmits, Command.next_of_ok hrun, Store.takenIn_of_ok h]
    exact ⟨rfl, fun _ => ⟨_, o, hrun, hreport⟩⟩
  · have hnot : ¬ s.Takes [t] := fun htakes => hadmits ((Store.takes_alone_iff h).mp htakes).2
    rw [if_neg hadmits, Command.next_of_not_takes hc hnot]
    exact ⟨rfl, fun hyes => absurd hyes hadmits⟩

/-- A transaction in which a token in version twelve thousand ends, at a time with a microsecond. -/
def ending : Transaction :=
  { Transaction.burning 1 ⟨false, 12, 3⟩ with timestamp := some ⟨1, ⟨1500, by decide⟩⟩ }

/-- Its activity is written out and inserted into the empty store, and the transaction is delivered to
the empty store. -/
theorem reimport_of_ending : ∃ a : Activity, ending.activities = .ok [a] ∧
    a.propertyVersion = ⟨false, 12, 3⟩ ∧ a.time.microsecond = 1 ∧
    Activity.check a.toJson = .ok a ∧
    (Command.reimport [a]).run .empty 0 = .ok (⟨[a], []⟩, .inserted 1) ∧
    ∃ u o, (Command.processBatch [ending.toJson]).run .empty 0 = .ok (u, o) ∧
      o.Reports [ending] ⟨1, 1, 0, 1, 1⟩ := by
  have hpayable : (⟨false, 12, 3⟩ : Decimal).Payable := ⟨by norm_num [Decimal.value], by decide⟩
  obtain ⟨a, hevent, hactivities⟩ := Transaction.exists_activities_of_decode (t := ending) rfl rfl rfl
    (Event.decode_toRaw (Event.regular_burnt hpayable))
  have hparts : a.propertyVersion = ⟨false, 12, 3⟩ ∧ a.time.microsecond = 1 := by
    obtain ⟨i, text, hi, -, rfl⟩ := Activity.exists_of_ofEvent hevent
    cases (Event.identity_burnt hpayable).symm.trans hi
    exact ⟨rfl, rfl⟩
  have hdelivers : Command.Delivers (.processBatch [ending.toJson]) [ending] :=
    Command.delivers_map_toJson [ending]
  have hstorable : ending.Storable := Transaction.storable_of_toRaw (by decide) rfl
  have hadmits : Store.empty.admits [a] = true :=
    ((Store.takes_alone_iff hactivities).mp (Store.takes_singleton .empty hstorable)).2
  obtain ⟨hread, hinsert⟩ := reimport_agrees hactivities
  obtain ⟨hrun, hdelivery⟩ := hinsert .empty 0
  obtain ⟨-, hreport⟩ := hdelivery _ hdelivers hstorable.sound
  refine ⟨a, hactivities, hparts.1, hparts.2, (hread a (List.mem_singleton_self a)).1,
    hrun.trans ?_, hreport hadmits⟩
  rw [hadmits, if_pos rfl]
  rfl

end Session
end TokenLedger
