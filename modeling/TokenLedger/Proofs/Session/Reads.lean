/-
# What a session reads

After a session the keys are distinct, so whatever is asked for, the answers describe one table: the
keys of some versions are those of the activities of each, an activity is found under a key exactly if
the key is among those of its version, and the listing of all is made of the activities of one version
after the other, the latest version first (`Session.reads_agree`).

Key definitions: `Store.ReadsAgree`.
Key theorem: `Session.reads_agree`.
-/
import TokenLedger.Proofs.Session.Redelivery
import TokenLedger.Proofs.Store.Queries

namespace TokenLedger

/-- The queries of a store describe one table. -/
structure Store.ReadsAgree (s : Store) : Prop where
  /-- The keys of some versions are the stored keys of these versions. -/
  keysOf : ∀ versions k, k ∈ s.keysOf versions ↔ k ∈ s.keys ∧ k.version ∈ versions
  /-- Each is given once. -/
  nodup : ∀ versions, (s.keysOf versions).Nodup
  /-- They are the keys of the activities of each of these versions. -/
  union : ∀ versions k,
    k ∈ s.keysOf versions ↔ ∃ v ∈ versions, k ∈ (s.activitiesOf v).map Activity.key
  /-- An activity is found under a key if the key is one of those of its version. -/
  found : ∀ k, (s.find? k).isSome = true ↔ k ∈ s.keysOf [k.version]
  /-- What is found is the stored activity of that key. -/
  row : ∀ k a, s.find? k = some a ↔ a ∈ s.activities ∧ a.key = k
  /-- The activities of a version are those stored activities that have it. -/
  activitiesOf : ∀ v a, a ∈ s.activitiesOf v ↔ a ∈ s.activities ∧ a.key.version = v
  /-- They stand side by side, in their order, in a listing of all. -/
  block : ∀ f p, (∀ a, f.Selects a) → p.ShowsAll s.activities.length → ∀ v, ∃ later earlier,
    (s.listActivities f p).rows = later ++ s.activitiesOf v ++ earlier ∧
      (∀ a ∈ later, v < a.key.version) ∧ ∀ a ∈ earlier, a.key.version < v
  /-- The distinct versions of what is stored, the latest first. -/
  versions : s.versions.Pairwise (· > ·) ∧ ∀ v, v ∈ s.versions ↔ ∃ a ∈ s.activities, a.key.version = v
  /-- The activities of one version after the other are a listing of all. -/
  blocks : ∀ f p, (∀ a, f.Selects a) → p.ShowsAll s.activities.length →
    s.versions.flatMap s.activitiesOf = (s.listActivities f p).rows

namespace Session

/-- **What a session reads fits together**, whatever its commands were, activities inserted as such
included. The commands that ask give these answers, unless a number that they ask for does not fit. -/
theorem reads_agree (cs : List Command) :
    (after cs).ReadsAgree ∧
    ∀ time,
      (∀ versions, (Command.keysOf versions).run (after cs) time =
        Command.ask (after cs) (allFit versions) (.keys ((after cs).keysOf versions))) ∧
      (∀ k, (Command.find k).run (after cs) time =
        Command.ask (after cs) (allFit [k.version, k.creationNumber, k.sequenceNumber])
          (.found ((after cs).find? k))) ∧
      (∀ v, (Command.activitiesOf v).run (after cs) time =
        Command.ask (after cs) (Whole.fits v) (.activities ((after cs).activitiesOf v))) ∧
      ∀ f p, (Command.listActivities f p).run (after cs) time =
        Command.ask (after cs) p.fits (.activityPage ((after cs).listActivities f p)) := by
  have hkeys := nodup_keys_after cs
  refine ⟨?_, fun time => ⟨fun _ => rfl, fun _ => rfl, fun _ => rfl, fun _ _ => rfl⟩⟩
  exact {
    keysOf := fun _ _ => Store.mem_keysOf
    nodup := fun versions => Store.nodup_keysOf hkeys versions
    union := fun _ _ => Store.mem_keysOf_iff_exists
    found := fun k => by
      rw [Store.isSome_find?_iff, Store.mem_keysOf]
      exact (and_iff_left (List.mem_singleton_self _)).symm
    row := fun _ _ => Store.find?_eq_some_iff hkeys
    activitiesOf := fun _ _ => Store.mem_activitiesOf
    block := fun f p hf hp v => by
      rw [Store.rows_listActivities hf hp]
      exact Store.exists_block hkeys v
    versions := ⟨Store.pairwise_versions _, fun _ => Store.mem_versions⟩
    blocks := fun f p hf hp => by
      rw [Store.rows_listActivities hf hp]
      exact Store.flatMap_activitiesOf_versions hkeys }

/-- Activities that have no index are inserted as such, two of them of one version. -/
theorem reads_agree_of_nameless :
    let cs : List Command := [.insertActivities [(Activity.nameless 1 1 "a").toJson,
      (Activity.nameless 2 0 "b").toJson, (Activity.nameless 1 0 "c").toJson]]
    (after cs).keys.map ActivityKey.version = [1, 2, 1] ∧
    ∃ later earlier, ((after cs).listActivities ⟨some "", none, none⟩ ⟨some 3, none⟩).rows =
        later ++ (after cs).activitiesOf 1 ++ earlier ∧
      (∀ a ∈ later, 1 < a.key.version) ∧ ∀ a ∈ earlier, a.key.version < 1 := by
  intro cs
  have hversions : (after cs).keys.map ActivityKey.version = [1, 2, 1] := by decide
  have hlength : (after cs).activities.length = 3 := by
    simpa [Store.keys] using congrArg List.length hversions
  have hall : ∀ a, (ActivityFilter.mk (some "") none none).Selects a := fun a =>
    ActivityFilter.passes_iff.mp rfl
  have hpage : (Page.mk (some 3) none).ShowsAll (after cs).activities.length := by
    rw [hlength]
    exact ⟨le_rfl, fun limit h => .inr (Option.some.inj h).le⟩
  obtain ⟨hreads, -⟩ := reads_agree cs
  exact ⟨hversions, hreads.block _ _ hall hpage 1⟩

end Session
end TokenLedger
