/-
# Delivering a transaction again

The activities of a session only grow, and no two of them have one key. A transaction that was once
taken in has left an activity under every key that it gives, were it only because another one of the
same key came first; from then on these keys are taken (`Session.Processed.settled`). So the
transaction can be delivered any number of times, by whatever command: alone it is taken in and adds
nothing, and in a batch it is as if it were not there.

Key definitions: `Session.after`, `Session.Processed`, `Transaction.rowsIn`, `Store.Settled`.
Key theorems: `Store.Settled.tally_alone`, `Store.Settled.activities_batch`,
`Session.activities_of_session`, `Session.after_singleton`, `Session.processed_first`.
-/
import TokenLedger.Proofs.Session.Steps

namespace TokenLedger

/-- The activities of a store under the keys that a transaction gives. -/
def Transaction.rowsIn (t : Transaction) (s : Store) : List Activity :=
  s.activities.filter fun a => a.key ∈ t.given.map Activity.key

/-! ### Settled transactions -/

namespace Store

variable {s s' : Store} {t : Transaction}

/-- A transaction gives activities, and an activity is stored under each of their keys. -/
structure Settled (s : Store) (t : Transaction) : Prop where
  sound : t.Sound
  given : t.given?.isSome = true
  stored : ∀ a ∈ t.given, a.key ∈ s.keys

/-- It stays so. -/
theorem Settled.mono (h : s.Settled t) (hg : s.Grows s') : s'.Settled t :=
  ⟨h.sound, h.given, fun a ha => hg.mem_keys (h.stored a ha)⟩

/-- A transaction is settled once it was taken in. -/
theorem settled_takenIn (time : ℕ) {ts : List Transaction} (h : s.Takes ts) (ht : t ∈ ts)
    (hgiven : t.given?.isSome = true) : (s.takenIn time ts).Settled t where
  sound := h.1 t ht
  given := hgiven
  stored _ ha := key_mem_keys_takenIn time ht ha

theorem Settled.rowsIn_eq (h : s.Settled t) (hg : s.Grows s') : t.rowsIn s' = t.rowsIn s := by
  refine hg.filter_eq fun a ha => ?_
  obtain ⟨b, hb, hkey⟩ := List.mem_map.mp (of_decide_eq_true ha)
  exact hkey ▸ h.stored b hb

/-- What is to be stored for other transactions does not depend on a settled one. -/
theorem Settled.fresh_eq (h : s.Settled t) (us ws : List Transaction) :
    Activity.fresh s.keys ((us ++ t :: ws).flatMap Transaction.given) =
      Activity.fresh s.keys ((us ++ ws).flatMap Transaction.given) := by
  rw [List.flatMap_append, List.flatMap_append, List.flatMap_cons, Activity.fresh_without h.stored]

/-- Other transactions can be taken in with a settled one if they can without it. -/
theorem Settled.takes_iff (h : s.Settled t) (us ws : List Transaction) :
    s.Takes (us ++ t :: ws) ↔ s.Takes (us ++ ws) := by
  unfold Takes
  rw [admits_eq, admits_eq, h.fresh_eq, List.forall_mem_append, List.forall_mem_append,
    List.forall_mem_cons, and_iff_right h.sound]

/-- **In a batch a settled transaction is as if it were not there.** -/
theorem Settled.activities_batch (h : s.Settled t) (time time' : ℕ) (us ws : List Transaction) :
    (s.takenIn time (us ++ t :: ws)).activities = (s.takenIn time' (us ++ ws)).activities := by
  unfold takenIn
  rw [insert_eq, insert_eq, h.fresh_eq]
  rfl

/-- Alone it can be taken in. -/
theorem Settled.takes_alone (h : s.Settled t) : s.Takes [t] := by
  have hnone : s.Takes [] := ⟨fun u hu => absurd hu List.not_mem_nil, rfl⟩
  exact (h.takes_iff [] []).mpr hnone

/-- Alone it adds nothing. -/
theorem Settled.activities_alone (h : s.Settled t) (time : ℕ) :
    (s.takenIn time [t]).activities = s.activities :=
  h.activities_batch time time [] []

/-- Alone it is reported as processed, with nothing inserted. -/
theorem Settled.tally_alone (h : s.Settled t) : s.tally [t] = ⟨1, 1, 0, t.given.length, 0⟩ := by
  have hnone : t.given?.isNone = false := by simp [h.given]
  have hfresh : Activity.fresh s.keys t.given = [] := Activity.fresh_eq_nil h.stored
  simp [tally, h.given, hnone, insert_eq, hfresh]

end Store

/-! ### Sessions -/

namespace Session

variable {cs ds : List Command} {t : Transaction}

/-- The store after the commands of a session. -/
def after (cs : List Command) : Store :=
  storeFrom .empty 0 cs

/-- The store after one more command. -/
theorem after_append_singleton (cs : List Command) (c : Command) :
    after (cs ++ [c]) = c.next (after cs) cs.length := by
  rw [after, storeFrom_append, storeFrom_cons, Nat.zero_add]
  rfl

/-- The store after a first command that delivers transactions. -/
theorem after_singleton {c : Command} {ts : List Transaction} (hc : c.Delivers ts)
    (h : Store.empty.Takes ts) : after [c] = Store.empty.takenIn 0 ts :=
  (after_append_singleton [] c).trans (Command.next_of_takes hc h 0)

theorem activities_after_singleton {c : Command} {ts : List Transaction} (hc : c.Delivers ts)
    (h : Store.empty.Takes ts) :
    (after [c]).activities = Activity.fresh [] (ts.flatMap Transaction.given) := by
  rw [after_singleton hc h, Store.takenIn, Store.insert_eq]
  rfl

theorem grows_after (cs ds : List Command) : (after cs).Grows (after (cs ++ ds)) := by
  rw [after, after, storeFrom_append]
  exact grows_storeFrom _ _ ds

theorem nodup_keys_after (cs : List Command) : (after cs).keys.Nodup :=
  (grows_storeFrom .empty 0 cs).nodup_keys List.nodup_nil

/-- A command of a session delivered a transaction, among others or alone, and succeeded, and the
transaction was not refused. -/
def Processed (cs : List Command) (t : Transaction) : Prop :=
  ∃ before c rest ts s o, cs = before ++ c :: rest ∧ c.Delivers ts ∧ t ∈ ts ∧
    c.run (after before) before.length = .ok (s, o) ∧ o.succeeds = true ∧
    t.given?.isSome = true

/-- A transaction that is taken in first, among others or alone, is processed. -/
theorem processed_first {c : Command} {ts : List Transaction} {t : Transaction} (hc : c.Delivers ts)
    (h : Store.empty.Takes ts) (ht : t ∈ ts) (hgiven : t.given?.isSome = true) : Processed [c] t := by
  obtain ⟨o, hrun, hreport⟩ := Command.run_of_takes hc h 0
  refine ⟨[], c, [], ts, _, o, rfl, hc, ht, hrun, ?_, hgiven⟩
  cases hreport <;> rfl

/-- A transaction that was processed is settled ever after. -/
theorem Processed.settled (h : Processed cs t) : (after cs).Settled t := by
  obtain ⟨before, c, rest, ts, s, o, rfl, hc, ht, hrun, ho, hgiven⟩ := h
  have htakes : (after before).Takes ts := by
    by_contra hnot
    rcases Command.run_of_not_takes hc hnot before.length with ⟨f, hf⟩ | hfail
    · rw [hf] at hrun
      cases hrun
    · rw [hfail] at hrun
      cases hrun
      cases ho
  have hthen : (after (before ++ [c])).Settled t := by
    rw [after_append_singleton, Command.next_of_takes hc htakes]
    exact Store.settled_takenIn _ htakes ht hgiven
  have hrest : before ++ c :: rest = before ++ [c] ++ rest := by simp
  rw [hrest]
  exact hthen.mono (grows_after (before ++ [c]) rest)

/-- **The activities of a session only grow, and a transaction can be delivered again.** Their keys
are distinct, and what is stored stays as it is. Once a transaction was processed, an activity is
stored under each key that it gives, and whatever happens then leaves the activities under these keys
alone. A command that delivers it with others does to the activities what one does that delivers the
others only; a command that delivers it alone succeeds, leaves the activities as they were and, where
it reports numbers, none as inserted. -/
theorem activities_of_session (cs : List Command) :
    (after cs).keys.Nodup ∧
    (∀ ds, (after cs).activities <+: (after (cs ++ ds)).activities) ∧
    ∀ t, Processed cs t →
      (∀ a ∈ t.given, a.key ∈ (after cs).keys) ∧
      (∀ ds, t.rowsIn (after (cs ++ ds)) = t.rowsIn (after cs)) ∧
      (∀ c d us ws, c.Delivers (us ++ t :: ws) → d.Delivers (us ++ ws) →
        (after (cs ++ [c])).activities = (after (cs ++ [d])).activities) ∧
      ∀ c : Command, c.Delivers [t] → ∃ s o, c.run (after cs) cs.length = .ok (s, o) ∧
        s.activities = (after cs).activities ∧
        o.Reports [t] ⟨1, 1, 0, t.given.length, 0⟩ := by
  refine ⟨nodup_keys_after cs, fun ds => (grows_after cs ds).keeps, fun t ht => ?_⟩
  have hsettled := ht.settled
  refine ⟨hsettled.stored, fun ds => hsettled.rowsIn_eq (grows_after cs ds), ?_, ?_⟩
  · intro c d us ws hc hd
    rw [after_append_singleton, after_append_singleton]
    by_cases h : (after cs).Takes (us ++ ws)
    · rw [Command.next_of_takes hc ((hsettled.takes_iff us ws).mpr h), Command.next_of_takes hd h]
      exact hsettled.activities_batch _ _ us ws
    · have hnot := fun hwith => h ((hsettled.takes_iff us ws).mp hwith)
      rw [Command.next_of_not_takes hc hnot, Command.next_of_not_takes hd h]
  · intro c hc
    obtain ⟨o, hrun, hreport⟩ := Command.run_of_takes hc hsettled.takes_alone cs.length
    rw [hsettled.tally_alone] at hreport
    exact ⟨_, o, hrun, hsettled.activities_alone _, hreport⟩

/-- A transaction that was taken in with a batch is delivered again by itself. -/
theorem redelivered_of_mint :
    Processed [.processBatch [(Transaction.minting 1).toJson]] (.minting 1) ∧
    ∃ s o, (Command.processTransaction (Transaction.minting 1).toJson).run
        (after [.processBatch [(Transaction.minting 1).toJson]]) 1 = .ok (s, o) ∧
      s.activities = (after [.processBatch [(Transaction.minting 1).toJson]]).activities ∧
      o.Reports [.minting 1] ⟨1, 1, 0, 1, 0⟩ := by
  have hbatch : Command.Delivers (.processBatch [(Transaction.minting 1).toJson]) [.minting 1] :=
    Command.delivers_map_toJson [.minting 1]
  have htakes : Store.empty.Takes [.minting 1] :=
    Store.takes_singleton _ (Transaction.storable_of_toRaw (by decide) rfl)
  obtain ⟨a, -, -, ha⟩ := Transaction.exists_activities_of_minting 1
  have hprocessed : Processed [.processBatch [(Transaction.minting 1).toJson]] (.minting 1) :=
    processed_first hbatch htakes (List.mem_singleton_self _) (by rw [Transaction.given?_of_ok ha]; rfl)
  obtain ⟨-, -, hagain⟩ := activities_of_session [.processBatch [(Transaction.minting 1).toJson]]
  obtain ⟨-, -, -, halone⟩ := hagain _ hprocessed
  rw [Transaction.given_of_ok ha] at halone
  exact ⟨hprocessed, halone _ (Command.delivers_toJson _)⟩

end Session
end TokenLedger
