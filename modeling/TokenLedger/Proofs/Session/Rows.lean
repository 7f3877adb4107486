/-
# Where the activities of a session come from

Whatever a session does, an activity that it holds was brought by one of its commands: a transaction
that a command delivered gave it, or it was inserted as such (`Session.exists_brings`). The commands
that deliver transactions bring well-formed activities only, so a session that inserts none as such
holds well-formed activities only (`Session.wellFormed_of_delivered`).

Key definitions: `Command.Brings`.
Key theorems: `Store.mem_insert`, `Command.Effect.mem_activities`, `Session.exists_brings`,
`Session.wellFormed_of_delivered`.
-/
import TokenLedger.Proofs.Activity.WellFormed
import TokenLedger.Proofs.Session.Redelivery

namespace TokenLedger

theorem Store.mem_insert {s : Store} {as : List Activity} {a : Activity}
    (h : a ∈ (s.insert as).1.activities) : a ∈ s.activities ∨ a ∈ as := by
  rw [insert_eq] at h
  rcases List.mem_append.mp h with hold | hnew
  · exact .inl hold
  · exact .inr (Activity.mem_of_mem_fresh hnew).1

namespace Command

variable {c : Command} {a : Activity}

/-- A command brings an activity: a transaction that it delivers, and that can be taken in as far as its
version and its accounts are concerned, gives it, or it is one of those that the command inserts. -/
inductive Brings (a : Activity) : Command → Prop where
  | delivered {c : Command} {ts : List Transaction} {t : Transaction} (hc : c.Delivers ts)
    (ht : t ∈ ts) (hsound : t.Sound) (ha : a ∈ t.given) : Brings a c
  | inserted {vs : List Json} {as : List Activity} (hvs : checkEach Activity.check vs = .ok as)
    (ha : a ∈ as) : Brings a (.insertActivities vs)

/-- What is there after a command was there before, or the command brings it. -/
theorem Effect.mem_activities {s t : Store} {time : ℕ} (h : Effect s time c t)
    (ha : a ∈ t.activities) : a ∈ s.activities ∨ c.Brings a := by
  cases h with
  | delivered hc h =>
    rcases Store.mem_insert ha with hold | hnew
    · exact .inl hold
    · obtain ⟨t, ht, hgiven⟩ := List.mem_flatMap.mp hnew
      exact .inr (.delivered hc ht (h.1 t ht) hgiven)
  | inserted hvs h => exact (Store.mem_insert ha).imp_right (.inserted hvs)
  | noted n e => exact .inl ha
  | cleared v => exact .inl ha
  | unchanged c => exact .inl ha

/-- A command that inserts no activities as such brings well-formed ones. -/
theorem Brings.wellFormed (h : c.Brings a) (hc : ∀ vs, c ≠ .insertActivities vs) :
    a.WellFormed := by
  cases h with
  | delivered _ _ _ ha => exact Transaction.wellFormed_of_mem_given ha
  | inserted => exact absurd rfl (hc _)

end Command

namespace Session

variable {cs : List Command} {a : Activity}

/-- **Each activity of a session was brought by one of its commands.** -/
theorem exists_brings (h : a ∈ (after cs).activities) : ∃ c ∈ cs, c.Brings a := by
  refine (mem_storeFrom Store.activities (Command.Brings a) (fun c _ s time ha => ?_) h).resolve_left
    List.not_mem_nil
  exact (c.effect_next s time).mem_activities ha

/-- **The activities of a session are well-formed**, whatever its commands are, unless one of them
inserts activities as such. Addresses are canonical, hashes are sixty-four digits, names fit the width
of a row, numbers lie in the range of amounts, the parties are those of the kind that the tag names,
and there are no coins. -/
theorem wellFormed_of_delivered (cs : List Command)
    (hcs : ∀ c ∈ cs, ∀ vs, c ≠ .insertActivities vs) :
    ∀ a ∈ (after cs).activities, a.WellFormed := by
  intro a ha
  obtain ⟨c, hc, hbrings⟩ := exists_brings ha
  exact hbrings.wellFormed (hcs c hc)

/-- A batch of a mint and of a burn leaves the activity of each. -/
theorem wellFormed_of_batch :
    ((after [.processBatch [(Transaction.minting 1).toJson,
        (Transaction.burning 2 ⟨false, 5, 0⟩).toJson]]).activities.map Activity.tag =
      [EventKind.mint.tag, EventKind.burn.tag]) ∧
    ∀ a ∈ (after [.processBatch [(Transaction.minting 1).toJson,
        (Transaction.burning 2 ⟨false, 5, 0⟩).toJson]]).activities, a.WellFormed := by
  have hpayable : (⟨false, 5, 0⟩ : Decimal).Payable := ⟨by norm_num [Decimal.value], by decide⟩
  obtain ⟨a, time, hmint, ha⟩ := Transaction.exists_activities_of_minting 1
  obtain ⟨b, hburn, hb⟩ := Transaction.exists_activities_of_decode
    (t := .burning 2 ⟨false, 5, 0⟩) rfl rfl rfl (Event.decode_toRaw (Event.regular_burnt hpayable))
  have htakes : Store.empty.Takes [.minting 1, .burning 2 ⟨false, 5, 0⟩] := by
    refine Store.takes_of_storable _ (List.forall_mem_cons.mpr ⟨?_, List.forall_mem_singleton.mpr ?_⟩) <;>
      exact Transaction.storable_of_toRaw (by decide) rfl
  refine ⟨?_, wellFormed_of_delivered _ fun c hc vs => ?_⟩
  · have hdelivers : Command.Delivers (.processBatch [(Transaction.minting 1).toJson,
        (Transaction.burning 2 ⟨false, 5, 0⟩).toJson]) [.minting 1, .burning 2 ⟨false, 5, 0⟩] :=
      Command.delivers_map_toJson [.minting 1, .burning 2 ⟨false, 5, 0⟩]
    rw [activities_after_singleton hdelivers htakes]
    obtain ⟨i, text, -, -, rfl⟩ := Activity.exists_of_ofEvent hmint
    obtain ⟨j, text', -, -, rfl⟩ := Activity.exists_of_ofEvent hburn
    simp only [List.flatMap_cons, Transaction.given_of_ok ha, Transaction.given_of_ok hb]
    rfl
  · rw [List.mem_singleton.mp hc]
    exact Command.noConfusion

end Session
end TokenLedger
