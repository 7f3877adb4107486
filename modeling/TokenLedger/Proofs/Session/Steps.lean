/-
# What a command does

Transactions reach the store in three ways: singly, in a batch, and in the body of a request. A
command that delivers transactions either takes all of them in, and says so, or leaves the store as
it was (`Command.run_of_takes`, `Command.run_of_not_takes`). Activities given as such are inserted.
Records of failures may be added and cleared, and no other command does anything
(`Command.effect_next`). So every command makes the activities grow as an insertion does
(`Command.grows_next`), and so does every run (`Session.grows_storeFrom`); and what is held after a
run comes from one of its commands if that is so of each (`Session.mem_storeFrom`).

Key definitions: `Command.Delivers`, `Command.next`, `Command.Effect`, `Outcome.Reports`,
`Store.Grows`, `Session.storeFrom`.
Key theorems: `Command.delivers_toJson`, `Command.delivers_map_toJson`, `Command.run_of_takes`,
`Command.run_of_not_takes`, `Command.effect_next`, `Store.Grows.trans`, `Session.grows_storeFrom`,
`Session.mem_storeFrom`.
-/
import TokenLedger.Proofs.Service.Posts
import TokenLedger.Proofs.Transaction.Spelling
import TokenLedger.Session

namespace TokenLedger

/-! ### Growth -/

namespace Store

variable {s t u : Store} {as : List Activity}

/-- The activities grow as by an insertion. -/
def Grows (s t : Store) : Prop :=
  ∃ as, t.activities = s.activities ++ Activity.fresh s.keys as

theorem Grows.of_eq (h : t.activities = s.activities) : s.Grows t :=
  ⟨[], by rw [h]; exact (List.append_nil _).symm⟩

theorem grows_insert (s : Store) (as : List Activity) : s.Grows (s.insert as).1 :=
  ⟨as, by rw [insert_eq]⟩

theorem grows_takenIn (s : Store) (time : ℕ) (ts : List Transaction) :
    s.Grows (s.takenIn time ts) :=
  s.grows_insert (ts.flatMap Transaction.given)

theorem keys_of_growth (h : t.activities = s.activities ++ Activity.fresh s.keys as) :
    t.keys = s.keys ++ (Activity.fresh s.keys as).map Activity.key := by
  rw [keys, h, List.map_append]
  rfl

theorem Grows.trans (h₁ : s.Grows t) (h₂ : t.Grows u) : s.Grows u := by
  obtain ⟨as, has⟩ := h₁
  obtain ⟨bs, hbs⟩ := h₂
  -- the second insertion sees the fresh part of the first only
  refine ⟨Activity.fresh s.keys as ++ bs, ?_⟩
  rw [hbs, has, keys_of_growth has, Activity.fresh_append, Activity.fresh_fresh, List.append_assoc]

/-- What is stored stays, in front of what is new. -/
theorem Grows.keeps (h : s.Grows t) : s.activities <+: t.activities := by
  obtain ⟨as, has⟩ := h
  rw [has]
  exact List.prefix_append _ _

theorem Grows.nodup_keys (h : s.Grows t) (hs : s.keys.Nodup) : t.keys.Nodup := by
  obtain ⟨as, has⟩ := h
  rw [keys_of_growth has]
  exact Activity.nodup_append_fresh hs

theorem Grows.mem_keys {k : ActivityKey} (h : s.Grows t) (hk : k ∈ s.keys) : k ∈ t.keys := by
  obtain ⟨as, has⟩ := h
  rw [keys_of_growth has]
  exact List.mem_append_left _ hk

/-- Nothing is added under keys that are stored. -/
theorem Grows.filter_eq (h : s.Grows t) {p : Activity → Bool}
    (hp : ∀ a, p a = true → a.key ∈ s.keys) : t.activities.filter p = s.activities.filter p := by
  obtain ⟨as, has⟩ := h
  have hnone : (Activity.fresh s.keys as).filter p = [] := by
    rw [List.filter_eq_nil_iff]
    intro a ha hpa
    exact (Activity.mem_of_mem_fresh ha).2 (hp a hpa)
  rw [has, List.filter_append, hnone, List.append_nil]

end Store

/-! ### Data given as a list -/

section Data

variable {α : Type} {check : Check α} {vs : List Json} {v : Json}

theorem checkEach_eq_ok_iff {as : List α} :
    checkEach check vs = .ok as ↔ List.Forall₂ (fun v a => check v = .ok a) vs as := by
  induction vs generalizing as with
  | nil => rw [checkEach, List.forall₂_nil_left_iff, Except.ok.injEq, eq_comm]
  | cons v vs ih =>
    rw [checkEach]
    constructor
    · intro h
      split at h
      · cases h
      · rename_i a ha
        split at h
        · cases h
        · rename_i bs hbs
          cases h
          exact .cons ha (ih.mp hbs)
    · rintro (_ | ⟨ha, has⟩)
      simp only [ha, ih.mpr has]

theorem checkEach_refuses (h : check.Refuses v) (hv : v ∈ vs) :
    ∃ issues, checkEach check vs = .error issues := by
  cases has : checkEach check vs with
  | error issues => exact ⟨issues, rfl⟩
  | ok as => exact absurd (checkEach_eq_ok_iff.mp has) (h.not_forall₂ hv as)

end Data

/-! ### Deliveries -/

namespace Command

variable {s : Store} {time : ℕ} {c : Command} {ts : List Transaction}

/-- A command delivers transactions: one, those of a batch, or those of the body of a request. -/
inductive Delivers : Command → List Transaction → Prop where
  | single {v : Json} {t : Transaction} (h : Transaction.check .direct v = .ok t) :
    Delivers (.processTransaction v) [t]
  | batch {vs : List Json} {ts : List Transaction}
    (h : checkEach (Transaction.check .direct) vs = .ok ts) : Delivers (.processBatch vs) ts
  | posted {r : Request} {ts : List Transaction} (h : r.Posts .ingest Service.checkBatch ts) :
    Delivers (.request r) ts

/-- A transaction is delivered by its written form. -/
theorem delivers_toJson (t : Transaction) : (processTransaction t.toJson).Delivers [t] :=
  .single (t.check_toJson .direct)

/-- Transactions are delivered by a batch of their written forms. -/
theorem delivers_map_toJson (ts : List Transaction) :
    (processBatch (ts.map Transaction.toJson)).Delivers ts :=
  .batch (checkEach_eq_ok_iff.mpr (Transaction.forall₂_check_toJson .direct ts))

/-- The store after a command at a time; one that fails leaves it as it was. -/
def next (c : Command) (s : Store) (time : ℕ) : Store :=
  match c.run s time with
  | .ok (t, _) => t
  | .error _ => s

theorem next_of_ok {t : Store} {o : Outcome} (h : c.run s time = .ok (t, o)) :
    c.next s time = t := by
  rw [next, h]

theorem next_of_error {f : Fault} (h : c.run s time = .error f) : c.next s time = s := by
  rw [next, h]

end Command

/-- An outcome reports that transactions were taken in, and how that went. -/
inductive Outcome.Reports (ts : List Transaction) (tally : Tally) : Outcome → Prop where
  | single {t : Transaction} (h : ts = [t]) : Reports ts tally (.processed t.given?)
  | batch : Reports ts tally (.tallied tally)
  | posted : Reports ts tally (.replied (Service.succeed tally.toJson))

/-- An outcome is no failure: that of a request is a reply with a status below 400. -/
def Outcome.succeeds : Outcome → Bool
  | .replied r => r.status < 400
  | _ => true

namespace Command

variable {s : Store} {time : ℕ} {c : Command} {ts : List Transaction}

/-- Transactions that can be taken in are taken in, whichever command delivers them. -/
theorem run_of_takes (hc : c.Delivers ts) (h : s.Takes ts) (time : ℕ) :
    ∃ o, c.run s time = .ok (s.takenIn time ts, o) ∧ o.Reports ts (s.tally ts) := by
  cases hc with
  | @single v t hv =>
    refine ⟨_, ?_, .single rfl⟩
    simp only [run, hv, Store.process_of_takes time h]
  | batch hvs =>
    refine ⟨_, ?_, .batch⟩
    simp only [run, hvs, Store.processBatch_of_takes time h]
  | posted hr =>
    rcases Service.respond_of_batch s time hr with ⟨-, hreply⟩ | ⟨hnot, -⟩
    · refine ⟨_, ?_, .posted⟩
      simp only [run, hreply]
    · exact absurd h hnot

/-- If they cannot be taken in, nothing happens, and no success is reported. -/
theorem run_of_not_takes (hc : c.Delivers ts) (h : ¬ s.Takes ts) (time : ℕ) :
    (∃ f, c.run s time = .error f) ∨ c.run s time = .ok (s, .replied Service.fail) := by
  cases hc with
  | @single v t hv =>
    obtain ⟨f, hf⟩ := Store.process_of_not_takes time h
    exact .inl ⟨.store f, by simp only [run, hv, hf]⟩
  | batch hvs =>
    obtain ⟨f, hf⟩ := Store.processBatch_of_not_takes time h
    exact .inl ⟨.store f, by simp only [run, hvs, hf]⟩
  | posted hr =>
    rcases Service.respond_of_batch s time hr with ⟨htakes, -⟩ | ⟨-, hreply⟩
    · exact absurd htakes h
    · exact .inr (by simp only [run, hreply])

theorem next_of_takes (hc : c.Delivers ts) (h : s.Takes ts) (time : ℕ) :
    c.next s time = s.takenIn time ts := by
  obtain ⟨o, ho, -⟩ := run_of_takes hc h time
  exact next_of_ok ho

theorem next_of_not_takes (hc : c.Delivers ts) (h : ¬ s.Takes ts) (time : ℕ) :
    c.next s time = s := by
  rcases run_of_not_takes hc h time with ⟨f, hf⟩ | hok
  · exact next_of_error hf
  · exact next_of_ok hok

/-! ### All commands -/

/-- What a command can do to a store: the transactions that it delivers are taken in, the activities
that it is given are inserted, the record that it is told of is added, the records of its version are
cleared, or nothing happens. -/
inductive Effect (s : Store) (time : ℕ) : Command → Store → Prop where
  | delivered {c : Command} {ts : List Transaction} (hc : c.Delivers ts) (h : s.Takes ts) :
    Effect s time c (s.takenIn time ts)
  | inserted {vs : List Json} {as : List Activity} (hvs : checkEach Activity.check vs = .ok as)
    (h : s.admits as = true) : Effect s time (.insertActivities vs) (s.insert as).1
  | noted (n : ErrorNote) (e : ErrorRecord) : Effect s time (.noteError n) (s.record e)
  | cleared (v : ℤ) : Effect s time (.clearErrors v) (s.clear v).1
  | unchanged (c : Command) : Effect s time c s

/-- What delivers transactions takes them in, or does nothing. -/
theorem Delivers.effect_next (hc : c.Delivers ts) : Effect s time c (c.next s time) := by
  by_cases h : s.Takes ts
  · rw [next_of_takes hc h]
    exact .delivered hc h
  · rw [next_of_not_takes hc h]
    exact .unchanged c

/-- A question leaves the store as it was. -/
theorem effect_of_ask {numbers : Bool} {o : Outcome} (h : c.run s time = ask s numbers o) :
    Effect s time c (c.next s time) := by
  cases numbers with
  | true =>
    rw [next_of_ok h]
    exact .unchanged c
  | false =>
    rw [next_of_error h]
    exact .unchanged c

/-- **What a command does.** -/
theorem effect_next (c : Command) (s : Store) (time : ℕ) : Effect s time c (c.next s time) := by
  cases c with
  | processTransaction v =>
    cases hv : Transaction.check .direct v with
    | ok t => exact (Delivers.single hv).effect_next
    | error issues =>
      simp only [next, run, hv]
      exact .unchanged _
  | processBatch vs =>
    cases hvs : checkEach (Transaction.check .direct) vs with
    | ok ts => exact (Delivers.batch hvs).effect_next
    | error issues =>
      simp only [next, run, hvs]
      exact .unchanged _
  | request r =>
    rcases Service.respond_cases s time r with ⟨ts, hts⟩ | hsame
    · exact (Delivers.posted hts).effect_next
    · simp only [next, run, hsame]
      exact .unchanged _
  | insertActivities vs =>
    cases hvs : checkEach Activity.check vs with
    | ok as =>
      by_cases h : s.admits as = true
      · simp only [next, run, hvs, h, if_true]
        exact .inserted hvs h
      · simp only [next, run, hvs, if_neg h]
        exact .unchanged _
    | error issues =>
      simp only [next, run, hvs]
      exact .unchanged _
  | noteError n =>
    unfold next run
    simp only
    cases allFit n.version.toList with
    | false => exact .unchanged _
    | true =>
      cases n.label with
      | none => exact .unchanged _
      | some label => exact .noted n _
  | clearErrors v =>
    unfold next run
    by_cases h : Whole.fits v = true
    · simp only [h, if_true]
      exact .cleared v
    · simp only [if_neg h]
      exact .unchanged _
  | keysOf versions => exact effect_of_ask rfl
  | find key => exact effect_of_ask rfl
  | activitiesOf version => exact effect_of_ask rfl
  | listActivities f p => exact effect_of_ask rfl
  | listErrors f p => exact effect_of_ask rfl

theorem Effect.grows {t : Store} (h : Effect s time c t) : s.Grows t := by
  cases h with
  | delivered hc h => exact s.grows_takenIn time _
  | inserted hvs h => exact s.grows_insert _
  | noted n e => exact .of_eq rfl
  | cleared v => exact .of_eq rfl
  | unchanged c => exact .of_eq rfl

/-- **Every command makes the activities grow as an insertion does.** -/
theorem grows_next (c : Command) (s : Store) (time : ℕ) : s.Grows (c.next s time) :=
  (c.effect_next s time).grows

end Command

/-! ### Runs -/

namespace Session

/-- The store after commands from a time on. -/
def storeFrom (s : Store) (time : ℕ) (cs : List Command) : Store :=
  (runFrom s time cs).1

theorem storeFrom_cons (s : Store) (time : ℕ) (c : Command) (cs : List Command) :
    storeFrom s time (c :: cs) = storeFrom (c.next s time) (time + 1) cs := by
  unfold storeFrom
  rw [runFrom]
  cases h : c.run s time with
  | ok r => rw [Command.next_of_ok (t := r.1) (o := r.2) h]
  | error f => rw [Command.next_of_error h]

theorem storeFrom_append (s : Store) (time : ℕ) (cs ds : List Command) :
    storeFrom s time (cs ++ ds) = storeFrom (storeFrom s time cs) (time + cs.length) ds := by
  induction cs generalizing s time with
  | nil => rfl
  | cons c cs ih =>
    rw [List.cons_append, storeFrom_cons, storeFrom_cons, ih, List.length_cons, Nat.add_assoc,
      Nat.add_comm 1]

/-- What is held after commands was held before, or comes from one of them, if that is so of each. -/
theorem mem_storeFrom {α : Type} (held : Store → List α) (Brings : Command → Prop)
    {cs : List Command} {s : Store} {time : ℕ} {x : α}
    (hstep : ∀ c ∈ cs, ∀ s time, x ∈ held (c.next s time) → x ∈ held s ∨ Brings c)
    (h : x ∈ held (storeFrom s time cs)) : x ∈ held s ∨ ∃ c ∈ cs, Brings c := by
  induction cs generalizing s time with
  | nil => exact .inl h
  | cons c cs ih =>
    obtain ⟨hc, hcs⟩ := List.forall_mem_cons.mp hstep
    rw [storeFrom_cons] at h
    rcases ih hcs h with hnext | ⟨d, hd, hbrings⟩
    · refine (hc s time hnext).imp_right fun hbrings => ?_
      exact ⟨c, List.mem_cons_self, hbrings⟩
    · exact .inr ⟨d, List.mem_cons_of_mem c hd, hbrings⟩

/-- Every run makes the activities grow as an insertion does. -/
theorem grows_storeFrom (s : Store) (time : ℕ) (cs : List Command) :
    s.Grows (storeFrom s time cs) := by
  induction cs generalizing s time with
  | nil => exact .of_eq rfl
  | cons c cs ih =>
    rw [storeFrom_cons]
    exact (c.grows_next s time).trans (ih (c.next s time) (time + 1))

end Session
end TokenLedger
