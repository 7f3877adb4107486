/-
# Commands that fail

A command fails by a fault or by a reply with a status of 400 or more. A reply of that kind means that
nothing was kept (`Service.store_of_failed`), so a command that fails leaves the store as it was
(`Command.next_of_failed`): records of failures that were made or cleared on the way are as they were,
too. In a run this holds at every place (`Session.storeFrom_take_of_failed`). A list in which one item
does not pass its check fails as a whole, wherever the item stands (`checkEach_refuses`,
`Service.respond_of_refused`).

Key definitions: `Command.result`, `Command.failed`, `Service.batchItems`.
Key theorems: `Service.store_of_failed`, `Service.respond_of_refused`, `Command.next_of_failed`,
`Session.storeFrom_take_of_failed`, `Session.nothing_kept_of_failed`.
-/
import TokenLedger.Proofs.Service.Bodies
import TokenLedger.Proofs.Session.Redelivery

namespace TokenLedger

/-! ### Requests -/

namespace Service

variable {s : Store} {time : ℕ} {r : Request}

/-- **A request that is answered with a failure leaves the store as it was.** -/
theorem store_of_failed (h : 400 ≤ (respond s time r).2.status) : (respond s time r).1 = s := by
  rcases respond_cases s time r with ⟨ts, hts⟩ | hsame
  · rcases respond_of_batch s time hts with ⟨-, hreply⟩ | ⟨-, hreply⟩
    · -- what was taken in is answered with 200
      have hstatus : (respond s time r).2.status = 200 := by rw [hreply]; rfl
      omega
    · rw [hreply]
  · exact hsame

/-- What is read from a body is read from its value. -/
theorem value_of_withBody {α : Type} {check : Check α} {body : Option String} {a : α}
    (h : withBody body check = .ok a) : ∃ text v, body = some text ∧ text.isEmpty = false ∧
      valueOfBody text = .ok v ∧ check v = .ok a := by
  unfold withBody at h
  split at h
  · cases h
  · rename_i text
    split at h
    · cases h
    · rename_i hempty
      split at h
      · cases h
      · rename_i v hvalue
        split at h
        · rename_i b hv
          cases h
          exact ⟨text, v, rfl, Bool.eq_false_of_not_eq_true hempty, hvalue, hv⟩
        · split at h <;> cases h

/-- A body with a value that does not pass is answered with its issues, or with a failure of the
service. -/
theorem withBody_of_refused {α β : Type} {check : Check α} {other : Check β} {body : Option String}
    {b : β} (hbody : withBody body other = .ok b)
    (hrefuses : ∀ v, other v = .ok b → check.Refuses v) :
    ∃ reply, withBody body check = .error reply ∧ (reply.status = 422 ∨ reply.status = 500) := by
  obtain ⟨text, v, rfl, hempty, hvalue, hv⟩ := value_of_withBody hbody
  obtain ⟨issues, hissues⟩ := hrefuses v hv
  simp only [withBody, hempty, hvalue, hissues, Bool.false_eq_true, if_false]
  by_cases hquotable : (issues.all fun i => quotable (part v i.place)) = true
  · exact ⟨_, if_pos hquotable, .inl rfl⟩
  · exact ⟨_, if_neg hquotable, .inr rfl⟩

/-- The items of the body of a batch, whatever they are. -/
def batchItems : Check (List Json) :=
  Check.record .request fun ms => Check.required ms "transactions" (Check.listOf Except.ok)

theorem checkBatch_refuses {v item : Json} {items : List Json} (hv : batchItems v = .ok items)
    (hmem : item ∈ items) (hitem : (Transaction.check .request).Refuses item) :
    checkBatch.Refuses v := by
  obtain ⟨ms, rfl, hrequired⟩ := Check.record_eq_ok_iff.mp hv
  obtain ⟨w, hw, hlist⟩ := Check.required_eq_ok_iff.mp hrequired
  cases w with
  | arr vs =>
    have hsame : vs = items := by
      have hall := Check.listOf_eq_ok_iff.mp hlist
      simpa only [Except.ok.injEq, List.forall₂_eq_eq_eq] using hall
    cases hts : checkBatch (.obj ms) with
    | error issues => exact ⟨issues, hts⟩
    | ok ts =>
      obtain ⟨ms', hms, hrequired'⟩ := Check.record_eq_ok_iff.mp hts
      cases hms
      obtain ⟨w', hw', hlist'⟩ := Check.required_eq_ok_iff.mp hrequired'
      obtain rfl : Json.arr vs = w' := Option.some.inj (hw.symm.trans hw')
      rw [hsame] at hlist'
      exact absurd hlist' ((hitem.listOf hmem).ne_ok ts)
  | _ => cases hlist

/-- A batch with an item that does not pass is not taken in. -/
theorem respond_of_refused {items : List Json} {item : Json} (h : r.Posts .ingest batchItems items)
    (hmem : item ∈ items) (hitem : (Transaction.check .request).Refuses item) (s : Store)
    (time : ℕ) :
    ∃ reply, respond s time r = (s, reply) ∧ (reply.status = 422 ∨ reply.status = 500) := by
  obtain ⟨reply, hreply, hstatus⟩ :=
    withBody_of_refused h.body fun v hv => checkBatch_refuses hv hmem hitem
  refine ⟨reply, ?_, hstatus⟩
  rw [respond_of_post h.verb, handle, h.target]
  simp only [Route.method, h.verb, if_true]
  rw [answer, hreply]

end Service

/-! ### Commands -/

namespace Command

variable {s : Store} {time : ℕ} {c : Command} {vs : List Json} {v : Json}

/-- What a command gives at a time, whatever becomes of the store. -/
def result (c : Command) (s : Store) (time : ℕ) : Except Fault Outcome :=
  (c.run s time).map Prod.snd

/-- A result is a failure. -/
def failed : Except Fault Outcome → Bool
  | .error _ => true
  | .ok o => !o.succeeds

/-- The outcome of a question is its answer. -/
theorem outcome_of_ask {numbers : Bool} {t : Store} {o o' : Outcome}
    (h : ask s numbers o = .ok (t, o')) : o' = o := by
  cases numbers with
  | true => cases h; rfl
  | false => cases h

/-- The outcome of what is no request is never a failure. -/
theorem succeeds_of_run {t : Store} {o : Outcome} (hc : ∀ r, c ≠ .request r)
    (h : c.run s time = .ok (t, o)) : o.succeeds = true := by
  cases c with
  | request r => exact absurd rfl (hc r)
  | processTransaction v =>
    simp only [run] at h
    split at h
    · cases h
    · split at h <;> cases h
      rfl
  | processBatch vs =>
    simp only [run] at h
    split at h
    · cases h
    · split at h <;> cases h
      rfl
  | insertActivities vs =>
    simp only [run] at h
    split at h
    · cases h
    · split at h <;> cases h
      rfl
  | noteError n =>
    simp only [run] at h
    split at h <;> cases h
    rfl
  | clearErrors v =>
    simp only [run] at h
    split at h <;> cases h
    rfl
  | keysOf versions => rw [outcome_of_ask h]; rfl
  | find key => rw [outcome_of_ask h]; rfl
  | activitiesOf version => rw [outcome_of_ask h]; rfl
  | listActivities f p => rw [outcome_of_ask h]; rfl
  | listErrors f p => rw [outcome_of_ask h]; rfl

/-- **A command that fails leaves the store as it was.** -/
theorem next_of_failed (h : failed (c.result s time) = true) : c.next s time = s := by
  unfold result at h
  cases hrun : c.run s time with
  | error f => exact next_of_error hrun
  | ok r =>
    obtain ⟨t, o⟩ := r
    rw [hrun] at h
    have ho : o.succeeds = false := by simpa [failed, Except.map] using h
    by_cases hc : ∃ r, c = .request r
    · obtain ⟨r, rfl⟩ := hc
      rw [next_of_ok hrun]
      obtain ⟨rfl, rfl⟩ : (Service.respond s time r).1 = t ∧
          .replied (Service.respond s time r).2 = o := Prod.mk.inj (Except.ok.inj hrun)
      exact Service.store_of_failed (not_lt.mp (of_decide_eq_false ho))
    · push Not at hc
      rw [succeeds_of_run hc hrun] at ho
      cases ho

/-- A list in which one item does not pass its check fails as a whole. -/
theorem run_of_refused_transaction (hmem : v ∈ vs) (hv : (Transaction.check .direct).Refuses v)
    (s : Store) (time : ℕ) :
    ∃ issues, (Command.processBatch vs).run s time = .error (.invalid issues) := by
  obtain ⟨issues, hissues⟩ := checkEach_refuses hv hmem
  exact ⟨issues, by simp only [run, hissues]⟩

theorem run_of_refused_activity (hmem : v ∈ vs) (hv : Activity.check.Refuses v) (s : Store)
    (time : ℕ) : ∃ issues, (Command.insertActivities vs).run s time = .error (.invalid issues) := by
  obtain ⟨issues, hissues⟩ := checkEach_refuses hv hmem
  exact ⟨issues, by simp only [run, hissues]⟩

end Command

/-! ### Runs -/

namespace Session

variable {s : Store} {time k : ℕ} {cs : List Command}

/-- The results of a run are those of its commands, each on what the ones before it left. -/
theorem results_getElem? (s : Store) (time : ℕ) (cs : List Command) (k : ℕ) :
    (runFrom s time cs).2[k]? =
      cs[k]?.map fun c => c.result (storeFrom s time (cs.take k)) (time + k) := by
  induction cs generalizing s time k with
  | nil => rfl
  | cons c cs ih =>
    have hresults : (runFrom s time (c :: cs)).2 =
        c.result s time :: (runFrom (c.next s time) (time + 1) cs).2 := by
      rw [runFrom, Command.result]
      cases hrun : c.run s time with
      | ok r =>
        rw [Command.next_of_ok (t := r.1) (o := r.2) hrun]
        rfl
      | error f =>
        rw [Command.next_of_error hrun]
        rfl
    rw [hresults]
    cases k with
    | zero => rfl
    | succ k =>
      rw [List.getElem?_cons_succ, List.getElem?_cons_succ, ih, List.take_succ_cons, storeFrom_cons,
        Nat.add_assoc, Nat.add_comm 1]

theorem storeFrom_take_succ {c : Command} (h : cs[k]? = some c) (s : Store) (time : ℕ) :
    storeFrom s time (cs.take (k + 1)) = c.next (storeFrom s time (cs.take k)) (time + k) := by
  obtain ⟨hlt, -⟩ := List.getElem?_eq_some_iff.mp h
  rw [List.take_add_one, h, storeFrom_append, Option.toList_some, storeFrom_cons, List.length_take,
    Nat.min_eq_left hlt.le]
  rfl

/-- A command of a run that fails leaves the store as the ones before it left it. -/
theorem storeFrom_take_of_failed {r : Except Command.Fault Outcome}
    (h : (runFrom s time cs).2[k]? = some r) (hr : Command.failed r = true) :
    storeFrom s time (cs.take (k + 1)) = storeFrom s time (cs.take k) := by
  rw [results_getElem?] at h
  obtain ⟨c, hc, rfl⟩ := Option.map_eq_some_iff.mp h
  rw [storeFrom_take_succ hc]
  exact Command.next_of_failed hr

/-- **Nothing is kept of what fails.** In every run on every store, a command whose result is a fault
or a reply with a status of 400 or more leaves both the activities and the records of failures as the
commands before it left them. A list of transactions or of activities with an item that does not pass
its check, wherever it stands, is such a failure, and so is one in the body of a request. -/
theorem nothing_kept_of_failed (s : Store) (time : ℕ) (cs : List Command) :
    (∀ k r, (runFrom s time cs).2[k]? = some r → Command.failed r = true →
      storeFrom s time (cs.take (k + 1)) = storeFrom s time (cs.take k)) ∧
    (∀ vs, ∀ v ∈ vs, (Transaction.check .direct).Refuses v →
      (∃ issues, (Command.processBatch vs).run s time = .error (.invalid issues)) ∧
        (Command.processBatch vs).next s time = s) ∧
    (∀ vs, ∀ v ∈ vs, Activity.check.Refuses v →
      (∃ issues, (Command.insertActivities vs).run s time = .error (.invalid issues)) ∧
        (Command.insertActivities vs).next s time = s) ∧
    ∀ r items, r.Posts .ingest Service.batchItems items →
      ∀ item ∈ items, (Transaction.check .request).Refuses item →
        ∃ reply, (Command.request r).run s time = .ok (s, .replied reply) ∧
          (reply.status = 422 ∨ reply.status = 500) := by
  refine ⟨fun k r h hr => storeFrom_take_of_failed h hr, fun vs v hmem hv => ?_,
    fun vs v hmem hv => ?_, fun r items h item hmem hitem => ?_⟩
  · obtain ⟨issues, hrun⟩ := Command.run_of_refused_transaction hmem hv s time
    exact ⟨⟨issues, hrun⟩, Command.next_of_error hrun⟩
  · obtain ⟨issues, hrun⟩ := Command.run_of_refused_activity hmem hv s time
    exact ⟨⟨issues, hrun⟩, Command.next_of_error hrun⟩
  · obtain ⟨reply, hreply, hstatus⟩ := Service.respond_of_refused h hmem hitem s time
    exact ⟨reply, by simp only [Command.run, hreply], hstatus⟩

/-- A record of a failure is there. It stays there when the transaction comes again, with a time, in
front of an item that is no transaction. -/
theorem nothing_kept_of_empty_item :
    ∃ s r items item, s.errors.length = 1 ∧
      ((Command.processTransaction (Transaction.minting 1).toJson).next s 1).errors = [] ∧
      storeFrom s 1 [.processBatch [(Transaction.minting 1).toJson, .obj []]] = s ∧
      (Command.processBatch [(Transaction.minting 1).toJson, .obj []]).next s 1 = s ∧
      (Command.insertActivities [.obj []]).next s 1 = s ∧
      r.Posts .ingest Service.batchItems items ∧ item ∈ items ∧
      (Transaction.check .request).Refuses item ∧
      ∃ reply, (Command.request r).run s 1 = .ok (s, .replied reply) ∧
        (reply.status = 422 ∨ reply.status = 500) := by
  have hitem : (Transaction.check .direct).Refuses (.obj []) := ⟨_, rfl⟩
  have hactivity : Activity.check.Refuses (.obj []) := ⟨_, rfl⟩
  have hrefused : (Transaction.check .request).Refuses (.obj []) := ⟨_, rfl⟩
  have hpost : Request.Posts
      ⟨"POST", "/api/activities/ingest", [],
        some (Json.obj [("transactions", .arr [(Transaction.minting 1).toJson, .obj []])]).text⟩
      .ingest Service.batchItems [(Transaction.minting 1).toJson, .obj []] :=
    ⟨by decide, Request.verb_of_method rfl (by decide),
      Service.withBody_text (by decide) (by decide) rfl⟩
  let s := Store.empty.record (Refusal.noTimestamp.record (.untimely 1) 0)
  have hnext : ((Command.processTransaction (Transaction.minting 1).toJson).next s 1).errors = [] := by
    obtain ⟨a, time, -, hactivities⟩ := Transaction.exists_activities_of_minting 1
    have htakes : s.Takes [.minting 1] :=
      Store.takes_singleton _ (Transaction.storable_of_toRaw (by decide) rfl)
    rw [Command.next_of_takes (Command.delivers_toJson _) htakes, Store.takenIn_of_ok hactivities]
    rfl
  obtain ⟨hrun, hbatch, hinsert, hrequest⟩ :=
    nothing_kept_of_failed s 1 [.processBatch [(Transaction.minting 1).toJson, .obj []]]
  have hlast : Json.obj [] ∈ [(Transaction.minting 1).toJson, .obj []] :=
    List.mem_cons_of_mem _ (List.mem_singleton_self _)
  exact ⟨s, _, _, _, rfl, hnext, hrun 0 _ rfl rfl, (hbatch _ _ hlast hitem).2,
    (hinsert _ _ (List.mem_singleton_self _) hactivity).2, hpost, hlast, hrefused,
    hrequest _ _ hpost _ hlast hrefused⟩

end Session
end TokenLedger
