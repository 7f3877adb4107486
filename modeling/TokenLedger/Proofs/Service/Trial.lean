/-
# A trial tells what taking in would do

A transaction on trial is answered with the activities that it gives, or with the reason why it is
refused, and nothing is stored. Posted as a batch of its own the same transaction is taken in by
other code, which answers with numbers only. Both come to the same end: there are three
(`Service.trial_cases`), whatever the store holds, and each of them is told by either answer.

Where rows are compared, it is in the form in which the service shows them.

Key definitions: `Transaction.NumbersFit`, `Service.rowsReply`, `Service.refusalReply`.
Key theorems: `Service.trial_cases`, `Activity.shown_rows`, `Service.trial_agrees`,
`Service.posts_trialOf`, `Service.posts_deliveryOf`.
-/
import TokenLedger.Proofs.Service.Bodies
import TokenLedger.Proofs.Transaction.Spelling

namespace TokenLedger

/-- All numbers of a transaction fit the store, those of the places of its events included. -/
structure Transaction.NumbersFit (t : Transaction) : Prop where
  version : Whole.fits t.version = true
  length : (t.events.getD []).length ≤ 2 ^ 63
  numbers : ∀ raw ∈ t.events.getD [],
    Whole.fits raw.creationNumber = true ∧ Whole.fits raw.sequenceNumber = true

theorem Transaction.NumbersFit.storable {t : Transaction} (h : t.NumbersFit)
    (hw : t.writable = true) : t.Storable :=
  ⟨h.version, hw, h.length, h.numbers⟩

/-! ### Rows as they are shown -/

namespace Activity

variable {a b : Activity} {as bs : List Activity}

/-- What is shown of an activity shows its key. -/
theorem key_of_toJson (h : a.toJson = b.toJson) : a.key = b.key := by
  simp only [toJson, toJsonWith, Json.obj.injEq, List.cons.injEq, Prod.mk.injEq, Json.whole.injEq,
    Json.str.injEq, RawText.text.injEq, true_and] at h
  obtain ⟨hversion, haccount, hcreation, hsequence, -⟩ := h
  calc a.key = ⟨a.key.version, a.key.account, a.key.creationNumber, a.key.sequenceNumber⟩ := rfl
    _ = ⟨b.key.version, b.key.account, b.key.creationNumber, b.key.sequenceNumber⟩ := by
      rw [hversion, haccount, hcreation, hsequence]
    _ = b.key := rfl

theorem mem_keys_of_shown (h : as.map toJson = bs.map toJson) (ha : a ∈ as) :
    ∃ b ∈ bs, b.key = a.key := by
  have hshown : a.toJson ∈ bs.map toJson := h ▸ List.mem_map_of_mem ha
  obtain ⟨b, hb, hjson⟩ := List.mem_map.mp hshown
  exact ⟨b, hb, key_of_toJson hjson⟩

/-- Lists that look alike have the first activity of a key look alike. -/
theorem find?_shown : ∀ {as bs : List Activity}, as.map toJson = bs.map toJson → ∀ k,
    (as.find? (·.key == k)).map toJson = (bs.find? (·.key == k)).map toJson
  | [], [], _, _ => rfl
  | [], _ :: _, h, _ => by cases h
  | _ :: _, [], h, _ => by cases h
  | a :: as, b :: bs, h, k => by
    rw [List.map_cons, List.map_cons] at h
    obtain ⟨hab, hrest⟩ := List.cons.inj h
    have hkey := key_of_toJson hab
    by_cases hk : b.key = k
    · rw [List.find?_cons_of_pos (by simp [hkey, hk]), List.find?_cons_of_pos (by simp [hk])]
      rw [Option.map_some, Option.map_some, hab]
    · rw [List.find?_cons_of_neg (by simp [hkey, hk]), List.find?_cons_of_neg (by simp [hk])]
      exact find?_shown hrest k

end Activity

namespace Service

variable {t : Transaction} {as : List Activity} {r : Refusal}

/-! ### The answer to a trial -/

/-- The answer that shows the activities of a transaction. -/
def rowsReply (version : ℕ) (rows : List Activity) : Reply :=
  succeed (.obj [("version", .whole version), ("activities", .arr (rows.map Activity.toJson))])

/-- The answer that tells why a transaction is refused. -/
def refusalReply (label message : String) : Reply :=
  refuse 422 (.obj [("error_type", .str label), ("message", .str message)])

theorem rowsReply_inj {v w : ℕ} {as bs : List Activity} (h : rowsReply v as = rowsReply w bs) :
    as.map Activity.toJson = bs.map Activity.toJson := by
  simp only [rowsReply, succeed, Reply.mk.injEq, Option.some.injEq, Json.obj.injEq,
    List.cons.injEq, Prod.mk.injEq, Json.arr.injEq, true_and, and_true] at h
  exact h.2

theorem refusalReply_inj {l m l' m' : String} (h : refusalReply l m = refusalReply l' m') :
    l = l' ∧ m = m' := by
  simpa only [refusalReply, refuse, Reply.mk.injEq, Option.some.injEq, Json.obj.injEq,
    List.cons.injEq, Prod.mk.injEq, Json.str.injEq, RawText.text.injEq, true_and, and_true] using h

/-- A report tells all numbers of a batch. -/
theorem report_inj {s s' : Store} {m n : Tally}
    (h : (s, succeed m.toJson) = (s', succeed n.toJson)) : s = s' ∧ m = n := by
  simp only [Prod.mk.injEq, succeed, Reply.mk.injEq, Option.some.injEq, Tally.toJson,
    Json.obj.injEq, List.cons.injEq, Json.whole.injEq, Int.ofNat_inj, true_and, and_true] at h
  obtain ⟨hs, htotal, hprocessed, herrors, hactivities, hinserted⟩ := h
  cases m
  cases n
  simp_all

/-- **The three ends of a transaction** whose numbers fit. It gives activities, which are shown and
can be taken in; or they can neither be shown nor taken in; or it is refused, which is told and
recorded. -/
theorem trial_cases (h : t.NumbersFit) :
    (∃ as, t.activities = .ok as ∧ normalize t = rowsReply t.version as ∧
      ∀ s : Store, s.Takes [t]) ∨
    (normalize t = fail ∧ ∀ s : Store, ¬ s.Takes [t]) ∨
    (∃ r, t.activities = .error (.refused r) ∧
      normalize t = refusalReply r.label (r.message t.version) ∧ ∀ s : Store, s.Takes [t]) := by
  rcases t.given_or_refused with ⟨as, has⟩ | ⟨r, hr⟩
  · have hgiven : t.given?.isSome = true := by
      rw [Transaction.given?_of_ok has]
      rfl
    by_cases hw : t.writable = true
    · refine .inl ⟨as, has, ?_, fun s => s.takes_of_storable fun u hu => ?_⟩
      · simp only [normalize, has, hw, if_true]
        rfl
      · rw [List.mem_singleton.mp hu]
        exact h.storable hw
    · refine .inr (.inl ⟨?_, fun s htakes => ?_⟩)
      · simp only [normalize, has, if_neg hw]
      · exact hw ((htakes.1 t (List.mem_singleton_self t)).2 hgiven)
  · have hgiven := Transaction.given?_of_refused hr
    refine .inr (.inr ⟨r, hr, ?_, fun s => ⟨fun u hu => ?_, ?_⟩⟩)
    · simp only [normalize, hr]
      rfl
    · rw [List.mem_singleton.mp hu]
      exact ⟨h.version, fun hsome => by rw [hgiven] at hsome; cases hsome⟩
    · rw [List.flatMap_singleton, Transaction.given_of_none hgiven]
      rfl

/-! ### Both answers -/

/-- The rows of a transaction are stored once it was taken in, unless others were in their place, and
its refusals are forgotten. -/
theorem rows_takenIn (s : Store) (time : ℕ) {rows : List Activity} (has : t.activities = .ok as)
    (hshown : rows.map Activity.toJson = as.map Activity.toJson) :
    (∀ a ∈ rows, a.key ∈ (s.takenIn time [t]).keys) ∧
    (∀ a ∈ rows, a.key ∉ s.keys → ((s.takenIn time [t]).find? a.key).map Activity.toJson =
      (rows.find? (·.key == a.key)).map Activity.toJson) ∧
    ∀ e ∈ (s.takenIn time [t]).errors, e.version ≠ some (t.version : ℤ) := by
  rw [Store.takenIn_of_ok has]
  refine ⟨fun a ha => ?_, fun a _ hnew => ?_, fun e he => ?_⟩
  · obtain ⟨b, hb, hkey⟩ := Activity.mem_keys_of_shown hshown ha
    rw [← hkey]
    exact Store.key_mem_keys_insert hb
  · have hfound : (s.insert as).1.find? a.key = as.find? (·.key == a.key) := by
      rw [Store.find?_insert, Store.find?_eq_none_iff.mpr hnew, Option.none_or]
    rw [Activity.find?_shown hshown, ← hfound]
    rfl
  · exact bne_iff_ne.mp (List.mem_filter.mp he).2

/-- **A trial tells what taking in would do.** It leaves the store as it was. It shows rows exactly if
the same transaction posted as a batch is processed without an error; then the batch counts as many
activities as rows were shown, every key of the rows is stored, one that was not stored before has
the first row of that key, and no record of a failure of the version is left. It tells a reason why
the transaction is refused exactly if the batch counts an error and inserts nothing, keeps the
activities, and adds one record of a failure, of that version and with that reason. -/
theorem trial_agrees (s : Store) (time time' : ℕ) {trial delivery : Request}
    (htrial : trial.Posts .normalize (Transaction.check .request) t)
    (hdelivery : delivery.Posts .ingest checkBatch [t]) (hfit : t.NumbersFit) :
    (respond s time trial).1 = s ∧
    ((∃ rows, (respond s time trial).2 = rowsReply t.version rows) ↔
      ∃ s' tally, respond s time' delivery = (s', succeed (Tally.toJson tally)) ∧
        tally.processed = 1 ∧ tally.errors = 0) ∧
    (∀ rows, (respond s time trial).2 = rowsReply t.version rows →
      ∃ s' inserted,
        respond s time' delivery = (s', succeed (Tally.toJson ⟨1, 1, 0, rows.length, inserted⟩)) ∧
        (∀ a ∈ rows, a.key ∈ s'.keys) ∧
        (∀ a ∈ rows, a.key ∉ s.keys → (s'.find? a.key).map Activity.toJson =
          (rows.find? (·.key == a.key)).map Activity.toJson) ∧
        ∀ e ∈ s'.errors, e.version ≠ some (t.version : ℤ)) ∧
    ∀ label message, (respond s time trial).2 = refusalReply label message ↔
      ∃ s' tally e, respond s time' delivery = (s', succeed (Tally.toJson tally)) ∧
        tally.errors = 1 ∧ tally.inserted = 0 ∧ s'.activities = s.activities ∧
        s'.errors = s.errors ++ [e] ∧ e.version = some (t.version : ℤ) ∧ e.label = label ∧
        e.message = some message := by
  have hbatch := respond_of_batch s time' hdelivery
  rw [respond_of_trial htrial]
  rcases trial_cases hfit with ⟨as, has, hreply, htakes⟩ | ⟨hreply, hnot⟩ | ⟨r, hr, hreply, htakes⟩
  · -- the transaction gives activities
    have hdone := (hbatch.resolve_right fun h => h.1 (htakes s)).2
    rw [Store.tally_of_ok has] at hdone
    refine ⟨rfl, ⟨fun _ => ⟨_, _, hdone, rfl, rfl⟩, fun _ => ⟨as, hreply⟩⟩, fun rows hrows => ?_,
      fun label message => ?_⟩
    · have hshown := rowsReply_inj (hrows.symm.trans hreply)
      have hlength : rows.length = as.length := by
        simpa only [List.length_map] using congrArg List.length hshown
      exact ⟨_, _, by rw [hdone, hlength], rows_takenIn s time' has hshown⟩
    · constructor
      · intro h
        rw [hreply] at h
        cases congrArg Reply.status h
      · rintro ⟨s', tally, e, h, herrors, -⟩
        obtain ⟨-, rfl⟩ := report_inj (hdone.symm.trans h)
        cases herrors
  · -- both requests fail
    have hdone := (hbatch.resolve_left fun h => hnot s h.1).2
    have hsilent : ∀ s' tally,
        respond s time' delivery ≠ (s', succeed (Tally.toJson tally)) := fun s' tally h => by
      rw [hdone] at h
      cases congrArg (fun r : Store × Reply => r.2.status) h
    rw [hreply]
    refine ⟨rfl, ⟨?_, ?_⟩, fun rows hrows => ?_, fun label message => ⟨fun h => ?_, ?_⟩⟩
    · rintro ⟨rows, hrows⟩
      cases congrArg Reply.status hrows
    · rintro ⟨s', tally, h, -⟩
      exact absurd h (hsilent s' tally)
    · cases congrArg Reply.status hrows
    · cases congrArg Reply.status h
    · rintro ⟨s', tally, e, h, -⟩
      exact absurd h (hsilent s' tally)
  · -- the transaction is refused
    have hdone := (hbatch.resolve_right fun h => h.1 (htakes s)).2
    rw [Store.tally_of_refused hr, Store.takenIn_of_refused hr] at hdone
    rw [hreply]
    refine ⟨rfl, ⟨?_, ?_⟩, fun rows hrows => ?_, fun label message => ?_⟩
    · rintro ⟨rows, hrows⟩
      cases congrArg Reply.status hrows
    · rintro ⟨s', tally, h, hprocessed, -⟩
      obtain ⟨-, rfl⟩ := report_inj (hdone.symm.trans h)
      cases hprocessed
    · cases congrArg Reply.status hrows
    · constructor
      · intro h
        obtain ⟨rfl, rfl⟩ := refusalReply_inj h
        exact ⟨_, _, r.record t time', hdone, rfl, rfl, rfl, rfl, rfl, rfl, rfl⟩
      · rintro ⟨s', tally, e, h, -, -, -, herrors, -, hlabel, hmessage⟩
        obtain ⟨rfl, -⟩ := report_inj (hdone.symm.trans h)
        obtain rfl : r.record t time' = e :=
          List.singleton_inj.mp (List.append_cancel_left herrors)
        rw [← hlabel, ← Option.some.inj hmessage]
        rfl

/-- The request that puts a transaction on trial. -/
def trialOf (t : Transaction) : Request :=
  ⟨"POST", "/api/activities/normalize", [], some t.toJson.text⟩

/-- The request that has a transaction taken in. -/
def deliveryOf (t : Transaction) : Request :=
  ⟨"POST", "/api/activities/ingest", [], some (Json.obj [("transactions", .arr [t.toJson])]).text⟩

/-- A transaction whose written form is plain can be put on trial. -/
theorem posts_trialOf {t : Transaction} (hplain : t.toJson.plain = true) :
    (trialOf t).Posts .normalize (Transaction.check .request) t := by
  have htarget : (trialOf t).target = .route .normalize := by
    rw [Request.target_congr (r := trialOf t)
      (q := ⟨"POST", "/api/activities/normalize", [], none⟩) rfl]
    decide
  have hheight : t.toJson.height ≤ bodyDialect.depth + 1 := t.height_toJson_le.trans (by decide)
  exact ⟨htarget, Request.verb_of_method rfl (by decide),
    withBody_text hplain hheight (Transaction.check_toJson .request t)⟩

/-- And it can be taken in. -/
theorem posts_deliveryOf {t : Transaction} (hplain : t.toJson.plain = true) :
    (deliveryOf t).Posts .ingest checkBatch [t] := by
  have hheight : t.toJson.height < bodyDialect.depth := t.height_toJson_le.trans_lt (by decide)
  have hcarries : (deliveryOf t).Carries [t.toJson] :=
    Request.carries_write (r := ⟨"POST", "/api/activities/ingest", [], none⟩)
      (by decide) (Request.verb_of_method rfl (by decide)) (by simp [hplain]) (by simp [hheight])
  exact posts_of_carries hcarries (Transaction.forall₂_check_toJson .request [t])

/-- A mint on trial and taken in by an empty store. -/
theorem trial_agrees_of_mint :
    (trialOf (.minting 7)).Posts .normalize (Transaction.check .request) (.minting 7) ∧
    (deliveryOf (.minting 7)).Posts .ingest checkBatch [.minting 7] ∧
    (Transaction.minting 7).NumbersFit ∧
    ∃ a s inserted, (respond .empty 0 (trialOf (.minting 7))).2 = rowsReply 7 [a] ∧
      respond .empty 1 (deliveryOf (.minting 7)) =
        (s, succeed (Tally.toJson ⟨1, 1, 0, 1, inserted⟩)) ∧
      a.key ∈ s.keys ∧ (s.find? a.key).map Activity.toJson = some a.toJson := by
  have hplain : (Transaction.minting 7).toJson.plain = true := by decide
  have htrial := posts_trialOf hplain
  have hdelivery := posts_deliveryOf hplain
  have hfit : (Transaction.minting 7).NumbersFit := ⟨by decide, by decide, by decide⟩
  refine ⟨htrial, hdelivery, hfit, ?_⟩
  obtain ⟨a, time, -, hactivities⟩ := Transaction.exists_activities_of_minting 7
  have hreply : (respond .empty 0 (trialOf (.minting 7))).2 = rowsReply 7 [a] := by
    have hwritable : (Transaction.minting 7).writable = true := by decide
    rw [respond_of_trial htrial, normalize, hactivities]
    simp only [hwritable, if_true]
    rfl
  obtain ⟨-, -, hrows, -⟩ := trial_agrees .empty 0 1 htrial hdelivery hfit
  obtain ⟨s, inserted, hdone, hkeys, hfirst, -⟩ := hrows [a] hreply
  refine ⟨a, s, inserted, hreply, hdone, hkeys a (List.mem_singleton_self a), ?_⟩
  have h := hfirst a (List.mem_singleton_self a) List.not_mem_nil
  simpa using h

end Service
end TokenLedger
