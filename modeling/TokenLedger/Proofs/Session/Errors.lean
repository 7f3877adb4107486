/-
# The records of failures of a session

Unless a command makes a record of a failure by itself, every record that a session holds documents the
refusal of a transaction that a command delivered (`Session.exists_documented`). A page of such records
is shown with the diagnostics of these transactions exactly if the tags of all their events are text
(`Session.diagnostics_listed_iff`). A tag with a surrogate without its partner makes the listing fail
(`Session.listing_fails_of_surrogate`).

Key definitions: `Command.Records`.
Key theorems: `Store.mem_errorsAfter`, `Command.Effect.mem_errors`, `Session.exists_documented`,
`Session.diagnostics_listed_iff`.
-/
import TokenLedger.Proofs.Ingest.Diagnostics
import TokenLedger.Proofs.Service.Listings
import TokenLedger.Proofs.Service.Trial
import TokenLedger.Proofs.Session.Redelivery

namespace TokenLedger

/-! ### Where records come from -/

theorem Transaction.mem_mark {t : Transaction} {time : ℕ} {es : List ErrorRecord} {e : ErrorRecord}
    (h : e ∈ t.mark time es) :
    e ∈ es ∨ ∃ r, t.activities = .error (.refused r) ∧ e = r.record t time := by
  rcases t.given_or_refused with ⟨as, has⟩ | ⟨r, hr⟩
  · rw [mark_of_ok has] at h
    exact .inl (List.mem_filter.mp h).1
  · rw [mark_of_refused hr] at h
    exact (List.mem_append.mp h).imp_right fun he => ⟨r, hr, List.mem_singleton.mp he⟩

/-- A record that is there after transactions were tried was there before, or documents one of them. -/
theorem Store.mem_errorsAfter {time : ℕ} {e : ErrorRecord} : ∀ {ts : List Transaction}
    {es : List ErrorRecord}, (∀ t ∈ ts, Whole.fits t.version = true) → e ∈ errorsAfter time es ts →
    e ∈ es ∨ ∃ t ∈ ts, e.Documents t
  | [], _, _, h => .inl h
  | t :: ts, es, hfits, h => by
    obtain ⟨ht, hts⟩ := List.forall_mem_cons.mp hfits
    rcases mem_errorsAfter hts h with hmark | ⟨u, hu, hdoc⟩
    · refine (Transaction.mem_mark hmark).imp_right ?_
      rintro ⟨r, hr, he⟩
      exact ⟨t, List.mem_cons_self, ht, r, time, hr, he⟩
    · exact .inr ⟨u, List.mem_cons_of_mem t hu, hdoc⟩

namespace Command

variable {c : Command} {e : ErrorRecord}

/-- A command brings a record of a failure: it makes it by itself, or the record documents a
transaction that the command delivers. -/
inductive Records (e : ErrorRecord) : Command → Prop where
  | noted (n : ErrorNote) : Records e (.noteError n)
  | delivered {c : Command} {ts : List Transaction} {t : Transaction} (hc : c.Delivers ts)
    (ht : t ∈ ts) (he : e.Documents t) : Records e c

/-- A record that is there after a command was there before, or the command brings it. -/
theorem Effect.mem_errors {s s' : Store} {time : ℕ} (h : Effect s time c s') (he : e ∈ s'.errors) :
    e ∈ s.errors ∨ c.Records e := by
  cases h with
  | delivered hc h =>
    refine (Store.mem_errorsAfter (fun t ht => (h.1 t ht).1) he).imp_right ?_
    rintro ⟨t, ht, hdoc⟩
    exact .delivered hc ht hdoc
  | inserted hvs h =>
    rw [Store.insert_eq] at he
    exact .inl he
  | noted n e' => exact .inr (.noted n)
  | cleared v => exact .inl (List.mem_filter.mp he).1
  | unchanged c => exact .inl he

end Command

namespace Session

variable {cs : List Command} {e : ErrorRecord}

/-- **Each record of a failure documents a transaction that was delivered**, unless a command makes
records by itself. -/
theorem exists_documented (hcs : ∀ c ∈ cs, ∀ n, c ≠ .noteError n) (h : e ∈ (after cs).errors) :
    ∃ c ∈ cs, ∃ ts t, c.Delivers ts ∧ t ∈ ts ∧ e.Documents t := by
  have hrecords := (mem_storeFrom Store.errors (Command.Records e) (fun c _ s time he => by
    exact (c.effect_next s time).mem_errors he) h).resolve_left List.not_mem_nil
  obtain ⟨c, hc, hbrings⟩ := hrecords
  cases hbrings with
  | noted n => exact absurd rfl (hcs _ hc n)
  | delivered hdelivers ht he => exact ⟨c, hc, _, _, hdelivers, ht, he⟩

end Session

/-- A transaction without a time, of one event with a tag. -/
def Transaction.tagged (tag : RawText) : Transaction :=
  { untimely 1 with events := some [{ Event.toRaw Event.minted with tag := tag }] }

/-! ### Pages of records -/

namespace Service

variable {e : ErrorRecord} {t : Transaction} {es : List ErrorRecord} {ts : List Transaction}

/-- A record is shown with the diagnostics of its transaction exactly if these are text. -/
theorem shownError_iff (h : e.Documents t) :
    shownError e = some (e.toJsonWith t.diagnostics) ↔ ∀ tag ∈ t.tags, tag.readable = true := by
  rw [← shownDiagnostics_iff h, shownError, Option.map_eq_some_iff]
  constructor
  · rintro ⟨d, hd, heq⟩
    have hsame : d = t.diagnostics := by simpa [ErrorRecord.toJsonWith] using heq
    rw [hd, hsame]
  · intro hd
    exact ⟨_, hd, rfl⟩

theorem mapM_shownError_iff (h : List.Forall₂ ErrorRecord.Documents es ts) :
    es.mapM shownError = some (List.zipWith (fun e t => e.toJsonWith t.diagnostics) es ts) ↔
      ∀ t ∈ ts, ∀ tag ∈ t.tags, tag.readable = true := by
  induction h with
  | nil => simp
  | @cons e t es ts he _ ih =>
    rw [List.forall_mem_cons, ← shownError_iff he, ← ih, List.zipWith_cons_cons, List.mapM_cons]
    simp [Option.bind_eq_some_iff]

end Service

/-- The members of a value that is an object. -/
def Json.members? : Json → Option Json.Members
  | .obj ms => some ms
  | _ => none

theorem Json.eq_obj_of_members? {v : Json} {ms : Json.Members} (h : v.members? = some ms) :
    v = .obj ms := by
  cases v with
  | obj ns =>
    cases h
    rfl
  | null | bool | whole | float | str | arr => cases h

namespace Session

/-- **Which pages of records are shown in full.** In every session in which no command makes records
by itself, each record documents the refusal of a transaction that was delivered. A request for a page
of records, with values that pass their checks, is answered with the diagnostics of these
transactions, each as the object that it was written as, exactly if the offset fits the store and the
tags of all events are text. -/
theorem diagnostics_listed_iff (cs : List Command) (hcs : ∀ c ∈ cs, ∀ n, c ≠ .noteError n) :
    (∀ e ∈ (after cs).errors, ∃ c ∈ cs, ∃ ts t, c.Delivers ts ∧ t ∈ ts ∧ e.Documents t) ∧
    ∀ r f limit offset, Request.AsksForErrors r f limit offset →
      ∀ time ts, List.Forall₂ ErrorRecord.Documents
          ((after cs).listErrors f ⟨some limit, some offset⟩).rows ts →
        (Service.respond (after cs) time r = (after cs, Service.errorsReply
            (List.zipWith (fun e t => e.toJsonWith t.diagnostics)
              ((after cs).listErrors f ⟨some limit, some offset⟩).rows ts)
            ((after cs).listErrors f ⟨some limit, some offset⟩).total limit offset) ↔
          Whole.fits offset = true ∧ ∀ t ∈ ts, ∀ tag ∈ t.tags, tag.readable = true) := by
  refine ⟨fun e he => exists_documented hcs he, fun r f limit offset hr time ts hts => ?_⟩
  rw [Service.respond_of_errors hr, ← Service.mapM_shownError_iff hts]
  by_cases hoffset : Whole.fits offset = true
  · rw [if_pos hoffset]
    cases ((after cs).listErrors f ⟨some limit, some offset⟩).rows.mapM Service.shownError with
    | none => simp [Service.errorsReply, Service.succeed, Service.fail]
    | some rows => simp [Service.errorsReply, Service.succeed, hoffset]
  · rw [if_neg hoffset]
    simp [Service.errorsReply, Service.succeed, Service.fail, hoffset]

/-- The session in which a transaction without a time and with an event of this tag is posted. -/
def refusing (tag : RawText) : List Command :=
  [.request (Service.deliveryOf (.tagged tag))]

/-- The request for the newest records from an offset on. -/
def errorsFrom (offset : String) : Request :=
  ⟨"GET", "/api/errors", [("offset", offset)], none⟩

theorem asksForErrors_zero : (errorsFrom "0").AsksForErrors ⟨none, none⟩ 50 0 :=
  ⟨by decide, Request.verb_of_method rfl (by decide), by decide, by decide, by decide, by decide⟩

/-- What is posted is refused and leaves a record. -/
theorem after_refusing {tag : RawText} (h : (Service.deliveryOf (.tagged tag)).Posts .ingest
    Service.checkBatch [.tagged tag]) :
    after (refusing tag) = Store.empty.record (Refusal.noTimestamp.record (.tagged tag) 0) := by
  have hrefused : (Transaction.tagged tag).activities = .error (.refused .noTimestamp) := rfl
  have htakes : Store.empty.Takes [.tagged tag] := by
    refine ⟨fun t ht => ?_, ?_⟩
    · rw [List.mem_singleton.mp ht]
      refine ⟨show Whole.fits 1 = true from by decide, fun hgiven => ?_⟩
      rw [Transaction.given?_of_refused hrefused] at hgiven
      cases hgiven
    · rw [List.flatMap_singleton, Transaction.given_of_none (Transaction.given?_of_refused hrefused)]
      rfl
  have hnext : after (refusing tag) = Store.empty.takenIn 0 [.tagged tag] :=
    after_singleton (.posted h) htakes
  rw [hnext, Store.takenIn_of_refused hrefused]

theorem listErrors_of_one (e : ErrorRecord) :
    (Store.empty.record e).listErrors ⟨none, none⟩ ⟨some 50, some 0⟩ = ⟨[e], 1⟩ := by
  have hfilter : (Store.empty.record e).errors.filter (ErrorFilter.passes ⟨none, none⟩) = [e] := rfl
  rw [Store.listErrors, hfilter, sortedBy, List.mergeSort_singleton]
  rfl

/-- A tag with a quote, a backslash and a character of two units is shown as it is. -/
theorem diagnostics_listed_of_escapes :
    (∀ c ∈ refusing "\"\\😀", ∀ n, c ≠ .noteError n) ∧
    (errorsFrom "0").AsksForErrors ⟨none, none⟩ 50 0 ∧
    ∃ e, (after (refusing "\"\\😀")).errors = [e] ∧ e.Documents (.tagged "\"\\😀") ∧
      Service.respond (after (refusing "\"\\😀")) 1 (errorsFrom "0") =
        (after (refusing "\"\\😀"), Service.errorsReply
          [e.toJsonWith (Transaction.tagged "\"\\😀").diagnostics] 1 50 0) := by
  have hnoted : ∀ c ∈ refusing "\"\\😀", ∀ n, c ≠ .noteError n := by
    intro c hc n
    rw [List.mem_singleton.mp hc]
    nofun
  have hpost : (Service.deliveryOf (.tagged "\"\\😀")).Posts .ingest Service.checkBatch
      [.tagged "\"\\😀"] := Service.posts_deliveryOf (by decide)
  have hstore := after_refusing hpost
  have hdoc : (Refusal.noTimestamp.record (.tagged "\"\\😀") 0).Documents (.tagged "\"\\😀") :=
    ⟨by decide, .noTimestamp, 0, rfl, rfl⟩
  have hlisting := listErrors_of_one (Refusal.noTimestamp.record (.tagged "\"\\😀") 0)
  rw [← hstore] at hlisting
  obtain ⟨-, hlisted⟩ := diagnostics_listed_iff (refusing "\"\\😀") hnoted
  have hreply := hlisted (errorsFrom "0") ⟨none, none⟩ 50 0 asksForErrors_zero 1 [.tagged "\"\\😀"]
  rw [hlisting] at hreply
  exact ⟨hnoted, asksForErrors_zero, _, by rw [hstore]; rfl, hdoc,
    (hreply (.cons hdoc .nil)).mpr ⟨by decide, by decide⟩⟩

/-- A tag may be a surrogate without its partner. Then the service cannot show the newest records.
Nor can it if the offset, which may be any natural, does not fit the store. -/
theorem listing_fails_of_surrogate :
    ((∀ c ∈ refusing (.unreadable [0xD800]), ∀ n, c ≠ .noteError n) ∧
      (errorsFrom "0").AsksForErrors ⟨none, none⟩ 50 0 ∧
      Service.respond (after (refusing (.unreadable [0xD800]))) 1 (errorsFrom "0") =
        (after (refusing (.unreadable [0xD800])), Service.fail)) ∧
    (errorsFrom "9223372036854775808").AsksForErrors ⟨none, none⟩ 50 (2 ^ 63) ∧
      Service.respond .empty 0 (errorsFrom "9223372036854775808") = (.empty, Service.fail) := by
  have hpost : (Service.deliveryOf (.tagged (.unreadable [0xD800]))).Posts .ingest Service.checkBatch
      [.tagged (.unreadable [0xD800])] :=
    ⟨by decide, Request.verb_of_method rfl (by decide),
      Service.withBody_ofList (a := '\x7b') (b := '"') (by decide) (by decide) (by decide +kernel)⟩
  have hhuge : (errorsFrom "9223372036854775808").AsksForErrors ⟨none, none⟩ 50 (2 ^ 63) :=
    ⟨by decide, Request.verb_of_method rfl (by decide), by decide, by decide, by decide, by decide⟩
  have hstore := after_refusing hpost
  refine ⟨⟨?_, asksForErrors_zero, ?_⟩, hhuge, ?_⟩
  · intro c hc n
    rw [List.mem_singleton.mp hc]
    nofun
  · have hread : (((Json.readCharacters Service.dialect
        (Transaction.tagged (.unreadable [0xD800])).diagnostics.write).toOption.bind
          Json.members?).map fun ms => (Service.shownMembers ms).isNone) = some true := by
      decide +kernel
    obtain ⟨ms, hms, hhidden⟩ := Option.map_eq_some_iff.mp hread
    obtain ⟨v, hv, hobject⟩ := Option.bind_eq_some_iff.mp hms
    obtain rfl : v = .obj ms := Json.eq_obj_of_members? hobject
    have htext : Json.read Service.dialect
        (Transaction.tagged (.unreadable [0xD800])).diagnostics.text = .ok (.obj ms) := by
      rw [Json.read, Json.text, String.toList_ofList, eq_ok_of_toOption hv]
    have hnone : Service.shownError
        (Refusal.noTimestamp.record (.tagged (.unreadable [0xD800])) 0) = none := by
      rw [Service.shownError, Service.shownDiagnostics_of_read rfl htext,
        Option.isNone_iff_eq_none.mp hhidden]
      rfl
    rw [hstore, Service.respond_of_errors asksForErrors_zero, listErrors_of_one, List.mapM_cons, hnone]
    rfl
  · rw [Service.respond_of_errors hhuge]
    rfl

end Session
end TokenLedger
