/-
# Searching for an address

The activities of an address are found under any of its spellings: what is stored and what is asked for
are brought into the canonical spelling alike. A search is answered with a page of the activities in
which the token left or reached the address (`Store.listActivities_address`), so two spellings of one
address get one answer. An activity that comes from an event concerns the account that emitted the
event, and the recipient whom it names, in the spellings of the transaction
(`Activity.concerns_account`, `Activity.concerns_recipient`).

Key definitions: `Activity.Concerns`, `Event.namedRecipient?`.
Key theorems: `Store.listActivities_address`, `Activity.concerns_account`,
`Activity.concerns_recipient`, `Session.exists_event_of_activity`, `Session.found_by_any_spelling`.
-/
import TokenLedger.Proofs.Service.Listings
import TokenLedger.Proofs.Session.Respelling
import TokenLedger.Proofs.Session.Rows
import TokenLedger.Proofs.Store.Paging

namespace TokenLedger

/-! ### Whom an activity concerns -/

/-- The recipient whom a transfer names, in the spelling of the payload. -/
def Event.namedRecipient? : Event → Option String
  | .offer t => some t.recipient
  | .cancelOffer t => some t.recipient
  | .claim t => some t.recipient
  | _ => none

namespace Activity

/-- The token left or reached an address, in whatever spelling the address is given. -/
def Concerns (a : Activity) (address : String) : Prop :=
  a.sender = some (Address.canonical address) ∨ a.receiver = some (Address.canonical address)

instance (a : Activity) (address : String) : Decidable (a.Concerns address) :=
  inferInstanceAs (Decidable (_ ∨ _))

variable {version index : ℕ} {time : DateTime} {raw : RawEvent} {a : Activity} {e : Event}

/-- An activity concerns the account that its event came from: the token left it, unless it arrived
there. -/
theorem concerns_account (h : ofEvent version time index raw e = .ok a) :
    a.Concerns raw.account.shown := by
  obtain ⟨i, text, -, -, rfl⟩ := exists_of_ofEvent h
  cases e with
  | deposit t n => exact .inr rfl
  | _ => exact .inl rfl

/-- An activity concerns the recipient whom its event names. -/
theorem concerns_recipient (h : ofEvent version time index raw e = .ok a) {recipient : String}
    (hrecipient : e.namedRecipient? = some recipient) : a.Concerns recipient := by
  obtain ⟨i, text, -, -, rfl⟩ := exists_of_ofEvent h
  cases e with
  | offer t => cases hrecipient; exact .inr rfl
  | cancelOffer t => cases hrecipient; exact .inr rfl
  | claim t => cases hrecipient; exact .inr rfl
  | _ => cases hrecipient

end Activity

/-- The account of a token event that can be written is text. -/
theorem RawEvent.exists_account_of_writable {raw : RawEvent} {e : Event} (h : raw.writable = true)
    (he : Event.decode raw.tag raw.payload = .ok (some e)) :
    ∃ account, raw.account = .text account := by
  obtain ⟨kind, v, hreads, -⟩ := Event.exists_reads_of_decode he
  unfold writable at h
  rw [Event.kindOf?_eq_some_iff.mpr hreads.tag] at h
  cases haccount : raw.account with
  | text account => exact ⟨account, rfl⟩
  | unreadable codes =>
    rw [haccount] at h
    cases h

/-! ### Pages of a search -/

namespace Store

variable {s : Store} {address address' : String}

/-- The activities that concern an address, in the order of their places. -/
def found (s : Store) (address : String) : List Activity :=
  sortedBy Activity.order (s.activities.filter fun a => a.Concerns address)

/-- What a search lists is a page of what was found. -/
theorem listActivities_address (s : Store) (address : String) (p : Page) :
    s.listActivities ⟨none, none, some (Address.canonical address)⟩ p =
      .ofPage p (s.found address) := by
  have hne : (Address.canonical address).isEmpty = false := by
    rw [Address.canonical, Address.canonicalChars]
    simp
  have hpasses : ∀ a : Activity,
      ActivityFilter.passes ⟨none, none, some (Address.canonical address)⟩ a =
        decide (a.Concerns address) := by
    intro a
    rw [Bool.eq_iff_iff, decide_eq_true_iff]
    simp [ActivityFilter.passes, wished, hne, Activity.Concerns]
  rw [listActivities, found, List.filter_congr fun a _ => hpasses a]

theorem found_perm (s : Store) (address : String) :
    (s.found address).Perm (s.activities.filter fun a => a.Concerns address) :=
  sortedBy_perm _ _

/-- What was found is in the order of the places, no two activities in one place. -/
theorem pairwise_found (hkeys : s.keys.Nodup) (address : String) :
    (s.found address).Pairwise fun a b => a.place < b.place :=
  pairwise_place_sortedBy hkeys List.filter_sublist

theorem found_congr (h : Address.canonical address = Address.canonical address') (s : Store) :
    s.found address = s.found address' := by
  have hconcerns : ∀ a : Activity, a.Concerns address ↔ a.Concerns address' := by
    intro a
    rw [Activity.Concerns, Activity.Concerns, h]
  rw [found, found, List.filter_congr fun a _ => decide_eq_decide.mpr (hconcerns a)]

end Store

namespace Service

variable {r : Request} {address : String} {limit offset : ℤ}

/-- **A search is answered with its page of what was found**, and with the number of all. -/
theorem respond_of_search_found (h : r.Searches address limit offset) (hne : address ≠ "")
    (s : Store) (time : ℕ) :
    respond s time r = (s, if Whole.fits offset then
        activitiesReply (((s.found address).drop offset.toNat).take limit.toNat)
          (s.found address).length limit offset
      else fail) := by
  have hlimit : ¬ limit < 0 := by
    have := (mem_of_askedLimit h.limit).1
    omega
  rw [respond_of_search h hne, Store.listActivities_address]
  simp only [Listing.ofPage, Page.of, Option.getD_some, if_neg hlimit]

end Service

/-! ### Sessions -/

namespace Session

variable {cs : List Command} {a : Activity}

/-- **Each activity of a session comes from an event of a transaction that was delivered**, unless a
command inserts activities as such. The account that emitted the event is text. -/
theorem exists_event_of_activity (hcs : ∀ c ∈ cs, ∀ vs, c ≠ .insertActivities vs)
    (h : a ∈ (after cs).activities) :
    ∃ c ∈ cs, ∃ ts t raw account time index e, c.Delivers ts ∧ t ∈ ts ∧ raw ∈ t.events.getD [] ∧
      raw.account = .text account ∧ Event.decode raw.tag raw.payload = .ok (some e) ∧
      Activity.ofEvent t.version time index raw e = .ok a := by
  obtain ⟨c, hc, hbrings⟩ := exists_brings h
  cases hbrings with
  | inserted hvs ha => exact absurd rfl (hcs _ hc _)
  | @delivered _ ts t hdelivers ht hsound ha =>
    obtain ⟨k, raw, time, -, hk, hactivity⟩ := Transaction.exists_event_of_mem_given ha
    obtain ⟨e, he, hevent⟩ := Activity.ofRawEvent_eq_ok hactivity
    have hraw := List.mem_of_getElem? hk
    have hwritable : t.writable = true := hsound.2 (Transaction.isSome_given? ha)
    obtain ⟨account, haccount⟩ :=
      RawEvent.exists_account_of_writable (List.all_eq_true.mp hwritable raw hraw) he
    exact ⟨c, hc, ts, t, raw, account, time.dateTime, k, e, hdelivers, ht, hraw, haccount, he, hevent⟩

/-- **Activities are found by any spelling of their addresses.** In every session that inserts none as
such, a search for an address that is not empty pages through the activities in which the token left or
reached the address, in the order of their places, whatever the limit, and whatever the offset that
fits the store; for an offset that does not fit the service fails. Two spellings of one address get
one answer. Each activity comes from an event, and concerns the account that emitted the event and the
recipient whom the event names, in the spellings of the transaction. -/
theorem found_by_any_spelling (cs : List Command) (hcs : ∀ c ∈ cs, ∀ vs, c ≠ .insertActivities vs) :
    (∀ address, address ≠ "" → ∃ rows : List Activity,
      rows.Perm ((after cs).activities.filter fun a => a.Concerns address) ∧
      rows.Pairwise (fun a b => a.place < b.place) ∧
      ∀ r limit offset, Request.Searches r address limit offset → ∀ time,
        Service.respond (after cs) time r = (after cs, if Whole.fits offset then
            Service.activitiesReply ((rows.drop offset.toNat).take limit.toNat) rows.length limit offset
          else Service.fail)) ∧
    (∀ address address', address ≠ "" → address' ≠ "" →
      Address.canonical address = Address.canonical address' →
      ∀ r r' limit offset, Request.Searches r address limit offset →
        Request.Searches r' address' limit offset → ∀ time,
          Service.respond (after cs) time r = Service.respond (after cs) time r') ∧
    ∀ a ∈ (after cs).activities, ∃ c ∈ cs, ∃ ts t raw account e,
      c.Delivers ts ∧ t ∈ ts ∧ raw ∈ t.events.getD [] ∧ raw.account = .text account ∧
      Event.decode raw.tag raw.payload = .ok (some e) ∧
      a.key = ⟨t.version, Address.canonical account, raw.creationNumber, raw.sequenceNumber⟩ ∧
      a.Concerns account ∧ ∀ recipient, e.namedRecipient? = some recipient → a.Concerns recipient := by
  refine ⟨fun address hne => ?_,
    fun address address' hne hne' hsame r r' limit offset hr hr' time => ?_, fun a ha => ?_⟩
  · exact ⟨(after cs).found address, Store.found_perm _ _,
      Store.pairwise_found (nodup_keys_after cs) address,
      fun r limit offset hr time => Service.respond_of_search_found hr hne _ time⟩
  · rw [Service.respond_of_search_found hr hne, Service.respond_of_search_found hr' hne',
      Store.found_congr hsame]
  · obtain ⟨c, hc, ts, t, raw, account, time, index, e, hdelivers, ht, hraw, haccount, he, hevent⟩ :=
      exists_event_of_activity hcs ha
    have hshown : raw.account.shown = account := by rw [haccount]; rfl
    have hkey : a.key = ⟨t.version, Address.canonical account, raw.creationNumber,
        raw.sequenceNumber⟩ := by
      obtain ⟨i, text, -, -, rfl⟩ := Activity.exists_of_ofEvent hevent
      rw [hshown]
    refine ⟨c, hc, ts, t, raw, account, e, hdelivers, ht, hraw, haccount, he, hkey, ?_, ?_⟩
    · exact hshown ▸ Activity.concerns_account hevent
    · exact fun recipient hrecipient => Activity.concerns_recipient hevent hrecipient

/-- The request for the activities of an address from an offset on. -/
def searching (address offset : String) : Request :=
  ⟨"GET", "/api/activities", [("address", address), ("offset", offset)], none⟩

/-- An offer is found by its recipient, in capital digits without a mark. -/
theorem found_by_capitals :
    (searching "AB " "0").Searches "AB " 50 0 ∧
    ∃ a, (after [.processTransaction (offering "0x1" "0x1" "0xab").toJson]).activities = [a] ∧
      a.Concerns "0xab" ∧
      Service.respond (after [.processTransaction (offering "0x1" "0x1" "0xab").toJson]) 1
          (searching "AB " "0") =
        (after [.processTransaction (offering "0x1" "0x1" "0xab").toJson],
          Service.activitiesReply [a] 1 50 0) := by
  have hsearch : (searching "AB " "0").Searches "AB " 50 0 :=
    ⟨by decide, Request.verb_of_method rfl (by decide), by decide, by decide, by decide, by decide,
      by decide⟩
  have hinserts : ∀ c ∈ [Command.processTransaction (offering "0x1" "0x1" "0xab").toJson], ∀ vs,
      c ≠ .insertActivities vs := by
    intro c hc vs
    rw [List.mem_singleton.mp hc]
    nofun
  obtain ⟨a, raw, time, hevent, hactivities⟩ := exists_activities_of_offering "0x1" "0x1" "0xab"
  have hconcerns : a.Concerns "0xab" := Activity.concerns_recipient hevent rfl
  have ha : (after [.processTransaction (offering "0x1" "0x1" "0xab").toJson]).activities = [a] := by
    have htakes : Store.empty.Takes [offering "0x1" "0x1" "0xab"] :=
      Store.takes_singleton _ (Transaction.storable_of_toRaw (by decide) rfl)
    rw [activities_after_singleton (Command.delivers_toJson _) htakes, List.flatMap_singleton,
      Transaction.given_of_ok hactivities]
    rfl
  obtain ⟨hfound, -⟩ := found_by_any_spelling _ hinserts
  have hcanonical : Address.canonical "AB " = Address.canonical "0xab" := by decide
  obtain ⟨rows, hperm, -, hreply⟩ := hfound "AB " (by decide)
  have hrows : rows = [a] := by
    have hselected : a.Concerns "AB " := by
      rw [Activity.Concerns, hcanonical]
      exact hconcerns
    rw [ha, List.filter_singleton, decide_eq_true hselected, cond_true] at hperm
    exact List.perm_singleton.mp hperm
  refine ⟨hsearch, a, ha, hconcerns, ?_⟩
  rw [hreply _ _ _ hsearch, hrows]
  rfl

/-- The offset may be any natural by its check. One that does not fit the store makes the service
fail. -/
theorem search_fails_of_offset :
    (searching "0x1" "9223372036854775808").Searches "0x1" 50 (2 ^ 63) ∧
    Service.respond .empty 0 (searching "0x1" "9223372036854775808") = (.empty, Service.fail) := by
  have hsearch : (searching "0x1" "9223372036854775808").Searches "0x1" 50 (2 ^ 63) :=
    ⟨by decide, Request.verb_of_method rfl (by decide), by decide, by decide, by decide, by decide,
      by decide⟩
  refine ⟨hsearch, ?_⟩
  rw [Service.respond_of_search hsearch (by decide)]
  rfl

end Session
end TokenLedger
