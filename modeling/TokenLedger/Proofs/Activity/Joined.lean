/-
# Transactions with joined events

The events of a transaction are taken one after the other. So the events of two transactions, joined,
give what the first transaction gives and then what the second gives, with each index further on by the
number of events of the first (`Transaction.activities_append`). An event that is no token event gives
nothing and stands in no one's way, but it counts: the indices are the places of the token events
among all of them (`Activity.map_index_ofEvents`). The first token event whose payload does not fit
decides how the transaction fails (`Activity.ofEvents_eq_error_iff`), and then nothing is given.

Key definitions: `RawEvent.OfToken`, `Transaction.ofUser`, `Activity.moved`.
Key theorems: `Event.decode_of_not_ofToken`, `Activity.ofEvents_add`, `Activity.ofEvents_append`,
`Activity.map_index_ofEvents`, `Activity.ofEvents_eq_error_iff`, `Transaction.activities_append`,
`Transaction.exists_places`, `Transaction.activities_eq_error_iff`,
`Transaction.activities_of_joined`.
-/
import TokenLedger.Proofs.Activity.Given

namespace TokenLedger

/-- The tag of an event is that of a kind of token events. -/
def RawEvent.OfToken (raw : RawEvent) : Prop :=
  ∃ kind : EventKind, raw.tag = .text kind.tag

/-- The transaction of a user that emitted given events at a time. -/
def Transaction.ofUser (version : ℕ) (time : Timestamp) (events : List RawEvent) : Transaction :=
  ⟨version, some time, .user, some events⟩

/-- The activity with its place a number of events further on. -/
def Activity.moved (n : ℕ) (a : Activity) : Activity :=
  { a with index := a.index.map (· + (n : ℤ)) }

section

variable {raw : RawEvent}

theorem RawEvent.ofToken_iff : raw.OfToken ↔ (Event.kindOf? raw.tag).isSome = true := by
  rw [Option.isSome_iff_exists]
  exact exists_congr fun _ => Event.kindOf?_eq_some_iff.symm

instance (raw : RawEvent) : Decidable raw.OfToken :=
  decidable_of_iff _ RawEvent.ofToken_iff.symm

/-- What an event that fits its tag gives shows whether the tag is that of a token event. -/
theorem Event.isSome_decode {o : Option Event} (h : decode raw.tag raw.payload = .ok o) :
    o.isSome = true ↔ raw.OfToken := by
  rw [RawEvent.ofToken_iff]
  unfold decode at h
  split at h
  · rename_i hkind
    cases h
    simp [hkind]
  · rename_i kind hkind
    split at h
    · cases h
      simp [hkind]
    · cases h

/-- **Another event is nothing**, whatever its payload. -/
theorem Event.decode_of_not_ofToken (h : ¬ raw.OfToken) : decode raw.tag raw.payload = .ok none := by
  rw [RawEvent.ofToken_iff, Option.not_isSome_iff_eq_none] at h
  exact decode_of_kindOf?_eq_none h raw.payload

/-- An event whose payload does not fit its tag is a token event. -/
theorem Event.ofToken_of_malformed {m : Malformed} (h : decode raw.tag raw.payload = .error m) :
    raw.OfToken := by
  by_contra hnot
  cases h.symm.trans (decode_of_not_ofToken hnot)

end

namespace Activity

variable {version start index : ℕ} {time : DateTime} {raw : RawEvent} {raws : List RawEvent}

/-! ### Places -/

theorem ofEvent_add (n : ℕ) (e : Event) : ofEvent version time (index + n) raw e =
    (ofEvent version time index raw e).map (moved n) := by
  unfold ofEvent
  cases e.identity with
  | error issues => rfl
  | ok i =>
    cases hhash : i.tokenHash with
    | error f =>
      simp only [hhash]
      rfl
    | ok hash =>
      simp only [hhash, Except.map, moved]
      rfl

theorem ofRawEvent_add (n : ℕ) : ofRawEvent version time (index + n) raw =
    (ofRawEvent version time index raw).map (Option.map (moved n)) := by
  unfold ofRawEvent
  cases Event.decode raw.tag raw.payload with
  | error m => rfl
  | ok o =>
    cases o with
    | none => rfl
    | some e =>
      simp only [ofEvent_add]
      cases ofEvent version time index raw e <;> rfl

/-- **Events give the same from any place on**, but for the place. -/
theorem ofEvents_add (n : ℕ) : ofEvents version time (start + n) raws =
    (ofEvents version time start raws).map (List.map (moved n)) := by
  induction raws generalizing start with
  | nil => rfl
  | cons raw rest ih =>
    have hrest := @ih (start + 1)
    rw [Nat.add_right_comm] at hrest
    unfold ofEvents
    rw [ofRawEvent_add, hrest]
    cases ofRawEvent version time start raw with
    | error f => rfl
    | ok o =>
      cases ofEvents version time (start + 1) rest with
      | error f => rfl
      | ok as =>
        cases o with
        | none => rfl
        | some a => rfl

/-- **Events joined give what the first of them give, and then what the others give from there on.** -/
theorem ofEvents_append (xs ys : List RawEvent) : ofEvents version time start (xs ++ ys) =
    (ofEvents version time start xs).bind fun as =>
      (ofEvents version time (start + xs.length) ys).map (as ++ ·) := by
  induction xs generalizing start with
  | nil =>
    show ofEvents version time start ys = (ofEvents version time start ys).map ([] ++ ·)
    cases ofEvents version time start ys <;> rfl
  | cons raw rest ih =>
    have hlength : start + 1 + rest.length = start + (raw :: rest).length := by
      rw [List.length_cons]
      omega
    rw [List.cons_append, ofEvents, ofEvents, ih, hlength]
    cases ofRawEvent version time start raw with
    | error f => rfl
    | ok o =>
      cases ofEvents version time (start + 1) rest with
      | error f => rfl
      | ok as =>
        cases ofEvents version time (start + (raw :: rest).length) ys with
        | error f => rfl
        | ok bs => simp [Except.bind, Except.map]

/-- What an event gives shows whether it is a token event. -/
theorem isSome_ofRawEvent {o : Option Activity}
    (h : ofRawEvent version time index raw = .ok o) : o.isSome = true ↔ raw.OfToken := by
  obtain ⟨e, he⟩ := exists_ofRawEvent_iff.mp ⟨o, h⟩
  rw [← Event.isSome_decode he]
  unfold ofRawEvent at h
  rw [he] at h
  cases e with
  | none =>
    cases h
    exact Iff.rfl
  | some e =>
    simp only at h
    split at h
    · cases h
    · cases h
      exact Iff.rfl

/-- **The index of each activity is the place of its event** among the events, the token events in
their order. -/
theorem map_index_ofEvents {as : List Activity} (h : ofEvents version time start raws = .ok as) :
    as.map (·.index) =
      (raws.findIdxs (fun raw => decide raw.OfToken) start).map fun k => some (k : ℤ) := by
  induction raws generalizing start as with
  | nil =>
    cases h
    rfl
  | cons raw rest ih =>
    unfold ofEvents at h
    split at h
    · cases h
    · rename_i o ho
      split at h
      · cases h
      · rename_i others hothers
        cases h
        have hsome := isSome_ofRawEvent ho
        rw [List.map_append, ih hothers, List.findIdxs_cons]
        cases o with
        | none =>
          have hnot : ¬ raw.OfToken := fun htoken => by cases hsome.mpr htoken
          simp [hnot]
        | some a =>
          have hindex := (numbers_of_ofRawEvent ho).2.2.2
          simp [hsome.mp rfl, hindex]

/-- An event fails if its payload does not fit. -/
theorem ofRawEvent_eq_error_iff {f : Failure} : ofRawEvent version time index raw = .error f ↔
    ∃ m, Event.decode raw.tag raw.payload = .error m ∧ f = .refused (.malformedEvent m) := by
  constructor
  · intro h
    cases hdecode : Event.decode raw.tag raw.payload with
    | error m =>
      unfold ofRawEvent at h
      rw [hdecode] at h
      cases h
      exact ⟨m, rfl, rfl⟩
    | ok e =>
      have hgives : ∃ o, ofRawEvent version time index raw = .ok o :=
        exists_ofRawEvent_iff.mpr ⟨e, hdecode⟩
      obtain ⟨o, ho⟩ := hgives
      cases h.symm.trans ho
  · rintro ⟨m, hm, rfl⟩
    unfold ofRawEvent
    rw [hm]

/-- **The first event that does not fit decides** how a list of events fails. -/
theorem ofEvents_eq_error_iff {f : Failure} : ofEvents version time start raws = .error f ↔
    ∃ before raw after m, raws = before ++ raw :: after ∧
      (∀ e ∈ before, ∃ o, Event.decode e.tag e.payload = .ok o) ∧
      Event.decode raw.tag raw.payload = .error m ∧ f = .refused (.malformedEvent m) := by
  constructor
  · intro h
    induction raws generalizing start with
    | nil => cases h
    | cons raw rest ih =>
      unfold ofEvents at h
      split at h
      · rename_i g hg
        cases h
        obtain ⟨m, hm, rfl⟩ := ofRawEvent_eq_error_iff.mp hg
        exact ⟨[], raw, rest, m, rfl, by simp, hm, rfl⟩
      · rename_i o ho
        split at h
        · rename_i g hg
          cases h
          obtain ⟨before, first, after, m, rfl, hbefore, hm⟩ := ih hg
          have hraw := exists_ofRawEvent_iff.mp ⟨o, ho⟩
          exact ⟨raw :: before, first, after, m, rfl, List.forall_mem_cons.mpr ⟨hraw, hbefore⟩, hm⟩
        · cases h
  · rintro ⟨before, raw, after, m, rfl, hbefore, hm, rfl⟩
    have hgives : ∃ as, ofEvents version time start before = .ok as := exists_ofEvents_iff.mpr hbefore
    have hfails : ofRawEvent version time (start + before.length) raw =
        .error (.refused (.malformedEvent m)) := ofRawEvent_eq_error_iff.mpr ⟨m, hm, rfl⟩
    obtain ⟨as, has⟩ := hgives
    rw [ofEvents_append, has, ofEvents, hfails]
    rfl

end Activity

namespace Transaction

variable {version : ℕ} {time : Timestamp} {events : List RawEvent}

theorem activities_ofUser : (ofUser version time events).activities =
    Activity.ofEvents version time.dateTime 0 events :=
  rfl

/-- **The activities of joined events.** -/
theorem activities_append (version : ℕ) (time : Timestamp) (xs ys : List RawEvent) :
    (ofUser version time (xs ++ ys)).activities =
      (ofUser version time xs).activities.bind fun as =>
        (ofUser version time ys).activities.map fun bs => as ++ bs.map (Activity.moved xs.length) := by
  simp only [activities_ofUser, Activity.ofEvents_append, Activity.ofEvents_add]
  cases Activity.ofEvents version time.dateTime 0 xs with
  | error f => rfl
  | ok as => cases Activity.ofEvents version time.dateTime 0 ys <;> rfl

/-- Another event by itself gives nothing. -/
theorem activities_of_not_ofToken {raw : RawEvent} (h : ¬ raw.OfToken) :
    (ofUser version time [raw]).activities = .ok [] := by
  have hnone : Activity.ofRawEvent version time.dateTime 0 raw = .ok none := by
    unfold Activity.ofRawEvent
    rw [Event.decode_of_not_ofToken h]
  rw [activities_ofUser, Activity.ofEvents, hnone]
  rfl

/-- **The indices are the places of the token events.** -/
theorem exists_places {as : List Activity} (h : (ofUser version time events).activities = .ok as) :
    ∃ places : List ℕ, as.map (·.index) = places.map (fun k => some (k : ℤ)) ∧
      places.Pairwise (· < ·) ∧ ∀ k, k ∈ places ↔ ∃ raw, events[k]? = some raw ∧ raw.OfToken := by
  refine ⟨events.findIdxs fun raw => decide raw.OfToken, Activity.map_index_ofEvents h,
    List.pairwise_findIdxs, fun k => ?_⟩
  rw [List.mem_findIdxs_iff_exists_getElem_pos]
  simp [List.getElem?_eq_some_iff]

/-- **The first token event that does not fit** decides how a transaction fails. -/
theorem activities_eq_error_iff {f : Failure} : (ofUser version time events).activities = .error f ↔
    ∃ before raw after m, events = before ++ raw :: after ∧ raw.OfToken ∧
      (∀ e ∈ before, e.OfToken → ∃ o, Event.decode e.tag e.payload = .ok o) ∧
      Event.decode raw.tag raw.payload = .error m ∧ f = .refused (.malformedEvent m) := by
  rw [activities_ofUser, Activity.ofEvents_eq_error_iff]
  constructor
  · rintro ⟨before, raw, after, m, hevents, hbefore, hm, hf⟩
    have htoken : raw.OfToken := Event.ofToken_of_malformed hm
    exact ⟨before, raw, after, m, hevents, htoken, fun e he _ => hbefore e he, hm, hf⟩
  · rintro ⟨before, raw, after, m, hevents, -, hbefore, hm, hf⟩
    refine ⟨before, raw, after, m, hevents, fun e he => ?_, hm, hf⟩
    by_cases htoken : e.OfToken
    · exact hbefore e he htoken
    · exact ⟨none, Event.decode_of_not_ofToken htoken⟩

/-- **Joined events give what their parts give**: the activities of the first part and then those of
the second, or the failure of the first part that fails. The indices are the places of the token
events, and the first of these that does not fit decides how the transaction fails. -/
theorem activities_of_joined (version : ℕ) (time : Timestamp) (xs ys : List RawEvent) :
    (∀ as bs, (ofUser version time xs).activities = .ok as →
      (ofUser version time ys).activities = .ok bs →
      (ofUser version time (xs ++ ys)).activities = .ok (as ++ bs.map (Activity.moved xs.length))) ∧
    (∀ f, (ofUser version time xs).activities = .error f →
      (ofUser version time (xs ++ ys)).activities = .error f) ∧
    (∀ as f, (ofUser version time xs).activities = .ok as →
      (ofUser version time ys).activities = .error f →
      (ofUser version time (xs ++ ys)).activities = .error f) ∧
    (∀ raw, ¬ raw.OfToken → (ofUser version time [raw]).activities = .ok []) ∧
    (∀ as, (ofUser version time xs).activities = .ok as → ∃ places : List ℕ,
      as.map (·.index) = places.map (fun k => some (k : ℤ)) ∧ places.Pairwise (· < ·) ∧
      ∀ k, k ∈ places ↔ ∃ raw, xs[k]? = some raw ∧ raw.OfToken) ∧
    (∀ f, (ofUser version time xs).activities = .error f ↔
      ∃ before raw after m, xs = before ++ raw :: after ∧ raw.OfToken ∧
        (∀ e ∈ before, e.OfToken → ∃ o, Event.decode e.tag e.payload = .ok o) ∧
        Event.decode raw.tag raw.payload = .error m ∧ f = .refused (.malformedEvent m)) := by
  refine ⟨fun as bs has hbs => ?_, fun f hf => ?_, fun as f has hf => ?_,
    fun raw => activities_of_not_ofToken, fun as => exists_places, fun f => activities_eq_error_iff⟩
  · rw [activities_append, has, hbs]
    rfl
  · rw [activities_append, hf]
    rfl
  · rw [activities_append, has, hf]
    rfl

end Transaction
end TokenLedger
