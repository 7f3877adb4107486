/-
# Requests for a listing

Two routes list what the store holds: records of failures, and activities. A request that gets to such
a route by the right method, with values that pass their checks, asks for a page of what passes a
filter. It leaves the store as it was, and is answered with that page and the number of all
(`Service.respond_of_errors`, `Service.respond_of_search`). The offset may be any natural by its check,
so one that does not fit the store gets through: then the service fails.

Key definitions: `Request.AsksForErrors`, `Request.Searches`, `Service.errorsReply`,
`Service.activitiesReply`.
Key theorems: `Service.respond_of_errors`, `Service.respond_of_search`.
-/
import TokenLedger.Proofs.Service.Posts

namespace TokenLedger
namespace Service

/-- Whether resolved records are asked for, or others, or both. -/
def askedResolved (r : Request) : Checked (Option Bool) :=
  asked r "resolved" none fun v => (Check.truth v).map some

/-- The answer with a page of records of failures. -/
def errorsReply (rows : List Json) (total : ℕ) (limit offset : ℤ) : Reply :=
  succeed (.obj [("errors", .arr rows), ("total", .whole total), ("limit", .whole limit),
    ("offset", .whole offset)])

/-- The answer with a page of activities. -/
def activitiesReply (rows : List Activity) (total : ℕ) (limit offset : ℤ) : Reply :=
  succeed (.obj [("activities", .arr (rows.map Activity.toStoredJson)), ("total", .whole total),
    ("limit", .whole limit), ("offset", .whole offset)])

end Service

/-- A request asks for a page of the records of failures. -/
structure Request.AsksForErrors (r : Request) (f : ErrorFilter) (limit offset : ℤ) : Prop where
  target : r.target = .route .listErrors
  verb : r.verb = "GET"
  label : r.value? "error_type" = f.label
  resolved : Service.askedResolved r = .ok f.resolved
  limit : Service.askedLimit r = .ok limit
  offset : Service.askedOffset r = .ok offset

/-- A request asks for a page of the activities in which the token left or reached an address, and for
nothing else about them. -/
structure Request.Searches (r : Request) (address : String) (limit offset : ℤ) : Prop where
  target : r.target = .route .listActivities
  verb : r.verb = "GET"
  tokenHash : r.value? "token_data_id_hash" = none
  collectionHash : r.value? "collection_data_id_hash" = none
  address : r.value? "address" = some address
  limit : Service.askedLimit r = .ok limit
  offset : Service.askedOffset r = .ok offset

namespace Service

variable {s : Store} {time : ℕ} {r : Request} {limit offset : ℤ}

/-- A value that is asked for passed its check, or is the one for its absence. -/
theorem asked_eq_ok {α : Type} {name : String} {absent a : α} {check : Check α}
    (h : asked r name absent check = .ok a) : a = absent ∨ ∃ v, check v = .ok a := by
  unfold asked at h
  split at h
  · rw [Checked.under_eq_ok_iff, Checked.under_eq_ok_iff] at h
    exact .inr ⟨_, h⟩
  · exact .inl (Except.ok.inj h).symm

/-- No more than two hundred rows can be asked for, and no fewer than one. -/
theorem mem_of_askedLimit (h : askedLimit r = .ok limit) : 1 ≤ limit ∧ limit ≤ 200 := by
  rcases asked_eq_ok h with rfl | ⟨v, hv⟩
  · decide
  · exact Check.mem_of_between hv

theorem respond_of_get {route : Route} (htarget : r.target = .route route)
    (hmethod : route.method = "GET") (hverb : r.verb = "GET") :
    respond s time r = answer s time r route := by
  rw [respond_eq_handle (by rw [hverb]; decide), handle, htarget]
  simp only [hmethod, hverb, if_true]

/-- **A request for records of failures** is answered with its page, if all of the page can be
shown. -/
theorem respond_of_errors {f : ErrorFilter} (h : r.AsksForErrors f limit offset) (s : Store)
    (time : ℕ) :
    respond s time r = (s, if Whole.fits offset then
        match (s.listErrors f ⟨some limit, some offset⟩).rows.mapM shownError with
        | none => fail
        | some rows =>
          errorsReply rows (s.listErrors f ⟨some limit, some offset⟩).total limit offset
      else fail) := by
  obtain ⟨label, resolved⟩ := f
  have hresolved : (asked r "resolved" none fun v => (Check.truth v).map some) = .ok resolved :=
    h.resolved
  have hlabel : r.value? "error_type" = label := h.label
  rw [respond_of_get h.target rfl h.verb, answer, showErrors]
  simp only [hresolved, h.limit, h.offset, hlabel, Checked.value, Checked.ap]
  rfl

/-- **A request for the activities of an address** is answered with its page. -/
theorem respond_of_search {address : String} (h : r.Searches address limit offset)
    (hne : address ≠ "") (s : Store) (time : ℕ) :
    respond s time r = (s, if Whole.fits offset then
        activitiesReply
          (s.listActivities ⟨none, none, some (Address.canonical address)⟩
            ⟨some limit, some offset⟩).rows
          (s.listActivities ⟨none, none, some (Address.canonical address)⟩
            ⟨some limit, some offset⟩).total limit offset
      else fail) := by
  have hwish : (some address).filter (!·.isEmpty) = some address := by simp [hne]
  rw [respond_of_get h.target rfl h.verb, answer, showActivities]
  simp only [h.limit, h.offset, h.tokenHash, h.collectionHash, h.address, hwish, Option.map_some,
    Checked.value, Checked.ap]
  rfl

end Service
end TokenLedger
