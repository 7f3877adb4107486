/-
# Requests with a body

Two routes take a body: that of a trial and that of a batch. A body that starts with two characters
of ASCII is read from its characters, with no detour over its octets (`Service.withBody_ofList`). A
request that gets to a route by the right method, with a body that passes the check of the route,
posts the value of the body. A trial answers and leaves the store as it was
(`Service.respond_of_trial`); a batch is taken in, or the service fails and nothing is kept
(`Service.respond_of_batch`). No other request changes the store (`Service.respond_cases`).

Key definitions: `Request.Posts`.
Key theorems: `Service.withBody_ofList`, `Service.respond_of_trial`, `Service.respond_of_batch`,
`Service.respond_cases`.
-/
import TokenLedger.Proofs.Ingest.Effect
import TokenLedger.Proofs.Text.Utf8
import TokenLedger.Service.Respond

namespace TokenLedger

/-! ### The value of a body -/

namespace Json.Encoding

/-- A character of ASCII other than the zero. -/
def Plain (c : Char) : Prop :=
  0 < c.toNat ∧ c.toNat < 128

instance (c : Char) : Decidable (Plain c) :=
  inferInstanceAs (Decidable (_ ∧ _))

theorem Plain.octets {c : Char} (h : Plain c) :
    ∃ b, String.utf8EncodeChar c = [b] ∧ b ≠ 0 := by
  obtain ⟨hpos, hlt⟩ := h
  refine ⟨UInt8.ofNat c.toNat, if_pos (Nat.le_of_lt_succ hlt), fun hzero => ?_⟩
  have hn : c.toNat % 256 = 0 := congrArg UInt8.toNat hzero
  omega

theorem detect_of_ne_zero {a b : UInt8} (ha : a ≠ 0) (hb : b ≠ 0) (bs : List UInt8) :
    detect (a :: b :: bs) = .octets := by
  rcases bs with _ | ⟨c, _ | ⟨d, bs⟩⟩ <;> simp [detect, ha, hb]

/-- A text that starts with two plain characters is spelled in octets. -/
theorem characters?_ofList {a b : Char} (ha : Plain a) (hb : Plain b) (cs : List Char) :
    characters? (String.ofList (a :: b :: cs)) =
      some ((a :: b :: cs).flatMap fun c => substitute c.toNat) := by
  obtain ⟨x, hx, hx0⟩ := ha.octets
  obtain ⟨y, hy, hy0⟩ := hb.octets
  have hmark : a ≠ '\uFEFF' := by
    rintro rfl
    exact absurd ha.2 (by decide)
  have hdetect : detect (String.ofList (a :: b :: cs)).toUTF8.data.toList = .octets := by
    rw [Text.toList_toUTF8, String.toList_ofList, List.flatMap_cons, List.flatMap_cons, hx, hy]
    exact detect_of_ne_zero hx0 hy0 _
  rw [characters?, hdetect, codes?, String.toList_ofList]
  split
  · rename_i h
    exact absurd (List.cons.inj h).1 hmark
  · rw [Option.map_some, List.flatMap_map]

end Json.Encoding

namespace Service

/-- What is read from a body that starts with two plain characters. -/
theorem withBody_ofList {α : Type} {check : Check α} {x : α} {a b : Char} {cs : List Char}
    (ha : Json.Encoding.Plain a) (hb : Json.Encoding.Plain b)
    (h : ((Json.readCharacters bodyDialect
        ((a :: b :: cs).flatMap fun c => Json.substitute c.toNat)).toOption.bind
          fun v => (check v.merged).toOption) = some x) :
    withBody (some (String.ofList (a :: b :: cs))) check = .ok x := by
  obtain ⟨v, hv, hx⟩ := Option.bind_eq_some_iff.mp h
  have hempty : (String.ofList (a :: b :: cs)).isEmpty = false := by simp
  have hread := eq_ok_of_toOption hv
  have hcheck := eq_ok_of_toOption hx
  simp only [withBody, hempty, valueOfBody, Json.Encoding.characters?_ofList ha hb, hread, hcheck]
  rfl

end Service

/-! ### What is done with a body -/

/-- Where a request leads is in its path. -/
theorem Request.target_congr {r q : Request} (h : r.path = q.path) : r.target = q.target := by
  rw [Request.target, Request.target, h]

/-- A method in capitals is the verb. -/
theorem Request.verb_of_method {r : Request} {m : String} (hm : r.method = m)
    (h : m.toList.map Char.toUpper = m.toList) : r.verb = m := by
  refine String.toList_injective ?_
  rw [Request.verb, hm, String.toList_map, h]

/-- A request posts a value: it gets to a route by the method of the route, and its body passes the
check with that value. -/
structure Request.Posts {α : Type} (r : Request) (route : Route) (check : Check α) (a : α) : Prop where
  target : r.target = .route route
  verb : r.verb = "POST"
  body : Service.withBody r.body check = .ok a

namespace Service

variable {s : Store} {time : ℕ} {r : Request} {t : Transaction} {ts : List Transaction}

/-- Only the head of an answer gets no value. -/
theorem respond_eq_handle (h : r.verb ≠ "HEAD") : respond s time r = handle s time r := by
  unfold respond
  simp only [if_neg h]

theorem respond_of_post (h : r.verb = "POST") : respond s time r = handle s time r :=
  respond_eq_handle (by rw [h]; decide)

/-- A trial leaves the store as it was. -/
theorem respond_of_trial (h : r.Posts .normalize (Transaction.check .request) t) :
    respond s time r = (s, normalize t) := by
  rw [respond_of_post h.verb, handle, h.target]
  simp only [Route.method, h.verb, if_true]
  rw [answer, h.body]

theorem respond_eq_ingest (h : r.Posts .ingest checkBatch ts) :
    respond s time r = ingest s time ts := by
  rw [respond_of_post h.verb, handle, h.target]
  simp only [Route.method, h.verb, if_true]
  rw [answer, h.body]

/-- A batch that is posted is taken in, or the service fails. -/
theorem respond_of_batch (s : Store) (time : ℕ) (h : r.Posts .ingest checkBatch ts) :
    (s.Takes ts ∧ respond s time r = (s.takenIn time ts, succeed (s.tally ts).toJson)) ∨
      (¬ s.Takes ts ∧ respond s time r = (s, fail)) := by
  rw [respond_eq_ingest h, ingest]
  by_cases htakes : s.Takes ts
  · rw [Store.processBatch_of_takes time htakes]
    exact .inl ⟨htakes, rfl⟩
  · obtain ⟨f, hf⟩ := Store.processBatch_of_not_takes time htakes
    rw [hf]
    exact .inr ⟨htakes, rfl⟩

/-- Only a batch that is posted changes the store. -/
theorem respond_cases (s : Store) (time : ℕ) (r : Request) :
    (∃ ts, r.Posts .ingest checkBatch ts) ∨ (respond s time r).1 = s := by
  show _ ∨ (handle s time r).1 = s
  unfold handle
  cases htarget : r.target with
  | elsewhere => exact .inr rfl
  | nowhere => exact .inr rfl
  | route route =>
    simp only
    split
    · rename_i hverb
      cases route with
      | ingest =>
        unfold answer
        simp only
        cases hbody : withBody r.body checkBatch with
        | error reply => exact .inr rfl
        | ok ts => exact .inl ⟨ts, htarget, hverb, hbody⟩
      | normalize =>
        unfold answer
        simp only
        split <;> exact .inr rfl
      | health => exact .inr rfl
      | listActivities => exact .inr rfl
      | transaction version => exact .inr rfl
      | listErrors => exact .inr rfl
    · exact .inr rfl

end Service
end TokenLedger
