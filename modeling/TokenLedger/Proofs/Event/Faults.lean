/-
# The faults of a payload

The payload of a kind of events has a shape: an object with the declared members of the kind, among
them the objects of its tokens. The check of the kind reports the faults of that shape
(`Event.reports_check`), so a payload that is an object is refused exactly if something is wrong at a
position of its walk, and then with one issue for each such position, in the order of the walk and at
distinct places (`Event.decode_reports_faults`). What is no object, or no JSON at all, is refused with
one cause about the payload as a whole.

Key definitions: `TokenData.shape`, `TokenId.shape`, `Transfer.shape`, `EventKind.shape`,
`EventKind.positions`.
Key theorems: `Event.reports_check`, `Event.decode_eq_error_iff`, `Event.decode_reports_faults`.
-/
import TokenLedger.Proofs.Event.RoundTrip
import TokenLedger.Proofs.Schema.Reports

namespace TokenLedger

/-! ### The shapes of payloads -/

def TokenData.shape : Shape :=
  .record (.cons "creator" true .text (.cons "collection" true .text (.cons "name" true .text .nil)))

def TokenId.shape : Shape :=
  .record (.cons "token_data_id" true TokenData.shape (.cons "property_version" true .amount .nil))

def Transfer.shape : Shape :=
  .record (.cons "to_address" true .text (.cons "token_id" true TokenId.shape
    (.cons "amount" true .amount .nil)))

namespace Event

/-- The shape of an event that is about a token and an amount of it. -/
def moveShape (token : Shape) : Shape :=
  .record (.cons "id" true token (.cons "amount" true .amount .nil))

/-- The shape of a change of properties. The three lists may be absent. -/
def mutateShape : Shape :=
  .record (.cons "old_id" true TokenId.shape (.cons "new_id" true TokenId.shape
    (.cons "keys" false (.list .text) (.cons "values" false (.list .any)
      (.cons "types" false (.list .text) .nil)))))

end Event

namespace EventKind

/-- The shape of the payloads of a kind. -/
def shape : EventKind → Shape
  | .mint => Event.moveShape TokenData.shape
  | .burn | .withdraw | .deposit => Event.moveShape TokenId.shape
  | .mutate => Event.mutateShape
  | .offer | .cancelOffer | .claim => Transfer.shape

/-- The positions that are walked in a payload of a kind. -/
def positions (kind : EventKind) (v : Json) : List Position :=
  kind.shape.walk true (some v)

theorem distinct_shape (kind : EventKind) : kind.shape.Distinct := by
  cases kind <;>
    simp [shape, Event.moveShape, Event.mutateShape, Transfer.shape, TokenId.shape, TokenData.shape,
      Shape.Distinct, Fields.Distinct, Fields.names]

/-- A payload is meant to be an object. -/
theorem exists_shape_eq_record (kind : EventKind) : ∃ fields, kind.shape = .record fields := by
  cases kind <;> exact ⟨_, rfl⟩

end EventKind

/-! ### The checks report the faults -/

section

open Checked Check

theorem TokenData.reports_check : TokenData.check.Reports TokenData.shape := by
  refine Reports.record fun ms => ?_
  have hmembers := (((reports_value TokenData.mk).ap (reports_text.required ms "creator")).ap
    (reports_text.required ms "collection")).ap (reports_text.required ms "name")
  simpa only [Fields.faults_cons, Fields.faults_nil, List.nil_append, List.append_assoc,
    List.append_nil] using hmembers

theorem TokenId.reports_check : TokenId.check.Reports TokenId.shape := by
  refine Reports.record fun ms => ?_
  have hmembers := ((reports_value TokenId.mk).ap
    (TokenData.reports_check.required ms "token_data_id")).ap
    (reports_amount.required ms "property_version")
  simpa only [Fields.faults_cons, Fields.faults_nil, List.nil_append, List.append_nil] using hmembers

theorem Transfer.reports_check : Transfer.check.Reports Transfer.shape := by
  refine Reports.record fun ms => ?_
  have hmembers := (((reports_value Transfer.mk).ap (reports_text.required ms "to_address")).ap
    (TokenId.reports_check.required ms "token_id")).ap (reports_amount.required ms "amount")
  simpa only [Fields.faults_cons, Fields.faults_nil, List.nil_append, List.append_assoc,
    List.append_nil] using hmembers

namespace Event

theorem reports_checkMove {α : Type} {token : Check α} {shape : Shape} (h : token.Reports shape)
    (event : α → Decimal → Event) : (checkMove token event).Reports (moveShape shape) := by
  refine Reports.record fun ms => ?_
  have hmembers := ((reports_value event).ap (h.required ms "id")).ap
    (reports_amount.required ms "amount")
  simpa only [Fields.faults_cons, Fields.faults_nil, List.nil_append, List.append_nil] using hmembers

theorem reports_checkMutate : checkMutate.Reports mutateShape := by
  refine Reports.record fun ms => ?_
  have hmembers := (((((reports_value Event.mutate).ap (TokenId.reports_check.required ms "old_id")).ap
    (TokenId.reports_check.required ms "new_id")).ap
    (reports_text.listOf.defaulted ms "keys" [])).ap
    (reports_any.listOf.defaulted ms "values" [])).ap
    (reports_text.listOf.defaulted ms "types" [])
  simpa only [Fields.faults_cons, Fields.faults_nil, List.nil_append, List.append_assoc,
    List.append_nil] using hmembers

/-- **The check of a kind reports the faults of its shape.** -/
theorem reports_check (kind : EventKind) : (check kind).Reports kind.shape := by
  cases kind with
  | mint => exact reports_checkMove TokenData.reports_check _
  | burn | withdraw | deposit => exact reports_checkMove TokenId.reports_check _
  | mutate => exact reports_checkMutate
  | offer | cancelOffer | claim => exact fun v => (Transfer.reports_check v).map _

end Event

end

/-! ### Decoding -/

namespace Event

variable {kind : EventKind} {payload : RawText} {v : Json} {m : Malformed}

/-- What is wrong with a payload is what its check under the kind of the tag reports. -/
theorem decode_eq_error_iff : decode (.text kind.tag) payload = .error m ↔
    m.kind = kind ∧ ofPayload kind payload = .error m.issues := by
  unfold decode
  rw [kindOf?_eq_some_iff.mpr rfl]
  obtain ⟨kind', issues⟩ := m
  dsimp only
  cases ofPayload kind payload with
  | ok e => exact iff_of_false nofun nofun
  | error is =>
    rw [Except.error.injEq, Except.error.injEq, Malformed.mk.injEq]
    exact and_congr eq_comm Iff.rfl

/-- A value that was read is refused exactly if it has faults, and then with all of them. -/
theorem Reads.decode_eq_error_iff (h : Reads (.text kind.tag) payload kind v) :
    decode (.text kind.tag) payload = .error m ↔
      kind.shape.faults true (some v) ≠ [] ∧ m = ⟨kind, kind.shape.faults true (some v)⟩ := by
  obtain ⟨kind', issues⟩ := m
  rw [Event.decode_eq_error_iff, h.ofPayload_eq, (reports_check kind v).eq_error_iff,
    Malformed.mk.injEq]
  exact and_left_comm

/-- A payload that is not the text of an object is refused with one cause about the whole. -/
theorem exists_cause_of_not_object (h : ∀ ms, ¬ Reads (.text kind.tag) payload kind (.obj ms)) :
    ∃ cause, decode (.text kind.tag) payload = .error ⟨kind, [⟨[], cause⟩]⟩ := by
  suffices hissue : ∃ cause, ofPayload kind payload = .error [⟨[], cause⟩] from
    hissue.imp fun cause hcause => decode_eq_error_iff.mpr ⟨rfl, hcause⟩
  cases payload with
  | unreadable codes => exact ⟨.unreadableString, rfl⟩
  | text text =>
    cases hread : Json.read payloadDialect text with
    | error fault => exact ⟨.notJson, by rw [ofPayload, hread]; rfl⟩
    | ok v =>
      have hreads : Reads (.text kind.tag) (.text text) kind v := ⟨rfl, text, rfl, hread⟩
      obtain ⟨fields, hfields⟩ := kind.exists_shape_eq_record
      have hfaults := Shape.faults_of_not_object fields fun ms heq => h ms (heq ▸ hreads)
      rw [← hfields] at hfaults
      refine ⟨.notRecord, ?_⟩
      rw [hreads.ofPayload_eq, (reports_check kind v).eq_error_iff, hfaults]
      exact ⟨List.cons_ne_nil _ _, rfl⟩

/-- **The decoder reports the faults of a payload, all of them and nothing else.** A payload that is the
text of an object is refused exactly if something is wrong at a position of its walk. The report then has
one issue for each such position, in the order of the walk and no two at one place; and the walk stays
inside of values that are of their shapes. Any other payload is refused with one cause about the whole. -/
theorem decode_reports_faults (kind : EventKind) (payload : RawText) :
    (∀ ms, Reads (.text kind.tag) payload kind (.obj ms) →
      ((∃ m, decode (.text kind.tag) payload = .error m) ↔
        ∃ p ∈ kind.positions (.obj ms), p.cause? ≠ none) ∧
      (∀ m, decode (.text kind.tag) payload = .error m →
        m = ⟨kind, (kind.positions (.obj ms)).filterMap Position.issue?⟩ ∧
        (m.issues.map Issue.place).Nodup) ∧
      Encloses (kind.positions (.obj ms)) (kind.positions (.obj ms))) ∧
    ((∀ ms, ¬ Reads (.text kind.tag) payload kind (.obj ms)) →
      ∃ cause, decode (.text kind.tag) payload = .error ⟨kind, [⟨[], cause⟩]⟩) := by
  refine ⟨fun ms hreads => ⟨?_, fun m hm => ?_, kind.shape.encloses_walk true _⟩,
    exists_cause_of_not_object⟩
  · have hsome : (∃ m, decode (.text kind.tag) payload = .error m) ↔
        kind.shape.faults true (some (.obj ms)) ≠ [] := by
      simp only [hreads.decode_eq_error_iff, exists_and_left, exists_eq, and_true]
    rw [hsome, ne_eq, Shape.faults_eq_nil_iff]
    push Not
    rfl
  · obtain ⟨-, rfl⟩ := hreads.decode_eq_error_iff.mp hm
    exact ⟨rfl, Position.nodup_issues (kind.shape.nodup_walk true _ kind.distinct_shape)⟩

/-- A payload in which a version is below zero, an amount is a word, and a token is a number. -/
def disordered : Json :=
  .obj [("amount", .str "lots"), ("id", .obj [("token_data_id", .whole 5),
    ("property_version", .str "-1"), ("name", .null)])]

theorem decode_of_disordered :
    Reads (.text EventKind.burn.tag) (.text disordered.text) .burn disordered ∧
      decode (.text EventKind.burn.tag) (.text disordered.text) = .error ⟨.burn, [
        ⟨[.field "id", .field "token_data_id"], .notRecord⟩,
        ⟨[.field "id", .field "property_version"], .belowBound⟩,
        ⟨[.field "amount"], .unreadableDecimal⟩]⟩ ∧
      ∃ cause, decode (.text EventKind.burn.tag) (.unreadable [0xD800]) =
        .error ⟨.burn, [⟨[], cause⟩]⟩ := by
  have hreads : Reads (.text EventKind.burn.tag) (.text disordered.text) .burn disordered :=
    ⟨rfl, _, rfl, Json.read_text payloadDialect (by decide) (by decide)⟩
  have hamount : ⟨[.field "amount"], .amount, true, some (.str "lots")⟩ ∈
      EventKind.burn.positions disordered :=
    .tail _ (.tail _ (.tail _ (.tail _ (.head _))))
  have hfaults : (EventKind.burn.positions disordered).filterMap Position.issue? = [
      ⟨[.field "id", .field "token_data_id"], .notRecord⟩,
      ⟨[.field "id", .field "property_version"], .belowBound⟩,
      ⟨[.field "amount"], .unreadableDecimal⟩] := by
    decide +kernel
  obtain ⟨hrefused, hreported, -⟩ := (decode_reports_faults .burn (.text disordered.text)).1 _ hreads
  obtain ⟨m, hm⟩ := hrefused.mpr ⟨_, hamount, by decide⟩
  rw [(hreported m hm).1.trans (congrArg (Malformed.mk .burn) hfaults)] at hm
  refine ⟨hreads, hm, (decode_reports_faults .burn (.unreadable [0xD800])).2 ?_⟩
  rintro ms ⟨-, text, htext, -⟩
  cases htext

end Event
end TokenLedger
