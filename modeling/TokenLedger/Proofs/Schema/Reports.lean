/-
# Checks that report all faults

A check reports the faults of a shape if on every value it succeeds where there are none, and fails with
just them where there are (`Check.Reports`). The checks of strings and amounts report one cause at most;
those of lists and of objects report the faults of their parts one after the other, since a part that
fails does not keep the next one from being looked at (`Checked.Reports.ap`). So a check that is made
from others reports the faults of the shape that is made from theirs.

Key definitions: `Checked.Reports`, `Check.Reports`.
Key theorems: `Checked.Reports.ap`, `Check.reports_text`, `Check.reports_amount`,
`Check.Reports.required`, `Check.Reports.record`, `Check.Reports.listOf`.
-/
import TokenLedger.Proofs.Schema.Shape

namespace TokenLedger

/-! ### Results -/

/-- A result is a value if there are no issues, and otherwise the failure with just these. -/
inductive Checked.Reports {α : Type} : Checked α → List Issue → Prop
  | value (a : α) : Reports (.ok a) []
  | issues {is : List Issue} (h : is ≠ []) : Reports (.error is) is

namespace Checked

variable {α β : Type} {f : Checked (α → β)} {x : Checked α} {is js : List Issue}

theorem reports_value (a : α) : (value a).Reports [] :=
  .value a

theorem reports_fail (cause : Cause) : (fail cause : Checked α).Reports [⟨[], cause⟩] :=
  .issues (List.cons_ne_nil _ _)

/-- **The issues of both sides are reported**, whichever of them fail. -/
theorem Reports.ap (hf : f.Reports is) (hx : x.Reports js) : (f.ap x).Reports (is ++ js) := by
  cases hf with
  | value g =>
    cases hx with
    | value a => exact .value (g a)
    | issues hjs => exact .issues hjs
  | issues his =>
    cases hx with
    | value a =>
      rw [List.append_nil]
      exact .issues his
    | issues hjs => exact .issues (List.append_ne_nil_of_left_ne_nil his _)

theorem Reports.under (h : x.Reports is) (s : Segment) :
    (x.under s).Reports (is.map (Issue.within s)) := by
  cases h with
  | value a => exact .value a
  | issues his => exact .issues (List.map_eq_nil_iff.not.mpr his)

theorem Reports.map (h : x.Reports is) (g : α → β) : Checked.Reports (Except.map g x) is := by
  cases h with
  | value a => exact .value (g a)
  | issues his => exact .issues his

/-- A result fails exactly if it reports issues, and then with these. -/
theorem Reports.eq_error_iff (h : x.Reports is) : x = .error js ↔ is ≠ [] ∧ js = is := by
  cases h with
  | value a => exact iff_of_false nofun fun h => h.1 rfl
  | issues his =>
    rw [Except.error.injEq, eq_comm]
    exact (and_iff_right his).symm

end Checked

/-! ### Strings and amounts -/

namespace Check

/-- A check succeeds on the values without faults, and fails on the others with all of them. -/
def Reports {α : Type} (check : Check α) (shape : Shape) : Prop :=
  ∀ v, (check v).Reports (shape.faults true (some v))

theorem reports_text : text.Reports .text := by
  intro v
  cases v with
  | str s =>
    cases s with
    | text s => exact .value s
    | unreadable codes => exact Checked.reports_fail _
  | null | bool | whole | float | arr | obj => exact Checked.reports_fail _

theorem reports_any : any.Reports .any :=
  fun v => .value v.merged

theorem exists_cause_of_numeral {n : Numeral} {issues : List Issue}
    (h : decimalOfNumeral n = .error issues) : ∃ cause, issues = [⟨[], cause⟩] := by
  cases n <;> cases h
  · exact ⟨_, rfl⟩
  · exact ⟨_, rfl⟩

/-- A value that spells no decimal is refused with one cause. -/
theorem exists_cause_of_decimal {c : Convention} {v : Json} {issues : List Issue}
    (h : decimal c v = .error issues) : ∃ cause, issues = [⟨[], cause⟩] := by
  unfold decimal at h
  split at h
  · cases h
  · exact exists_cause_of_numeral h
  · split at h
    · exact exists_cause_of_numeral h
    · cases h
      exact ⟨_, rfl⟩
  · cases h
    exact ⟨_, rfl⟩
  · split at h
    · exact exists_cause_of_numeral h
    · cases h
      exact ⟨_, rfl⟩
  · cases h
    exact ⟨_, rfl⟩

/-- The one fault of a value as an amount, if it is none. -/
theorem faults_amount (v : Json) :
    Shape.amount.faults true (some v) = (v.amountCause?.map (Issue.mk [])).toList := by
  have hissue : Position.issue? ⟨[], .amount, true, some v⟩ = v.amountCause?.map (Issue.mk []) := rfl
  show [_].filterMap Position.issue? = _
  rw [List.filterMap_cons, hissue]
  cases v.amountCause? <;> rfl

/-- Of a decimal that is not below zero, the digits exceed the greatest amount if the value does. -/
theorem exceeds_maxAmount_iff {d : Decimal} (h : 0 ≤ d.value) :
    d.exceeds maxAmount = true ↔ 2 ^ 64 - 1 < d.value := by
  have hbelow : d.belowZero = false := by
    rwa [← Bool.not_eq_true, d.belowZero_iff, not_lt]
  have hrange : d.exceeds maxAmount = false ↔ d.value ≤ 2 ^ 64 - 1 :=
    (and_iff_right hbelow).symm.trans (d.inRange_iff.trans (and_iff_right h))
  rw [← not_le, ← hrange, Bool.not_eq_false]

/-- **An amount is a decimal in the range**, and one cause is reported of anything else. -/
theorem reports_amount : amount.Reports .amount := by
  intro v
  rw [faults_amount]
  unfold amount decimalUpTo Json.amountCause?
  cases hd : decimal .payload v with
  | error issues =>
    obtain ⟨cause, rfl⟩ := exists_cause_of_decimal hd
    exact Checked.reports_fail cause
  | ok d =>
    dsimp only
    by_cases hneg : d.value < 0
    · rw [if_pos (d.belowZero_iff.mpr hneg), if_pos hneg]
      exact Checked.reports_fail _
    · have hexceeds := exceeds_maxAmount_iff (not_lt.mp hneg)
      rw [if_neg (d.belowZero_iff.not.mpr hneg), if_neg hneg, Option.any_some]
      by_cases hmore : 2 ^ 64 - 1 < d.value
      · rw [if_pos (hexceeds.mpr hmore), if_pos hmore]
        exact Checked.reports_fail _
      · rw [if_neg (hexceeds.not.mpr hmore), if_neg hmore]
        exact .value d

end Check

/-! ### Members and items -/

theorem Shape.faults_missing (shape : Shape) : shape.faults true none = [⟨[], .missing⟩] := by
  cases shape <;> rfl

theorem Shape.faults_absent (shape : Shape) : shape.faults false none = [] := by
  cases shape <;> rfl

/-- Whether a value has to be there does not matter to one that is there. -/
theorem Shape.faults_some (shape : Shape) (required : Bool) (v : Json) :
    shape.faults required (some v) = shape.faults true (some v) := by
  cases shape <;> rfl

theorem Fields.faults_nil (ms : Json.Members) : Fields.nil.faults ms = [] :=
  rfl

theorem Fields.faults_cons (name : String) (required : Bool) (shape : Shape) (rest : Fields)
    (ms : Json.Members) : (Fields.cons name required shape rest).faults ms =
      (shape.faults required (Json.last? name ms)).map (Issue.within (.field name)) ++
        rest.faults ms := by
  rw [Fields.faults, Fields.walk, List.filterMap_append, Position.filterMap_issue?_within]
  rfl

/-- What is no object has one fault if it should be one. -/
theorem Shape.faults_of_not_object (fields : Fields) {v : Json} (h : ∀ ms, v ≠ .obj ms) :
    (Shape.record fields).faults true (some v) = [⟨[], .notRecord⟩] := by
  cases v with
  | obj ms => exact absurd rfl (h ms)
  | null | bool | whole | float | str | arr => rfl

theorem Shape.faults_items (item : Shape) (vs : List Json) :
    (Shape.list item).faults true (some (.arr vs)) = vs.zipIdx.flatMap fun x =>
      (item.faults true (some x.1)).map (Issue.within (.item x.2)) := by
  show (vs.zipIdx.flatMap fun x =>
    (item.walk true (some x.1)).map (.within (.item x.2))).filterMap Position.issue? = _
  rw [List.filterMap_flatMap]
  exact List.flatMap_congr fun x _ => Position.filterMap_issue?_within _ _

namespace Check

variable {α : Type} {check : Check α} {shape : Shape} {fields : Fields}

theorem Reports.required (h : check.Reports shape) (ms : Json.Members) (name : String) :
    (Check.required ms name check).Reports
      ((shape.faults true (Json.last? name ms)).map (Issue.within (.field name))) := by
  refine Checked.Reports.under ?_ _
  cases Json.last? name ms with
  | none =>
    rw [shape.faults_missing]
    exact Checked.reports_fail _
  | some v => exact h v

theorem Reports.defaulted (h : check.Reports shape) (ms : Json.Members) (name : String) (absent : α) :
    (Check.defaulted ms name absent check).Reports
      ((shape.faults false (Json.last? name ms)).map (Issue.within (.field name))) := by
  unfold Check.defaulted
  cases Json.last? name ms with
  | none =>
    rw [shape.faults_absent]
    exact .value absent
  | some v =>
    rw [shape.faults_some]
    exact (h v).under _

/-- **An object is reported by its declared members.** -/
theorem Reports.record {members : Json.Members → Checked α}
    (h : ∀ ms, (members ms).Reports (fields.faults ms)) :
    (Check.record .payload members).Reports (.record fields) := by
  intro v
  cases v with
  | obj ms => exact h ms
  | null | bool | whole | float | str | arr => exact Checked.reports_fail _

/-- The items are reported one after the other, each at its index. -/
theorem Reports.items (h : check.Reports shape) : ∀ (vs : List Json) (start : ℕ),
    (Checked.all (Check.items check start vs)).Reports ((vs.zipIdx start).flatMap fun x =>
      (shape.faults true (some x.1)).map (Issue.within (.item x.2)))
  | [], _ => .value []
  | v :: vs, start => by
    rw [List.zipIdx_cons, List.flatMap_cons]
    exact ((Checked.Reports.value List.cons).ap ((h v).under (.item start))).ap
      (h.items vs (start + 1))

/-- **A list is reported by its items**, each of them. -/
theorem Reports.listOf (h : check.Reports shape) : (Check.listOf check).Reports (.list shape) := by
  intro v
  cases v with
  | arr vs =>
    rw [shape.faults_items]
    exact h.items vs 0
  | null | bool | whole | float | str | obj => exact Checked.reports_fail _

end Check
end TokenLedger
