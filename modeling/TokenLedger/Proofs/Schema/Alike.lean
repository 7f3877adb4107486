/-
# Checks that mind the declared members only

Two values agree for a shape if they are objects that agree in the last member of each declared name, or
lists that agree item by item, wherever the shape has an object or a list; and if they are alike
everywhere else, be it equal or such that they show the same (`Shape.Agree`). Nothing is asked of a
member that is not declared, of one that has a later one of its name behind it, or of the order of
members.

A check minds a shape only if it comes out alike on values that agree for it: with the same issues, or
with results that are related (`Check.Minds`). The relation of the results is equality but for values
that are kept, and these are alike again. A check that is made from others minds the shape that is made
from theirs.

Key definitions: `Alike`, `Shape.Agree`, `Fields.Agree`, `Check.Minds`.
Key theorems: `Alike.ap`, `Check.minds_text`, `Check.minds_amount`, `Check.minds_any`,
`Check.Minds.listOf`, `Check.minds_record`.
-/
import Mathlib.Logic.Relator
import TokenLedger.Proofs.Json.Same
import TokenLedger.Proofs.Schema.Shape

namespace TokenLedger

open Relator

/-! ### Results that are alike -/

/-- Two results are related values or the same failure. -/
inductive Alike {ε α β : Type} (R : α → β → Prop) : Except ε α → Except ε β → Prop where
  | value {a : α} {b : β} (h : R a b) : Alike R (.ok a) (.ok b)
  | failure (e : ε) : Alike R (.error e) (.error e)

namespace Alike

variable {α β : Type} {R : α → α → Prop} {S : β → β → Prop}

theorem of_eq {x y : Checked α} (h : x = y) : Alike Eq x y := by
  subst h
  cases x with
  | ok a => exact .value rfl
  | error is => exact .failure is

theorem ap {f g : Checked (α → β)} {x y : Checked α} (hf : Alike (R ⇒ S) f g) (hx : Alike R x y) :
    Alike S (f.ap x) (g.ap y) := by
  cases hf with
  | value hf =>
    cases hx with
    | value hx => exact .value (hf hx)
    | failure is => exact .failure is
  | failure is =>
    cases hx with
    | value _ => exact .failure is
    | failure js => exact .failure (is ++ js)

theorem under {x y : Checked α} (h : Alike R x y) (s : Segment) :
    Alike R (x.under s) (y.under s) := by
  cases h with
  | value h => exact .value h
  | failure is => exact .failure _

theorem map {x y : Checked α} {f g : α → β} (h : Alike R x y) (hf : (R ⇒ S) f g) :
    Alike S (Except.map f x) (Except.map g y) := by
  cases h with
  | value h => exact .value (hf h)
  | failure is => exact .failure is

end Alike

/-! ### Agreement -/

mutual

/-- Two values are alike wherever a shape has something to say. -/
def Shape.Agree (like : Json → Json → Prop) : Shape → Json → Json → Prop
  | .list item, .arr vs, .arr ws => List.Forall₂ (item.Agree like) vs ws
  | .record fields, .obj ms, .obj ns => fields.Agree like ms ns
  | _, v, w => like v w

/-- Of each declared name two objects have last members that agree, or none. -/
def Fields.Agree (like : Json → Json → Prop) : Fields → Json.Members → Json.Members → Prop
  | .nil, _, _ => True
  | .cons name _ shape rest, ms, ns =>
    Option.Rel (shape.Agree like) (Json.last? name ms) (Json.last? name ns) ∧ rest.Agree like ms ns

end

variable {like : Json → Json → Prop} {item shape : Shape} {fields : Fields} {v w : Json}

mutual

theorem Shape.agree_refl (hrefl : ∀ v, like v v) : ∀ (shape : Shape) (v : Json), shape.Agree like v v
  | .text, v => hrefl v
  | .amount, v => hrefl v
  | .any, v => hrefl v
  | .list item, v => by
    cases v with
    | arr vs => exact List.forall₂_same.mpr fun w _ => item.agree_refl hrefl w
    | null | bool | whole | float | str | obj => exact hrefl _
  | .record fields, v => by
    cases v with
    | obj ms => exact fields.agree_refl hrefl ms
    | null | bool | whole | float | str | arr => exact hrefl _

theorem Fields.agree_refl (hrefl : ∀ v, like v v) : ∀ (fields : Fields) (ms : Json.Members),
    fields.Agree like ms ms
  | .nil, _ => trivial
  | .cons name _ shape rest, ms => by
    refine ⟨?_, rest.agree_refl hrefl ms⟩
    cases Json.last? name ms with
    | none => exact .none
    | some v => exact .some (shape.agree_refl hrefl v)

end

/-- Where a list is expected, lists agree item by item, and nothing else agrees with a list. -/
theorem Shape.Agree.list_cases (hlike : Json.Likeness like) (h : (Shape.list item).Agree like v w) :
    (∃ vs ws, v = .arr vs ∧ w = .arr ws ∧ List.Forall₂ (item.Agree like) vs ws) ∨
      (∀ vs, v ≠ .arr vs) ∧ ∀ ws, w ≠ .arr ws := by
  cases v with
  | arr vs =>
    cases w with
    | arr ws => exact .inl ⟨vs, ws, rfl, rfl, h⟩
    | null | bool | whole | float | str | obj => cases (hlike.same h).outline
  | null | bool | whole | float | str | obj =>
    refine .inr ⟨nofun, ?_⟩
    rintro ws rfl
    cases (hlike.same h).outline

/-- Where an object is expected, objects agree in the declared members, and nothing else agrees with an
object. -/
theorem Shape.Agree.record_cases (hlike : Json.Likeness like)
    (h : (Shape.record fields).Agree like v w) :
    (∃ ms ns, v = .obj ms ∧ w = .obj ns ∧ fields.Agree like ms ns) ∨
      (∀ ms, v ≠ .obj ms) ∧ ∀ ns, w ≠ .obj ns := by
  cases v with
  | obj ms =>
    cases w with
    | obj ns => exact .inl ⟨ms, ns, rfl, rfl, h⟩
    | null | bool | whole | float | str | arr => cases (hlike.same h).outline
  | null | bool | whole | float | str | arr =>
    refine .inr ⟨nofun, ?_⟩
    rintro ns rfl
    cases (hlike.same h).outline

namespace Check

/-- On values that agree for a shape a check comes out alike. -/
def Minds {α : Type} (check : Check α) (like : Json → Json → Prop) (shape : Shape)
    (R : α → α → Prop) : Prop :=
  ∀ v w, shape.Agree like v w → Alike R (check v) (check w)

/-! ### Strings and amounts -/

theorem text_outline (v : Json) : text v.outline = text v := by
  cases v <;> rfl

theorem minds_text (hlike : Json.Likeness like) : text.Minds like .text Eq := by
  intro v w h
  refine .of_eq ?_
  rw [← text_outline v, (hlike.same h).outline, text_outline]

theorem minds_any (hlike : Json.Likeness like) : any.Minds like .any like :=
  fun _ _ h => .value (hlike.merged h)

theorem plainInt?_outline (v : Json) : plainInt? v.outline = plainInt? v := by
  cases v <;> rfl

theorem digit?_outline (v : Json) : digit? v.outline = digit? v := by
  rw [digit?, plainInt?_outline, ← digit?]

theorem mapM_digit?_outline (digits : List Json) :
    (digits.map .outline).mapM digit? = digits.mapM digit? := by
  rw [List.mapM_map]
  exact congrArg (digits.mapM ·) (funext digit?_outline)

/-- The sign and the exponent are scalars, and so are the digits. -/
theorem numeralOfParts?_outline (sign exponent : Json) (digits : List Json) :
    numeralOfParts? [sign.outline, .arr (digits.map .outline), exponent.outline] =
      numeralOfParts? [sign, .arr digits, exponent] := by
  rw [numeralOfParts?, numeralOfParts?, mapM_digit?_outline, sign?, plainInt?_outline, ← sign?]
  cases exponent <;> rfl

/-- The parts of a decimal are three, and the second one is an array. -/
theorem numeralOfParts?_eq_none {vs : List Json}
    (h : ∀ sign digits exponent, vs ≠ [sign, .arr digits, exponent]) : numeralOfParts? vs = none := by
  unfold numeralOfParts?
  split
  · exact absurd rfl (h _ _ _)
  · rfl

theorem numeralOfParts?_congr {vs ws : List Json} (h : List.Forall₂ Json.Same vs ws) :
    numeralOfParts? vs = numeralOfParts? ws := by
  by_cases hvs : ∃ sign digits exponent, vs = [sign, .arr digits, exponent]
  · obtain ⟨sign, digits, exponent, rfl⟩ := hvs
    obtain _ | ⟨hsign, _ | ⟨hdigits, _ | ⟨hexponent, _ | _⟩⟩⟩ := h
    obtain ⟨digits', rfl⟩ := hdigits.exists_arr
    have houtlines : digits.map Json.outline = digits'.map Json.outline := by
      rw [← List.forall₂_eq_eq_eq, List.forall₂_map_left_iff, List.forall₂_map_right_iff]
      exact hdigits.items.imp fun _ _ h => h.outline
    rw [← numeralOfParts?_outline, hsign.outline, houtlines, hexponent.outline,
      numeralOfParts?_outline]
  · rw [numeralOfParts?_eq_none fun _ _ _ hvs' => hvs ⟨_, _, _, hvs'⟩, numeralOfParts?_eq_none]
    -- what shows the same as three parts is three parts itself
    rintro sign digits exponent rfl
    obtain _ | ⟨hsign, _ | ⟨hdigits, _ | ⟨hexponent, _ | _⟩⟩⟩ := h
    obtain ⟨digits', rfl⟩ := hdigits.symm.exists_arr
    exact hvs ⟨_, _, _, rfl⟩

theorem decimal_outline (c : Convention) {v : Json} (h : ∀ vs, v ≠ .arr vs) :
    decimal c v.outline = decimal c v := by
  cases v with
  | arr vs => exact absurd rfl (h vs)
  | null | bool | whole | float | str | obj => rfl

theorem decimal_congr (c : Convention) {v w : Json} (h : v.Same w) : decimal c v = decimal c w := by
  by_cases hv : ∃ vs, v = .arr vs
  · obtain ⟨vs, rfl⟩ := hv
    obtain ⟨ws, rfl⟩ := h.exists_arr
    rw [decimal, decimal, numeralOfParts?_congr h.items]
  · rw [not_exists] at hv
    have hw : ∀ ws, w ≠ .arr ws := by
      rintro ws rfl
      obtain ⟨vs, rfl⟩ := h.symm.exists_arr
      exact hv vs rfl
    rw [← decimal_outline c hv, h.outline, decimal_outline c hw]

theorem minds_amount (hlike : Json.Likeness like) : amount.Minds like .amount Eq := by
  intro v w h
  refine .of_eq ?_
  rw [amount, decimalUpTo, decimalUpTo, decimal_congr .payload (hlike.same h)]

/-! ### Members and items -/

variable {α : Type} {check : Check α} {R : α → α → Prop} {ms ns : Json.Members} {name : String}

theorem Minds.required (hcheck : check.Minds like shape R)
    (h : Option.Rel (shape.Agree like) (Json.last? name ms) (Json.last? name ns)) :
    Alike R (Check.required ms name check) (Check.required ns name check) := by
  unfold Check.required
  generalize Json.last? name ms = v at h ⊢
  generalize Json.last? name ns = w at h ⊢
  cases h with
  | none => exact .failure _
  | some h => exact (hcheck _ _ h).under _

theorem Minds.defaulted (hcheck : check.Minds like shape R) {absent : α} (habsent : R absent absent)
    (h : Option.Rel (shape.Agree like) (Json.last? name ms) (Json.last? name ns)) :
    Alike R (Check.defaulted ms name absent check) (Check.defaulted ns name absent check) := by
  unfold Check.defaulted
  generalize Json.last? name ms = v at h ⊢
  generalize Json.last? name ns = w at h ⊢
  cases h with
  | none => exact .value habsent
  | some h => exact (hcheck _ _ h).under _

theorem record_of_not_object {members : Json.Members → Checked α} (h : ∀ ms, v ≠ .obj ms) :
    Check.record .payload members v = .fail .notRecord := by
  cases v with
  | obj ms => exact absurd rfl (h ms)
  | null | bool | whole | float | str | arr => rfl

theorem listOf_of_not_array (h : ∀ vs, v ≠ .arr vs) : Check.listOf check v = .fail .notList := by
  cases v with
  | arr vs => exact absurd rfl (h vs)
  | null | bool | whole | float | str | obj => rfl

/-- **An object is minded in its declared members.** -/
theorem minds_record (hlike : Json.Likeness like) {members : Json.Members → Checked α}
    (h : ∀ ms ns, fields.Agree like ms ns → Alike R (members ms) (members ns)) :
    (Check.record .payload members).Minds like (.record fields) R := by
  intro v w hagree
  obtain ⟨ms, ns, rfl, rfl, hmembers⟩ | ⟨hv, hw⟩ := hagree.record_cases hlike
  · exact h ms ns hmembers
  · rw [record_of_not_object hv, record_of_not_object hw]
    exact .failure _

theorem Minds.items (hcheck : check.Minds like item R) {vs ws : List Json}
    (h : List.Forall₂ (item.Agree like) vs ws) : ∀ start : ℕ,
    Alike (List.Forall₂ R) (Checked.all (Check.items check start vs))
      (Checked.all (Check.items check start ws)) := by
  induction h with
  | nil => exact fun _ => .value .nil
  | cons hhead _ ih =>
    intro start
    have hcons : (R ⇒ List.Forall₂ R ⇒ List.Forall₂ R) List.cons List.cons :=
      fun _ _ hx _ _ hxs => .cons hx hxs
    exact ((Alike.value hcons).ap ((hcheck _ _ hhead).under _)).ap (ih (start + 1))

/-- **A list is minded in its items.** -/
theorem Minds.listOf (hlike : Json.Likeness like) (hcheck : check.Minds like item R) :
    (Check.listOf check).Minds like (.list item) (List.Forall₂ R) := by
  intro v w hagree
  obtain ⟨vs, ws, rfl, rfl, hitems⟩ | ⟨hv, hw⟩ := hagree.list_cases hlike
  · exact hcheck.items hitems 0
  · rw [listOf_of_not_array hv, listOf_of_not_array hw]
    exact .failure _

end Check
end TokenLedger
