/-
# The places of the numbers in a payload

A payload gives its numbers at places that depend on the kind of the event only: the amount at the top,
and a version in the object of its token. An accepted event has its decimals from these places, one from
each and in their order, and each is accepted there as an amount (`Event.amounts_of_check`). So a payload
that holds no amount at one of the places is refused (`Event.refused_of_place`).

Key definitions: `Json.at?`, `Json.Gives`, `EventKind.numberPlaces`, `Event.decimals`.
Key theorems: `Json.inside_of_at?`, `Event.checkMove_eq_ok`, `Event.checkMutate_eq_ok`,
`Event.amounts_of_check`, `Event.refused_of_place`.
-/
import TokenLedger.Proofs.Json.Inside

namespace TokenLedger

/-! ### Places -/

namespace Json

/-- The value at the end of a path of names; of a repeated name the last member counts. -/
def at? : Json → List String → Option Json
  | v, [] => some v
  | .obj ms, name :: place => (last? name ms).bind (at? · place)
  | _, _ :: _ => none

variable {v w : Json} {p q : List String}

/-- A path that is continued leads on from where it led. -/
theorem at?_append (v : Json) (p q : List String) : v.at? (p ++ q) = (v.at? p).bind (at? · q) := by
  induction p generalizing v with
  | nil => rfl
  | cons name p ih =>
    cases v with
    | obj ms =>
      show (last? name ms).bind (at? · (p ++ q)) = ((last? name ms).bind (at? · p)).bind (at? · q)
      rw [Option.bind_assoc]
      exact Option.bind_congr fun w _ => ih w
    | null | bool | whole | float | str | arr => rfl

/-- What stands at the end of a path stands in the value. -/
theorem inside_of_at? (h : v.at? p = some w) : w.Inside v := by
  induction p generalizing v with
  | nil =>
    cases h
    exact .self
  | cons name p ih =>
    cases v with
    | obj ms =>
      obtain ⟨u, hu, hw⟩ := Option.bind_eq_some_iff.mp h
      exact (ih hw).trans (inside_of_last? hu)
    | null | bool | whole | float | str | arr => cases h

/-- At a place of a value stands something that a check accepts. -/
def Gives {α : Type} (v : Json) (place : List String) (check : Check α) (a : α) : Prop :=
  ∃ w, v.at? place = some w ∧ check w = .ok a

theorem Gives.append {α β : Type} {check : Check α} {check' : Check β} {a : α} {b : β}
    (h : v.Gives p check a) (hb : ∀ {w : Json}, check w = .ok a → w.Gives q check' b) :
    v.Gives (p ++ q) check' b := by
  obtain ⟨w, hw, ha⟩ := h
  obtain ⟨u, hu, hb⟩ := hb ha
  refine ⟨u, ?_, hb⟩
  rw [at?_append, hw]
  exact hu

/-- A place gives one thing at most. -/
theorem Gives.unique {α : Type} {check : Check α} {a b : α} (ha : v.Gives p check a)
    (hb : v.Gives p check b) : a = b := by
  obtain ⟨w, hw, ha⟩ := ha
  obtain ⟨w', hw', hb⟩ := hb
  rw [hw] at hw'
  cases hw'
  rw [ha] at hb
  exact Except.ok.inj hb

end Json

/-- What a check finds under a name stands at that name. -/
theorem Check.gives_of_required {α : Type} {ms : Json.Members} {name : String} {check : Check α}
    {a : α} (h : required ms name check = .ok a) : (Json.obj ms).Gives [name] check a := by
  obtain ⟨w, hlast, hw⟩ := required_eq_ok_iff.mp h
  refine ⟨w, ?_, hw⟩
  show (Json.last? name ms).bind (Json.at? · []) = some w
  rw [hlast]
  rfl

/-! ### Numbers of a payload -/

section

variable {v : Json}

theorem TokenId.gives_of_check {t : TokenId} (h : TokenId.check v = .ok t) :
    v.Gives ["property_version"] Check.amount t.propertyVersion := by
  obtain ⟨ms, rfl, h⟩ := Check.record_eq_ok_iff.mp h
  obtain ⟨f, d, hf, hd, rfl⟩ := Checked.ap_eq_ok_iff.mp h
  obtain ⟨g, data, hg, -, rfl⟩ := Checked.ap_eq_ok_iff.mp hf
  cases hg
  exact Check.gives_of_required hd

/-- The version of a token stands in the object of the token. -/
theorem TokenId.gives_version {t : TokenId} {name : String} (h : v.Gives [name] TokenId.check t) :
    v.Gives [name, "property_version"] Check.amount t.propertyVersion :=
  h.append TokenId.gives_of_check

theorem Transfer.gives_of_check {t : Transfer} (h : Transfer.check v = .ok t) :
    v.Gives ["token_id"] TokenId.check t.token ∧ v.Gives ["amount"] Check.amount t.amount := by
  obtain ⟨ms, rfl, h⟩ := Check.record_eq_ok_iff.mp h
  obtain ⟨f, d, hf, hd, rfl⟩ := Checked.ap_eq_ok_iff.mp h
  obtain ⟨g, token, hg, ht, rfl⟩ := Checked.ap_eq_ok_iff.mp hf
  obtain ⟨k, recipient, hk, -, rfl⟩ := Checked.ap_eq_ok_iff.mp hg
  cases hk
  exact ⟨Check.gives_of_required ht, Check.gives_of_required hd⟩

end

/-- Where the payload of a kind gives its numbers. -/
def EventKind.numberPlaces : EventKind → List (List String)
  | .mint => [["amount"]]
  | .burn | .withdraw | .deposit => [["id", "property_version"], ["amount"]]
  | .mutate => [["old_id", "property_version"], ["new_id", "property_version"]]
  | .offer | .cancelOffer | .claim => [["token_id", "property_version"], ["amount"]]

namespace Event

variable {v : Json} {e : Event}

/-- The decimals of an event: its amount and the versions of its tokens. -/
def decimals : Event → List Decimal
  | .mint _ n => [n]
  | .burn t n => [t.propertyVersion, n]
  | .mutate before after _ _ _ => [before.propertyVersion, after.propertyVersion]
  | .withdraw t n => [t.propertyVersion, n]
  | .deposit t n => [t.propertyVersion, n]
  | .offer t => [t.token.propertyVersion, t.amount]
  | .cancelOffer t => [t.token.propertyVersion, t.amount]
  | .claim t => [t.token.propertyVersion, t.amount]

/-- An accepted event about a token and an amount of it has both from the payload. -/
theorem checkMove_eq_ok {α : Type} {token : Check α} {event : α → Decimal → Event}
    (h : checkMove token event v = .ok e) :
    ∃ t n, v.Gives ["id"] token t ∧ v.Gives ["amount"] Check.amount n ∧ e = event t n := by
  obtain ⟨ms, rfl, h⟩ := Check.record_eq_ok_iff.mp h
  obtain ⟨f, n, hf, hn, rfl⟩ := Checked.ap_eq_ok_iff.mp h
  obtain ⟨g, t, hg, ht, rfl⟩ := Checked.ap_eq_ok_iff.mp hf
  cases hg
  exact ⟨t, n, Check.gives_of_required ht, Check.gives_of_required hn, rfl⟩

/-- An accepted change of properties has its tokens from the payload. -/
theorem checkMutate_eq_ok (h : checkMutate v = .ok e) :
    ∃ before after keys values types, v.Gives ["old_id"] TokenId.check before ∧
      v.Gives ["new_id"] TokenId.check after ∧ e = .mutate before after keys values types := by
  obtain ⟨ms, rfl, h⟩ := Check.record_eq_ok_iff.mp h
  obtain ⟨f₁, types, h₁, -, rfl⟩ := Checked.ap_eq_ok_iff.mp h
  obtain ⟨f₂, values, h₂, -, rfl⟩ := Checked.ap_eq_ok_iff.mp h₁
  obtain ⟨f₃, keys, h₃, -, rfl⟩ := Checked.ap_eq_ok_iff.mp h₂
  obtain ⟨f₄, after, h₄, hafter, rfl⟩ := Checked.ap_eq_ok_iff.mp h₃
  obtain ⟨f₅, before, h₅, hbefore, rfl⟩ := Checked.ap_eq_ok_iff.mp h₄
  cases h₅
  exact ⟨before, after, keys, values, types, Check.gives_of_required hbefore,
    Check.gives_of_required hafter, rfl⟩

/-- **An accepted event has its decimals from the places of its kind**, each accepted as an amount. -/
theorem amounts_of_check {kind : EventKind} (h : check kind v = .ok e) :
    List.Forall₂ (fun place d => v.Gives place Check.amount d) kind.numberPlaces e.decimals := by
  have ofMove : ∀ {event : TokenId → Decimal → Event},
      (∀ t n, (event t n).decimals = [t.propertyVersion, n]) →
      checkMove TokenId.check event v = .ok e →
      List.Forall₂ (fun place d => v.Gives place Check.amount d)
        [["id", "property_version"], ["amount"]] e.decimals := by
    intro event hevent h
    obtain ⟨t, n, ht, hn, rfl⟩ := checkMove_eq_ok h
    rw [hevent]
    exact .cons (TokenId.gives_version ht) (.cons hn .nil)
  have ofTransfer : ∀ {event : Transfer → Event},
      (∀ t, (event t).decimals = [t.token.propertyVersion, t.amount]) →
      (Transfer.check v).map event = .ok e →
      List.Forall₂ (fun place d => v.Gives place Check.amount d)
        [["token_id", "property_version"], ["amount"]] e.decimals := by
    intro event hevent h
    obtain ⟨t, ht, rfl⟩ := Checked.map_eq_ok_iff.mp h
    obtain ⟨htoken, hamount⟩ := Transfer.gives_of_check ht
    rw [hevent]
    exact .cons (TokenId.gives_version htoken) (.cons hamount .nil)
  cases kind with
  | mint =>
    obtain ⟨t, n, -, hn, rfl⟩ := checkMove_eq_ok h
    exact .cons hn .nil
  | mutate =>
    obtain ⟨before, after, keys, values, types, hbefore, hafter, rfl⟩ := checkMutate_eq_ok h
    exact .cons (TokenId.gives_version hbefore) (.cons (TokenId.gives_version hafter) .nil)
  | burn | withdraw | deposit => exact ofMove (fun _ _ => rfl) h
  | offer | cancelOffer | claim => exact ofTransfer (fun _ => rfl) h

/-- **A payload without an amount at one of the places of its kind is refused.** -/
theorem refused_of_place {kind : EventKind} {place : List String} (hplace : place ∈ kind.numberPlaces)
    (h : ∀ d, ¬ v.Gives place Check.amount d) : (check kind).Refuses v := by
  cases he : check kind v with
  | error issues => exact ⟨issues, he⟩
  | ok e =>
    obtain ⟨d, -, hd⟩ := exists_of_forall₂ (amounts_of_check he) hplace
    exact absurd hd (h d)

end Event
end TokenLedger
