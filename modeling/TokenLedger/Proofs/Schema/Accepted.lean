/-
# What an accepted value is

A check that accepts a value has accepted its parts: a record is an object, a member that has to be
there is there, and its value passes its own check. Together with `Checked.ap_eq_ok_iff` these lemmas
take the check of a record apart, one member at a time. A list passes if all its items do.

Key definitions: `Check.Refuses`, `Decimal.InRange`.
Key theorems: `Check.record_eq_ok_iff`, `Check.required_eq_ok_iff`, `Check.mem_of_between`,
`Check.listOf_eq_ok_iff`, `Check.amount_eq_ok_iff`, `Decimal.InRange.canonicalText_ok`.
-/
import TokenLedger.Event.Payload
import TokenLedger.Proofs.Decimal.Rounding

namespace TokenLedger

/-- A result that is seen is the result. -/
theorem eq_ok_of_toOption {ε α : Type} {x : Except ε α} {a : α} (h : x.toOption = some a) :
    x = .ok a := by
  cases x with
  | error e => cases h
  | ok b =>
    cases h
    rfl

namespace Checked

variable {α : Type} {x : Checked α} {a : α}

theorem under_eq_ok_iff {s : Segment} : x.under s = .ok a ↔ x = .ok a := by
  cases x <;> simp [under]

theorem map_eq_ok_iff {β : Type} {f : α → β} {b : β} :
    Except.map f x = .ok b ↔ ∃ a, x = .ok a ∧ f a = b := by
  cases x <;> simp [Except.map]

end Checked

namespace Check

variable {α : Type} {check : Check α} {ms : Json.Members} {name : String} {a : α}

theorem record_eq_ok_iff {c : Convention} {members : Json.Members → Checked α} {v : Json} :
    record c members v = .ok a ↔ ∃ ms, v = .obj ms ∧ members ms = .ok a := by
  cases v <;> simp [record, Checked.fail]

theorem required_eq_ok_iff :
    required ms name check = .ok a ↔ ∃ v, Json.last? name ms = some v ∧ check v = .ok a := by
  unfold required
  rw [Checked.under_eq_ok_iff]
  cases Json.last? name ms <;> simp [Checked.fail]

end Check

/-! ### Bounded numbers -/

namespace Check

variable {low high n : ℤ} {v : Json}

theorem le_of_atLeast (h : atLeast low v = .ok n) : low ≤ n := by
  unfold atLeast at h
  split at h
  · split at h
    · cases h
    · rename_i hlow
      cases h
      exact not_lt.mp hlow
  · cases h

theorem mem_of_between (h : between low high v = .ok n) : low ≤ n ∧ n ≤ high := by
  unfold between at h
  split at h
  · rename_i m hm
    split at h
    · cases h
    · rename_i hhigh
      cases h
      exact ⟨le_of_atLeast hm, not_lt.mp hhigh⟩
  · cases h

end Check

/-! ### Lists -/

/-- What stands in the first of two lists that go together has a partner in the second. -/
theorem exists_of_forall₂ {α β : Type} {R : α → β → Prop} {as : List α} {bs : List β}
    (h : List.Forall₂ R as bs) {a : α} (ha : a ∈ as) : ∃ b ∈ bs, R a b := by
  induction h with
  | nil => cases ha
  | cons hr _ ih =>
    rcases List.mem_cons.mp ha with rfl | ha
    · exact ⟨_, List.mem_cons_self, hr⟩
    · obtain ⟨b, hb, hr⟩ := ih ha
      exact ⟨b, List.mem_cons_of_mem _ hb, hr⟩

/-- A check refuses a value. -/
def Check.Refuses {α : Type} (check : Check α) (v : Json) : Prop :=
  ∃ issues, check v = .error issues

namespace Check

variable {α : Type} {check : Check α} {vs : List Json} {v : Json}

theorem Refuses.ne_ok (h : check.Refuses v) (a : α) : check v ≠ .ok a := by
  obtain ⟨issues, hv⟩ := h
  rw [hv]
  nofun

theorem refuses_of_toOption (h : (check v).toOption.isNone = true) : check.Refuses v := by
  cases hv : check v with
  | error issues => exact ⟨issues, hv⟩
  | ok a =>
    rw [hv] at h
    cases h

/-- A list passes if its items do, one by one. -/
theorem listOf_eq_ok_iff {as : List α} :
    listOf check (.arr vs) = .ok as ↔ List.Forall₂ (fun v a => check v = .ok a) vs as := by
  show Checked.all (items check 0 vs) = .ok as ↔ _
  generalize 0 = start
  induction vs generalizing start as with
  | nil => rw [items, Checked.all, List.forall₂_nil_left_iff, Except.ok.injEq, eq_comm]
  | cons v vs ih =>
    rw [items, Checked.all, Checked.ap_eq_ok_iff]
    constructor
    · rintro ⟨g, bs, hg, hbs, rfl⟩
      obtain ⟨f, a, hf, ha, rfl⟩ := Checked.ap_eq_ok_iff.mp hg
      cases hf
      exact .cons (Checked.under_eq_ok_iff.mp ha) ((ih _).mp hbs)
    · rintro (_ | ⟨ha, has⟩)
      refine ⟨_, _, Checked.ap_eq_ok_iff.mpr ⟨_, _, rfl, ?_, rfl⟩, (ih _).mpr has, rfl⟩
      exact Checked.under_eq_ok_iff.mpr ha

/-- One item that is refused spoils a list. -/
theorem Refuses.not_forall₂ (h : check.Refuses v) (hv : v ∈ vs) (as : List α) :
    ¬ List.Forall₂ (fun v a => check v = .ok a) vs as := by
  intro hall
  obtain ⟨a, -, ha⟩ := exists_of_forall₂ hall hv
  exact h.ne_ok a ha

theorem Refuses.listOf (h : check.Refuses v) (hv : v ∈ vs) :
    (Check.listOf check).Refuses (.arr vs) := by
  cases has : Check.listOf check (.arr vs) with
  | error issues => exact ⟨issues, has⟩
  | ok as => exact absurd (listOf_eq_ok_iff.mp has) (h.not_forall₂ hv as)

end Check

/-! ### Decimals in the range -/

/-- A decimal is not below zero and not beyond the greatest amount. -/
def Decimal.InRange (d : Decimal) : Prop :=
  d.belowZero = false ∧ d.exceeds maxAmount = false

/-- An amount is a decimal in the range. -/
theorem Check.amount_eq_ok_iff {v : Json} {d : Decimal} :
    Check.amount v = .ok d ↔ Check.decimal .payload v = .ok d ∧ d.InRange := by
  unfold amount decimalUpTo
  cases decimal .payload v with
  | error issues => simp
  | ok e =>
    simp only [Option.any_some, Except.ok.injEq]
    constructor
    · intro h
      split at h
      · cases h
      · rename_i hbelow
        split at h
        · cases h
        · rename_i hexceeds
          cases h
          exact ⟨rfl, Bool.eq_false_iff.mpr hbelow, Bool.eq_false_iff.mpr hexceeds⟩
    · rintro ⟨rfl, hbelow, hexceeds⟩
      simp only [hbelow, hexceeds, Bool.false_eq_true, if_false]

namespace Decimal

theorem zero_inRange : zero.InRange := by
  constructor <;> decide

/-- The leading digit of a decimal in the range is one of the twenty before the point, or stands
behind it. -/
theorem InRange.leading_lt {d : Decimal} (h : d.InRange) (hc : d.coefficient ≠ 0) :
    d.leading < 20 := by
  have he := h.2
  unfold exceeds at he
  rw [if_neg hc] at he
  split at he
  · cases he
  · rename_i hlead
    have hdigits : Text.digitCount maxAmount = 20 := by decide
    rw [hdigits] at hlead
    omega

/-- **A decimal in the range has a canonical text.** -/
theorem InRange.canonicalText_ok {d : Decimal} (h : d.InRange) : ∃ s, d.canonicalText = .ok s :=
  Decimal.canonicalText_ok fun hc => lt_trans (h.leading_lt hc) (by norm_num)

end Decimal
end TokenLedger
