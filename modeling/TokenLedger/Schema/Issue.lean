/-
# Issues of a value

An issue says what is wrong with a value and where: the place is the path of member names and item
indices that leads to it from the whole value. A checked value is the value it stands for, or the
list of all its issues in the order in which its parts are declared.

Key definitions: `Segment`, `Cause`, `Issue`, `Checked`, `Checked.value`, `Checked.fail`,
`Checked.ap`, `Checked.under`.
Key theorem: `Checked.ap_eq_ok_iff`.
-/

namespace TokenLedger

/-- One step of a place, into a value. -/
inductive Segment where
  | field (name : String)
  | item (index : Nat)
deriving DecidableEq, Repr

/-- What can be wrong with a value. -/
inductive Cause where
  | missing
  | notRecord
  | notAttributes
  | notList
  | notString
  | unreadableString
  | notInt
  | unreadableInt
  | intTooLong
  | intWithFraction
  | notDecimal
  | unreadableDecimal
  | notFinite
  | belowBound
  | aboveBound
  | reachesBound
  | unknownChoice
  | notBool
  | unreadableBool
  | notDateTime
  | unreadableDateTime
  | dateTimeOutOfRange
  | undeclared
  | notJson
deriving DecidableEq, Repr

/-- The name under which a cause is reported. -/
def Cause.name : Cause → String
  | .missing => "missing"
  | .notRecord => "model_type"
  | .notAttributes => "model_attributes_type"
  | .notList => "list_type"
  | .notString => "string_type"
  | .unreadableString => "string_unicode"
  | .notInt => "int_type"
  | .unreadableInt => "int_parsing"
  | .intTooLong => "int_parsing_size"
  | .intWithFraction => "int_from_float"
  | .notDecimal => "decimal_type"
  | .unreadableDecimal => "decimal_parsing"
  | .notFinite => "finite_number"
  | .belowBound => "greater_than_equal"
  | .aboveBound => "less_than_equal"
  | .reachesBound => "less_than"
  | .unknownChoice => "enum"
  | .notBool => "bool_type"
  | .unreadableBool => "bool_parsing"
  | .notDateTime => "datetime_type"
  | .unreadableDateTime => "datetime_from_date_parsing"
  | .dateTimeOutOfRange => "datetime_parsing"
  | .undeclared => "extra_forbidden"
  | .notJson => "json_invalid"

/-- A cause and the place of the value it is about. -/
structure Issue where
  place : List Segment
  cause : Cause
deriving DecidableEq, Repr

/-- The same issue seen from one step further out. -/
def Issue.within (s : Segment) (i : Issue) : Issue :=
  ⟨s :: i.place, i.cause⟩

/-- A value, or all issues of the text or data it was to be made from. -/
abbrev Checked (α : Type) := Except (List Issue) α

namespace Checked

variable {α β : Type}

/-- A value without issues. -/
def value (a : α) : Checked α :=
  .ok a

/-- A failure with one issue about the value as a whole. -/
def fail (c : Cause) : Checked α :=
  .error [⟨[], c⟩]

/-- The issues of both sides, or the function applied to the value. -/
def ap : Checked (α → β) → Checked α → Checked β
  | .ok f, .ok a => .ok (f a)
  | .ok _, .error is => .error is
  | .error is, .ok _ => .error is
  | .error is, .error js => .error (is ++ js)

/-- The issues of a part seen from the whole. -/
def under (s : Segment) : Checked α → Checked α
  | .ok a => .ok a
  | .error is => .error (is.map (Issue.within s))

/-- The values of a list of results, or the issues of all of them. -/
def all : List (Checked α) → Checked (List α)
  | [] => .ok []
  | x :: xs => ((value List.cons).ap x).ap (all xs)

/-- Both sides succeed exactly when the whole does. -/
theorem ap_eq_ok_iff {f : Checked (α → β)} {x : Checked α} {b : β} :
    f.ap x = .ok b ↔ ∃ g a, f = .ok g ∧ x = .ok a ∧ g a = b := by
  cases f <;> cases x <;> simp [ap]

end Checked
end TokenLedger
