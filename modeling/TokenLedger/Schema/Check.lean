/-
# Checks of JSON values

A check turns a JSON value into a value of the domain, or reports its issues. Numbers, and truth
values where they are asked for, may be spelled in several ways; strings and lists may not.
The members of a record are found by name, the last of a repeated name counts, and undeclared
members do not matter.

A `Convention` holds what differs with the way a value came: how a value that is no object is
reported, which decimal a binary number spells out, and whether a decimal may be given in parts.

Key definitions: `Convention`, `Check`, `Check.required`, `Check.defaulted`, `Check.record`,
`Check.listOf`, `Check.text`, `Check.int`, `Check.natural`, `Check.decimal`, `Check.truth`.
-/
import TokenLedger.Json.Value
import TokenLedger.Number.Whole
import TokenLedger.Schema.Issue

namespace TokenLedger

/-- What depends on the way a value came. -/
structure Convention where
  /-- The cause reported for a value that is no object where one is expected. -/
  noObject : Cause
  /-- The decimal numeral that a binary number spells out. -/
  numeral : Double → Numeral
  /-- Whether a decimal may be a list of its sign, its digits and its exponent. -/
  inParts : Bool

/-- The convention for the JSON text of an event's payload. -/
def Convention.payload : Convention :=
  ⟨.notRecord, Double.plainNumeral, true⟩

/-- The convention for a value given by itself. -/
def Convention.direct : Convention :=
  ⟨.notRecord, Double.textNumeral, false⟩

/-- The convention for the body of a request. -/
def Convention.request : Convention :=
  ⟨.notAttributes, Double.textNumeral, false⟩

/-- A check of a value. -/
abbrev Check (α : Type) := Json → Checked α

namespace Check

variable {α : Type}

/-! ### Records and lists -/

/-- The check of a member that has to be there. -/
def required (members : Json.Members) (name : String) (check : Check α) : Checked α :=
  (match Json.last? name members with
    | some v => check v
    | none => Checked.fail .missing).under (.field name)

/-- The check of a member with a value for its absence. -/
def defaulted (members : Json.Members) (name : String) (absent : α) (check : Check α) :
    Checked α :=
  match Json.last? name members with
  | some v => (check v).under (.field name)
  | none => .ok absent

/-- A check of members becomes one of objects. -/
def record (c : Convention) (members : Json.Members → Checked α) : Check α
  | .obj ms => members ms
  | _ => .fail c.noObject

/-- The results of the items of a list, each at its index counted from `start`. -/
def items (check : Check α) (start : Nat) : List Json → List (Checked α)
  | [] => []
  | v :: vs => (check v).under (.item start) :: items check (start + 1) vs

/-- The check of a list whose items are checked alike. -/
def listOf (check : Check α) : Check (List α)
  | .arr vs => .all (items check 0 vs)
  | _ => .fail .notList

/-- The check that lets null pass as nothing. -/
def orNull (check : Check α) : Check (Option α)
  | .null => .ok none
  | v => (check v).map some

/-- Every value passes; of a repeated name in it the last member is kept. -/
def any : Check Json := fun v =>
  .ok v.merged

/-! ### Texts -/

/-- A string, which need not be text. -/
def rawText : Check RawText
  | .str s => .ok s
  | _ => .fail .notString

/-- A string that is text. -/
def text : Check String
  | .str (.text s) => .ok s
  | .str (.unreadable _) => .fail .unreadableString
  | _ => .fail .notString

/-- A string that names one of several choices. -/
def choice (ofName? : String → Option α) : Check α
  | .str (.text s) =>
    match ofName? s with
    | some a => .ok a
    | none => .fail .unknownChoice
  | _ => .fail .unknownChoice

/-! ### Whole numbers -/

/-- The whole number that a text stands for. -/
def intOfText (s : String) : Checked Int :=
  match Whole.read s with
  | .ok n => .ok n
  | .error .malformed => .fail .unreadableInt
  | .error .tooLong => .fail .intTooLong

/-- The whole number that a binary number equals, if its absolute value is less than two to the
sixty-third. -/
def intOfDouble : Double → Checked Int
  | .finite negative m q =>
    if !Double.isWhole m q then .fail .intWithFraction
    else
      let n := Double.wholePart m q
      if n < Nat.pow 2 63 then .ok (if negative then -n else n) else .fail .intTooLong
  | _ => .fail .notFinite

/-- A whole number, spelled as a number without a fraction, a truth value or a text. -/
def int : Check Int
  | .whole n => .ok n
  | .float x => intOfDouble x
  | .bool b => .ok (if b then 1 else 0)
  | .str (.text s) => intOfText s
  | .str (.unreadable _) => .fail .unreadableString
  | _ => .fail .notInt

/-- A whole number of at least `low`. -/
def atLeast (low : Int) : Check Int := fun v =>
  match int v with
  | .ok n => if n < low then .fail .belowBound else .ok n
  | .error is => .error is

/-- A whole number from `low` to `high`. -/
def between (low high : Int) : Check Int := fun v =>
  match atLeast low v with
  | .ok n => if high < n then .fail .aboveBound else .ok n
  | .error is => .error is

/-- A whole number of at least zero. -/
def natural : Check Nat := fun v =>
  (atLeast 0 v).map Int.toNat

/-- A whole number of at least zero and less than a bound. -/
def below (bound : Nat) : Check (Fin bound) := fun v =>
  match int v with
  | .ok n =>
    if n < 0 then .fail .belowBound
    else if h : n.toNat < bound then .ok ⟨n.toNat, h⟩
    else .fail .reachesBound
  | .error is => .error is

/-! ### Decimals -/

/-- The decimal of a numeral, if it is finite. -/
def decimalOfNumeral : Numeral → Checked Decimal
  | .finite d => .ok d
  | _ => .fail .notFinite

/-- The whole number that a value is, a truth value included. -/
def plainInt? : Json → Option Int
  | .whole n => some n
  | .bool b => some (if b then 1 else 0)
  | _ => none

/-- The digit that a value is. -/
def digit? (v : Json) : Option Nat := do
  let n ← plainInt? v
  if 0 ≤ n ∧ n ≤ 9 then return n.toNat else none

/-- The sign that a value is: zero, or one for minus. -/
def sign? (v : Json) : Option Bool := do
  let n ← plainInt? v
  if n = 0 ∨ n = 1 then return n = 1 else none

/-- The numeral of a list of a sign, digits and an exponent. A letter in place of the exponent
stands for infinity or for no number; no digits are zero. -/
def numeralOfParts? : List Json → Option Numeral
  | [sign, .arr digits, exponent] => do
    let negative ← sign? sign
    let coefficient := (← digits.mapM digit?).foldl (fun n d => 10 * n + d) 0
    match exponent with
    | .str (.text "F") => return .infinite negative
    | .str (.text "n") => return .nan negative false coefficient
    | .str (.text "N") => return .nan negative true coefficient
    | v =>
      let d : Decimal := ⟨negative, coefficient, ← plainInt? v⟩
      if d.readable then return .finite d else none
  | _ => none

/-- A decimal, spelled as a number or a text, or in parts if the convention lets it. -/
def decimal (c : Convention) : Check Decimal
  | .whole n => .ok (.ofInt n)
  | .float x => decimalOfNumeral (c.numeral x)
  | .str (.text s) =>
    match Numeral.read? s with
    | some n => decimalOfNumeral n
    | none => .fail .unreadableDecimal
  | .str (.unreadable _) => .fail .unreadableDecimal
  | .arr parts =>
    match c.inParts, numeralOfParts? parts with
    | true, some n => decimalOfNumeral n
    | _, _ => .fail .notDecimal
  | _ => .fail .notDecimal

/-- A decimal of at least zero, and at most a bound if one is given. Minus zero is not below
zero. -/
def decimalUpTo (bound : Option Nat) (c : Convention) : Check Decimal := fun v =>
  match decimal c v with
  | .ok d =>
    if d.belowZero then .fail .belowBound
    else if bound.any d.exceeds then .fail .aboveBound
    else .ok d
  | .error is => .error is

/-! ### Truth values -/

/-- The truth value that a word in lower case stands for. -/
def truthOfWord? (s : String) : Option Bool :=
  if ["0", "off", "f", "false", "n", "no"].contains s then some false
  else if ["1", "on", "t", "true", "y", "yes"].contains s then some true
  else none

/-- The truth value of a text, whose letters may be of either case. -/
def truthOfText (s : String) : Checked Bool :=
  match truthOfWord? (s.map Char.toLower) with
  | some b => .ok b
  | none => .fail .unreadableBool

/-- The truth value of a whole number. One beyond sixty-four bits is not even taken for a
spelling. -/
def truthOfInt (n : Int) : Checked Bool :=
  if n = 0 then .ok false
  else if n = 1 then .ok true
  else if Whole.fits n then .fail .unreadableBool
  else .fail .notBool

/-- A truth value, spelled as such, as zero or one, or as a word. A number with a fraction is not
taken for a spelling. -/
def truth : Check Bool
  | .bool b => .ok b
  | .whole n => truthOfInt n
  | .float x =>
    match intOfDouble x with
    | .ok n => truthOfInt n
    | .error _ => .fail .notBool
  | .str (.text s) => truthOfText s
  | .str (.unreadable _) => .fail .unreadableString
  | _ => .fail .notBool

end Check
end TokenLedger
