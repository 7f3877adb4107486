/-
# JSON values

A JSON value keeps what its text tells apart: whole numbers are exact and distinct from numbers with
a fraction or an exponent, which are binary; strings and names need not be text; the members of an
object stand in the order of the text, repeated names included. Of a repeated name the last member
counts (`Json.last?`), and `merged` leaves each name once.

Key definitions: `Json`, `Json.Members`, `Json.last?`, `Json.merged`, `Json.readable`,
`Json.finite`, `Json.height`.
-/
import TokenLedger.Number.Double
import TokenLedger.Text.Raw

namespace TokenLedger

inductive Json where
  | null
  | bool (b : Bool)
  | whole (n : Int)
  | float (x : Double)
  | str (s : RawText)
  | arr (items : List Json)
  | obj (members : List (RawText × Json))

namespace Json

/-- The members of an object. -/
abbrev Members := List (RawText × Json)

/-- The value of the last member of a name. -/
def last? (name : RawText) : Members → Option Json
  | [] => none
  | (k, v) :: rest =>
    match last? name rest with
    | some w => some w
    | none => if k = name then some v else none

/-- The members with one more: the value of a present name is replaced where it stands, a new name
goes to the end. -/
def put (members : Members) (name : RawText) (v : Json) : Members :=
  match members with
  | [] => [(name, v)]
  | (k, w) :: rest => if k = name then (k, v) :: rest else (k, w) :: put rest name v

mutual

/-- The value with every name once in each object. -/
def merged : Json → Json
  | .arr items => .arr (mergedItems items)
  | .obj members => .obj (mergedMembers members [])
  | v => v

def mergedItems : List Json → List Json
  | [] => []
  | v :: rest => merged v :: mergedItems rest

/-- The members put one after the other behind those of `done`. -/
def mergedMembers : Members → Members → Members
  | [], done => done
  | (k, v) :: rest, done => mergedMembers rest (put done k (merged v))

end

mutual

/-- Whether all strings and names of a value are text. -/
def readable : Json → Bool
  | .str s => s.readable
  | .arr items => readableItems items
  | .obj members => readableMembers members
  | _ => true

def readableItems : List Json → Bool
  | [] => true
  | v :: rest => readable v && readableItems rest

def readableMembers : Members → Bool
  | [] => true
  | (k, v) :: rest => k.readable && readable v && readableMembers rest

end

mutual

/-- Whether all numbers of a value are finite. -/
def finite : Json → Bool
  | .float .nan => false
  | .float (.infinite _) => false
  | .arr items => finiteItems items
  | .obj members => finiteMembers members
  | _ => true

def finiteItems : List Json → Bool
  | [] => true
  | v :: rest => finite v && finiteItems rest

def finiteMembers : Members → Bool
  | [] => true
  | (_, v) :: rest => finite v && finiteMembers rest

end

mutual

/-- The number of values one inside the other, the value itself included. -/
def height : Json → Nat
  | .arr items => heightOfItems items + 1
  | .obj members => heightOfMembers members + 1
  | _ => 1

def heightOfItems : List Json → Nat
  | [] => 0
  | v :: rest => max (height v) (heightOfItems rest)

def heightOfMembers : Members → Nat
  | [] => 0
  | (_, v) :: rest => max (height v) (heightOfMembers rest)

end

/-- A text as a value. -/
def ofText (s : String) : Json :=
  .str s

/-- The value of what is there, or null. -/
def ofOption {α : Type} (f : α → Json) : Option α → Json
  | some a => f a
  | none => .null

end Json
end TokenLedger
