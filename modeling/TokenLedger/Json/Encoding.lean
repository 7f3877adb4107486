/-
# Octets of JSON texts

A JSON text may be spelled in octets in five ways, with units of one, two or four octets, the wider
ones in either order. Which it is shows in its first four octets: a JSON text starts with a
character of ASCII, whose other octets are zero. A text of two octets is judged by these, one of any
other length below four has units of one octet.

Half of a pair of surrogates, spelled by itself, is no character. In the characters of the text it
stands as a substitute (`Json.substitute`).

Key definitions: `Json.Encoding`, `Json.Encoding.detect`, `Json.Encoding.codes?`,
`Json.Encoding.characters?`.
-/
import TokenLedger.Json.Reader

namespace TokenLedger
namespace Json

/-- How characters are spelled in octets. In the wide spellings the greater octet comes first, or
last. -/
inductive Encoding where
  | octets
  | pairs (greaterFirst : Bool)
  | quads (greaterFirst : Bool)
deriving DecidableEq, Repr

namespace Encoding

/-- The spelling of a JSON text. -/
def detect : List UInt8 → Encoding
  | a :: b :: c :: d :: _ =>
    if a = 0 then if b = 0 then .quads true else .pairs true
    else if b = 0 then if c = 0 ∧ d = 0 then .quads false else .pairs false
    else .octets
  | [a, b] => if a = 0 then .pairs true else if b = 0 then .pairs false else .octets
  | _ => .octets

/-- The value of octets of which the greatest comes first. -/
def valueOf (bytes : List UInt8) : Nat :=
  bytes.foldl (fun n b => n * 256 + b.toNat) 0

/-- The units of two octets each; an odd octet is a fault. -/
def pairUnits? (greaterFirst : Bool) : List UInt8 → Option (List Nat)
  | [] => some []
  | a :: b :: rest =>
    let n := valueOf (if greaterFirst then [a, b] else [b, a])
    (pairUnits? greaterFirst rest).map (n :: ·)
  | _ => none

/-- The units of four octets each, none of them beyond the code points; octets left over are a
fault. -/
def quadUnits? (greaterFirst : Bool) : List UInt8 → Option (List Nat)
  | [] => some []
  | a :: b :: c :: d :: rest =>
    let n := valueOf (if greaterFirst then [a, b, c, d] else [d, c, b, a])
    if n < 0x110000 then (quadUnits? greaterFirst rest).map (n :: ·) else none
  | _ => none

/-- The code points of a text, surrogates without a partner included. A byte order mark at the start
does not count in the narrow spelling. -/
def codes? (e : Encoding) (text : String) : Option (List Nat) :=
  match e with
  | .octets =>
    match text.toList with
    | '\uFEFF' :: cs => some (cs.map Char.toNat)
    | cs => some (cs.map Char.toNat)
  | .pairs greaterFirst => (pairUnits? greaterFirst text.toUTF8.data.toList).map Text.joined
  | .quads greaterFirst => quadUnits? greaterFirst text.toUTF8.data.toList

/-- The characters of the JSON text whose octets are those of `text` in the narrow spelling, with
substitutes for what is no character. -/
def characters? (text : String) : Option (List Char) :=
  ((detect text.toUTF8.data.toList).codes? text).map fun codes => codes.flatMap substitute

end Encoding
end Json
end TokenLedger
