/-
# Strings that may be no text

A string whose escapes leave a surrogate without its partner is no text: it has no spelling in
octets. It is told from others by its code points.

Key definitions: `RawText`, `RawText.ofCodes`, `RawText.codes`, `RawText.readable`,
`RawText.shown`.
-/
import TokenLedger.Text.Units

namespace TokenLedger

/-- A string. -/
inductive RawText where
  | text (s : String)
  /-- A string that is no text, as its code points. -/
  | unreadable (codes : List Nat)
deriving DecidableEq, Repr

instance : Coe String RawText := ⟨.text⟩

namespace RawText

/-- The string of code points. -/
def ofCodes (codes : List Nat) : RawText :=
  match Text.characters? codes with
  | some cs => .text (String.ofList cs)
  | none => .unreadable codes

/-- The code points of a string. -/
def codes : RawText → List Nat
  | .text s => s.toList.map Char.toNat
  | .unreadable codes => codes

/-- Whether a string is text. -/
def readable : RawText → Bool
  | .text _ => true
  | .unreadable _ => false

/-- The string as text: three replacement characters, one for each octet, stand for a surrogate. -/
def shown : RawText → String
  | .text s => s
  | .unreadable codes =>
    String.ofList (codes.flatMap fun n =>
      if n.isValidChar then [Char.ofNat n] else List.replicate 3 '\uFFFD')

end RawText
end TokenLedger
