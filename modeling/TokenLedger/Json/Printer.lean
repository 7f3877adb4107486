/-
# Writing JSON

The written form of a JSON value in ASCII: a comma and a colon are followed by a space, a character
outside ASCII is escaped by its 16-bit units, and numbers with a fraction are written by
`Double.text`.

Key definitions: `Json.quoted`, `Json.write`, `Json.text`.
-/
import TokenLedger.Json.Value
import TokenLedger.Number.Whole

namespace TokenLedger
namespace Json

def hexChar (n : Nat) : Char :=
  "0123456789abcdef".toList.getD n '0'

/-- The escape of a 16-bit unit. -/
def unitEscape (n : Nat) : List Char :=
  ['\\', 'u', hexChar (n / 4096 % 16), hexChar (n / 256 % 16), hexChar (n / 16 % 16),
    hexChar (n % 16)]

/-- The written form of a character inside a string. -/
def escape (c : Char) : List Char :=
  if c = '"' then ['\\', '"']
  else if c = '\\' then ['\\', '\\']
  else if c = '\n' then ['\\', 'n']
  else if c = '\r' then ['\\', 'r']
  else if c = '\t' then ['\\', 't']
  else if c = '\x08' then ['\\', 'b']
  else if c = '\x0c' then ['\\', 'f']
  else if 0x20 ≤ c.toNat ∧ c.toNat < 0x7F then [c]
  else if c.toNat < 0x10000 then unitEscape c.toNat
  else
    unitEscape (0xD800 + (c.toNat - 0x10000) / 0x400)
      ++ unitEscape (0xDC00 + (c.toNat - 0x10000) % 0x400)

/-- The written form of a code point inside a string. A surrogate without its partner is escaped as
the unit that it is. -/
def escapeCode (n : Nat) : List Char :=
  if n.isValidChar then escape (Char.ofNat n) else unitEscape n

/-- A string between quotes. -/
def quoted : RawText → List Char
  | .text s => '"' :: (s.toList.flatMap escape ++ ['"'])
  | .unreadable codes => '"' :: (codes.flatMap escapeCode ++ ['"'])

/-- The parts with a comma and a space between them. -/
def separated : List (List Char) → List Char
  | [] => []
  | [part] => part
  | part :: rest => part ++ ',' :: ' ' :: separated rest

mutual

/-- The written form of a value, as characters. -/
def write : Json → List Char
  | .null => "null".toList
  | .bool true => "true".toList
  | .bool false => "false".toList
  | .whole n => (Whole.text n).toList
  | .float x => x.text.toList
  | .str s => quoted s
  | .arr vs => '[' :: (separated (writeItems vs) ++ [']'])
  | .obj ms => '\x7b' :: (separated (writeMembers ms) ++ ['\x7d'])

def writeItems : List Json → List (List Char)
  | [] => []
  | v :: rest => write v :: writeItems rest

def writeMembers : Members → List (List Char)
  | [] => []
  | (k, v) :: rest => (quoted k ++ ':' :: ' ' :: write v) :: writeMembers rest

end

/-- The written form of a value. -/
def text (v : Json) : String :=
  String.ofList (write v)

end Json
end TokenLedger
