/-
# Account addresses

An account address is a number in hexadecimal digits, and it may be spelled in many ways: with or
without `0x`, in either case, with or without leading zeros, with blanks around it. `canonical` is
the spelling the ledger keeps: `0x` and at least sixty-four digits in lower case. It is defined on
every text, also on one that is no number; a body of more than sixty-four characters is kept whole.

Key definitions: `Address.body`, `Address.canonical`.
-/
import TokenLedger.Text.LowerCase
import TokenLedger.Text.Digit

namespace TokenLedger
namespace Address

/-- The number of digits of a canonical address. -/
def width : Nat := 64

/-- The text without one leading `0x`. -/
def withoutMark : List Char → List Char
  | '0' :: 'x' :: cs => cs
  | cs => cs

/-- The digits of an address: its text without outer blanks, in lower case, without its mark. -/
def body (cs : List Char) : List Char :=
  withoutMark (Text.toLower (Text.trim Text.isBlank cs))

/-- The canonical spelling of an address, over characters. -/
def canonicalChars (cs : List Char) : List Char :=
  '0' :: 'x' :: Text.padLeft width '0' (body cs)

/-- The canonical spelling of an address. -/
def canonical (raw : String) : String :=
  String.ofList (canonicalChars raw.toList)

end Address
end TokenLedger
