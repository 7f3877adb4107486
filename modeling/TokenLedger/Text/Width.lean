/-
# Widths in UTF-8 bytes

How many bytes a text takes in UTF-8, and the longest part of its start that fits a number of bytes.
The cut is made between characters, so it never leaves a part of one.

Key definitions: `byteWidth`, `takeBytes`, `truncate`.
-/

namespace TokenLedger
namespace Text

/-- The number of UTF-8 bytes of a text. -/
def byteWidth : List Char → Nat
  | [] => 0
  | c :: cs => c.utf8Size + byteWidth cs

/-- The characters from the start of a text that fit in `room` bytes, up to the first that does
not. -/
def takeBytes (room : Nat) : List Char → List Char
  | [] => []
  | c :: cs => if c.utf8Size ≤ room then c :: takeBytes (room - c.utf8Size) cs else []

/-- The room that a limit leaves for a text of `width` bytes: a negative limit counts from the
end. -/
def room (width : Nat) (limit : Int) : Nat :=
  if 0 ≤ limit then limit.toNat else ((width : Int) + limit).toNat

/-- The longest part of the start of a text that a limit in bytes leaves room for. -/
def truncate (s : String) (limit : Int) : String :=
  String.ofList (takeBytes (room (byteWidth s.toList) limit) s.toList)

end Text
end TokenLedger
