/-
# Blank characters

Two classes of blank characters and the trimming of a text by either. `isSpace` is the Unicode
property White_Space, 25 characters. `isBlank` adds the four information separators U+001C to
U+001F; addresses and decimal numerals are trimmed by it, whole numbers by `isSpace`.

Key definitions: `isSpace`, `isBlank`, `trim`.
Key theorems: `isBlank_of_isSpace`, `isBlank_of_isWhitespace`.
-/

namespace TokenLedger
namespace Text

/-- Whether a code point lies in one of the closed ranges. -/
def inRanges (ranges : List (Nat × Nat)) (n : Nat) : Bool :=
  ranges.any fun r => r.1 ≤ n && n ≤ r.2

/-- The property White_Space, as closed ranges of code points. -/
def spaceRanges : List (Nat × Nat) :=
  [(0x09, 0x0D), (0x20, 0x20), (0x85, 0x85), (0xA0, 0xA0), (0x1680, 0x1680), (0x2000, 0x200A),
   (0x2028, 0x2029), (0x202F, 0x202F), (0x205F, 0x205F), (0x3000, 0x3000)]

/-- Whether a character has the property White_Space. -/
def isSpace (c : Char) : Bool :=
  inRanges spaceRanges c.toNat

/-- Whether a character is white space or an information separator. -/
def isBlank (c : Char) : Bool :=
  isSpace c || inRanges [(0x1C, 0x1F)] c.toNat

/-- The text without the characters of a class at its two ends. -/
def trim (p : Char → Bool) (cs : List Char) : List Char :=
  ((cs.dropWhile p).reverse.dropWhile p).reverse

theorem isBlank_of_isSpace {c : Char} (h : isSpace c = true) : isBlank c = true := by
  simp [isBlank, h]

/-- The blanks extend the white space of ASCII. -/
theorem isBlank_of_isWhitespace {c : Char} (h : c.isWhitespace = true) : isBlank c = true := by
  simp only [Char.isWhitespace, Bool.or_eq_true, decide_eq_true_eq] at h
  rcases h with ((h | h) | h) | h <;> subst h <;> decide

end Text
end TokenLedger
