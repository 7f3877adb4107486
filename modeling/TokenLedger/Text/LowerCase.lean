/-
# Lower case

The lower case form of a text by the full mapping of Unicode 14. Each letter is mapped on its own,
with two exceptions: the capital I with a dot becomes two characters, and a capital sigma becomes a
final one at the end of a word (after a cased character and before none, looking past the
characters that casing ignores).

Key definitions: `lowerChar`, `endsWord`, `toLower`.
-/
import TokenLedger.Text.Blank
import TokenLedger.Text.CaseTable

namespace TokenLedger
namespace Text

/-- Whether a character has upper or lower case and counts in its context. -/
def isCased (c : Char) : Bool :=
  inRanges casedRanges c.toNat

/-- Whether casing looks past a character. -/
def isCaseIgnorable (c : Char) : Bool :=
  inRanges caseIgnorableRanges c.toNat

/-- The lower case form of a letter that has one of a single character, else the character. -/
def lowerSimple (c : Char) : Char :=
  match lowerRuns.find? (·.covers c.toNat) with
  | some r => Char.ofNat ((c.toNat : Int) + r.offset).toNat
  | none => c

/-- The lower case form of a character without regard to its neighbours. -/
def lowerChar (c : Char) : List Char :=
  if c = '\u0130' then ['i', '\u0307'] else [lowerSimple c]

/-- Whether the nearest character that casing does not look past is cased. -/
def nearestCased (cs : List Char) : Bool :=
  (cs.dropWhile isCaseIgnorable).head?.any isCased

/-- Whether a capital sigma ends a word, from the text before it (nearest first) and after it. -/
def endsWord (before after : List Char) : Bool :=
  nearestCased before && !nearestCased after

/-- The lower case form of a text that follows `before` (nearest character first). -/
def lowerFrom (before : List Char) : List Char → List Char
  | [] => []
  | c :: cs =>
    (if c = 'Σ' then [if endsWord before cs then 'ς' else 'σ'] else lowerChar c)
      ++ lowerFrom (c :: before) cs

/-- The lower case form of a text. -/
def toLower (cs : List Char) : List Char :=
  lowerFrom [] cs

end Text
end TokenLedger
