/-
# Strings and whole numbers read back

A string is written with escapes: by a letter, by one unit of sixteen bits or by the pair of units of a
character beyond the first 65536. Each escape is read as its character, whatever follows it: a unit
that could make a pair with the next one is written for the first half of a pair only
(`Json.codes_escape`). A whole number is read up to what may follow a value
(`Json.scalar_whole`). A word is read from its letters, and there are six (`Json.exists_word`).

Key definitions: `Json.Follows`, `Json.StartsNumber`, `Json.words`.
Key theorems: `Json.codes_escape`, `Json.string_quoted`, `Json.number_toDigits`, `Json.scalar_whole`,
`Json.exists_word`.
-/
import TokenLedger.Json.Printer
import TokenLedger.Json.Reader
import TokenLedger.Proofs.Decimal.Plain

namespace TokenLedger
namespace Json

variable {d : Dialect} {cs rest : List Char} {ns : List ℕ} {n : ℕ} {c : Char}

/-! ### Escapes -/

theorem hexValue?_hexChar : ∀ k < 16, hexValue? (hexChar k) = some k := by
  decide

/-- A unit is read from its four digits. -/
theorem unit?_digits (h : n < 65536) : unit? (hexChar (n / 4096 % 16)) (hexChar (n / 256 % 16))
    (hexChar (n / 16 % 16)) (hexChar (n % 16)) = some n := by
  have hdigit : ∀ m, hexValue? (hexChar (m % 16)) = some (m % 16) := fun m =>
    hexValue?_hexChar (m % 16) (Nat.mod_lt m (by decide))
  have hvalue : ((n / 4096 % 16 * 16 + n / 256 % 16) * 16 + n / 16 % 16) * 16 + n % 16 = n := by
    omega
  unfold unit?
  rw [hdigit, hdigit, hdigit, hdigit]
  exact congrArg some hvalue

/-- What is made of the digits of a unit and of what follows it. -/
theorem codes_unit (w x y z : Char) : codes d ('\\' :: 'u' :: w :: x :: y :: z :: cs) =
    match unit? w x y z, codes d cs with
    | some n, .ok (ns, rest) => .ok (if startsWithUnit cs then Text.attached n ns else n :: ns, rest)
    | _, _ => .error .malformed :=
  rfl

/-- What is made of a letter that stands for a character, which is not the letter of a unit. -/
theorem codes_letter {e : Char} (he : escaped? e = some c) : codes d ('\\' :: e :: cs) =
    match escaped? e, codes d cs with
    | some c, .ok (ns, rest) => .ok (c.toNat :: ns, rest)
    | _, _ => .error .malformed := by
  unfold escaped? at he
  split at he <;> first | rfl | cases he

theorem codes_unitEscape (h : n < 65536) (hcs : codes d cs = .ok (ns, rest)) :
    codes d (unitEscape n ++ cs) =
      .ok (if startsWithUnit cs then Text.attached n ns else n :: ns, rest) := by
  show codes d ('\\' :: 'u' :: _ :: _ :: _ :: _ :: cs) = _
  rw [codes_unit, unit?_digits h, hcs]

theorem attached_of_not_high (h : Text.isHigh n = false) (ns : List ℕ) :
    Text.attached n ns = n :: ns := by
  cases ns with
  | nil => rfl
  | cons m ms => rw [Text.attached, h, Bool.false_and, if_neg Bool.false_ne_true]

/-- A unit that opens no pair stands for itself, whatever follows. -/
theorem codes_unitEscape_of_not_high (h : n < 65536) (hhigh : Text.isHigh n = false)
    (hcs : codes d cs = .ok (ns, rest)) : codes d (unitEscape n ++ cs) = .ok (n :: ns, rest) := by
  rw [codes_unitEscape h hcs, attached_of_not_high hhigh, ite_self]

theorem codes_plain (hquote : c ≠ '"') (hslash : c ≠ '\\') (hlow : 0x20 ≤ c.toNat)
    (hcs : codes d cs = .ok (ns, rest)) : codes d (c :: cs) = .ok (c.toNat :: ns, rest) := by
  have hsub : c ≠ '\x1A' := by
    rintro rfl
    exact absurd hlow (by decide)
  have hno : ¬ (c.toNat < 0x20 ∨ c = '\\') := by
    rintro (h | h)
    · omega
    · exact hslash h
  unfold codes
  split
  · rename_i heq; cases heq; exact absurd rfl hquote
  · rename_i heq; cases heq; exact absurd rfl hslash
  · rename_i heq; cases heq; exact absurd rfl hslash
  · rename_i heq; cases heq; exact absurd rfl hsub
  · rename_i heq; cases heq; rw [if_neg hno, hcs]
  · rename_i heq; cases heq

theorem codes_escaped {e : Char} (he : escaped? e = some c) (hcs : codes d cs = .ok (ns, rest)) :
    codes d ('\\' :: e :: cs) = .ok (c.toNat :: ns, rest) := by
  rw [codes_letter he, he, hcs]

/-- No character is half of a pair. -/
theorem not_surrogate (c : Char) : ¬ (0xD800 ≤ c.toNat ∧ c.toNat ≤ 0xDFFF) := by
  have hvalid : c.toNat.isValidChar := c.valid
  unfold Nat.isValidChar at hvalid
  omega

/-- The two units of a character beyond the first 65536 are joined again. -/
theorem codes_pair (hlow : 0x10000 ≤ c.toNat) (hcs : codes d cs = .ok (ns, rest)) :
    codes d (unitEscape (0xD800 + (c.toNat - 0x10000) / 0x400)
      ++ unitEscape (0xDC00 + (c.toNat - 0x10000) % 0x400) ++ cs) = .ok (c.toNat :: ns, rest) := by
  have hbound : c.toNat < 0x110000 := by
    have hvalid : c.toNat.isValidChar := c.valid
    unfold Nat.isValidChar at hvalid
    omega
  have hhigh : Text.isHigh (0xD800 + (c.toNat - 0x10000) / 0x400) = true := by
    simp only [Text.isHigh, Bool.and_eq_true, decide_eq_true_eq]
    omega
  have hnot : Text.isHigh (0xDC00 + (c.toNat - 0x10000) % 0x400) = false := by
    simp only [Text.isHigh, Bool.and_eq_false_iff, decide_eq_false_iff_not]
    omega
  have hclose : Text.isLow (0xDC00 + (c.toNat - 0x10000) % 0x400) = true := by
    simp only [Text.isLow, Bool.and_eq_true, decide_eq_true_eq]
    omega
  have hpaired : Text.paired (0xD800 + (c.toNat - 0x10000) / 0x400)
      (0xDC00 + (c.toNat - 0x10000) % 0x400) = c.toNat := by
    unfold Text.paired
    omega
  have hsecond := codes_unitEscape_of_not_high (by omega) hnot hcs
  rw [List.append_assoc, codes_unitEscape (by omega) hsecond]
  have hstart : startsWithUnit (unitEscape (0xDC00 + (c.toNat - 0x10000) % 0x400) ++ cs) = true := rfl
  rw [if_pos hstart, Text.attached, hhigh, hclose, Bool.and_self, if_pos rfl, hpaired]

/-- **An escaped character is read as itself.** -/
theorem codes_escape (c : Char) (hcs : codes d cs = .ok (ns, rest)) :
    codes d (escape c ++ cs) = .ok (c.toNat :: ns, rest) := by
  unfold escape
  by_cases hquote : c = '"'
  · rw [if_pos hquote, hquote]
    exact codes_escaped rfl hcs
  rw [if_neg hquote]
  by_cases hslash : c = '\\'
  · rw [if_pos hslash, hslash]
    exact codes_escaped rfl hcs
  rw [if_neg hslash]
  by_cases hn : c = '\n'
  · rw [if_pos hn, hn]
    exact codes_escaped rfl hcs
  rw [if_neg hn]
  by_cases hr : c = '\r'
  · rw [if_pos hr, hr]
    exact codes_escaped rfl hcs
  rw [if_neg hr]
  by_cases ht : c = '\t'
  · rw [if_pos ht, ht]
    exact codes_escaped rfl hcs
  rw [if_neg ht]
  by_cases hb : c = '\x08'
  · rw [if_pos hb, hb]
    exact codes_escaped rfl hcs
  rw [if_neg hb]
  by_cases hf : c = '\x0c'
  · rw [if_pos hf, hf]
    exact codes_escaped rfl hcs
  rw [if_neg hf]
  by_cases hprint : 0x20 ≤ c.toNat ∧ c.toNat < 0x7F
  · rw [if_pos hprint]
    exact codes_plain hquote hslash hprint.1 hcs
  rw [if_neg hprint]
  by_cases hpair : c.toNat < 0x10000
  · have hhigh : Text.isHigh c.toNat = false := by
      have := not_surrogate c
      simp only [Text.isHigh, Bool.and_eq_false_iff, decide_eq_false_iff_not]
      omega
    rw [if_pos hpair]
    exact codes_unitEscape_of_not_high hpair hhigh hcs
  · rw [if_neg hpair]
    exact codes_pair (Nat.le_of_not_lt hpair) hcs

/-! ### Strings -/

theorem codes_flatMap_escape (d : Dialect) (cs rest : List Char) :
    codes d (cs.flatMap escape ++ '"' :: rest) = .ok (cs.map Char.toNat, rest) := by
  induction cs with
  | nil => rfl
  | cons c cs ih =>
    rw [List.flatMap_cons, List.append_assoc, codes_escape c ih, List.map_cons]

theorem characters?_map_toNat (cs : List Char) : Text.characters? (cs.map Char.toNat) = some cs := by
  induction cs with
  | nil => rfl
  | cons c cs ih =>
    have hc : c.toNat.isValidChar := c.valid
    unfold Text.characters? at ih ⊢
    rw [List.map_cons, List.mapM_cons, ih, if_pos hc, Char.ofNat_toNat]
    rfl

/-- **A quoted text is read as the text.** -/
theorem string_quoted (d : Dialect) (s : String) (rest : List Char) :
    string d (s.toList.flatMap escape ++ '"' :: rest) = .ok (.text s, rest) := by
  have hcodes : RawText.ofCodes (s.toList.map Char.toNat) = .text s := by
    unfold RawText.ofCodes
    rw [characters?_map_toNat]
    exact congrArg RawText.text String.ofList_toList
  unfold string
  rw [codes_flatMap_escape]
  simp only [hcodes, RawText.readable, Bool.or_true, if_true, bind, Except.bind]
  rfl

/-! ### Numbers -/

/-- What may follow a value in a text: nothing, a comma, or the end of an array or object. -/
def Follows (rest : List Char) : Prop :=
  ∀ c, rest.head? = some c → c = ',' ∨ c = ']' ∨ c = '\x7d'

theorem follows_nil : Follows [] := by
  intro c hc
  cases hc

theorem follows_cons (hc : c = ',' ∨ c = ']' ∨ c = '\x7d') (cs : List Char) : Follows (c :: cs) := by
  intro e he
  rw [List.head?_cons, Option.some.injEq] at he
  exact he ▸ hc

theorem Follows.not_isDigit (h : Follows rest) : rest.takeWhile Char.isDigit = [] ∧
    rest.dropWhile Char.isDigit = rest := by
  cases rest with
  | nil => exact ⟨rfl, rfl⟩
  | cons c cs =>
    have hc : ¬ c.isDigit = true := by
      rcases h c rfl with rfl | rfl | rfl <;> decide
    exact ⟨List.takeWhile_cons_of_neg hc, List.dropWhile_cons_of_neg hc⟩

theorem splitDigits_toDigits (k : ℕ) (h : Follows rest) :
    Whole.splitDigits (Nat.toDigits 10 k ++ rest) = (Nat.toDigits 10 k, rest) := by
  by_cases hk : k = 0
  · subst hk
    rfl
  · obtain ⟨c, cs, hcs, hc⟩ := Decimal.exists_toDigits_eq_cons hk
    have hdigits : ∀ e ∈ Nat.toDigits 10 k, e.isDigit = true := fun _ => Decimal.isDigit_of_mem_digits
    unfold Whole.splitDigits
    split
    · rename_i heq
      rw [hcs, List.cons_append] at heq
      cases heq
      exact absurd rfl hc
    · rw [List.takeWhile_append_of_pos hdigits, List.dropWhile_append_of_pos hdigits,
        h.not_isDigit.1, h.not_isDigit.2, List.append_nil]

theorem Follows.fractionDigits (h : Follows rest) : Json.fractionDigits rest = ([], rest) := by
  unfold Json.fractionDigits
  split
  · rcases h '.' rfl with h | h | h <;> cases h
  · rfl

theorem Follows.exponentPart (h : Follows rest) : Json.exponentPart rest = (none, rest) := by
  cases rest with
  | nil => rfl
  | cons c cs =>
    have hc : ¬ (c = 'e' ∨ c = 'E') := by
      rcases h c rfl with rfl | rfl | rfl <;> decide
    rw [Json.exponentPart, if_neg hc]

/-- The digits of a natural are read as the natural, with the sign that was read before. -/
theorem number_toDigits (d : Dialect) (negative : Bool) {k : ℕ}
    (hlength : Text.digitCount k ≤ Whole.maxLength) (h : Follows rest) :
    number d negative (Nat.toDigits 10 k ++ rest) =
      .ok (.whole (if negative then -(k : ℤ) else k), rest) := by
  have hne : Nat.toDigits 10 k ≠ [] := Nat.toDigits_ne_nil
  have hshort : d.limit.excludes true (Nat.toDigits 10 k) = false := by
    have hexceeds : Whole.exceeds (Nat.toDigits 10 k) = false := by
      unfold Whole.exceeds
      exact decide_eq_false (Nat.not_lt.mpr hlength)
    cases hlimit : d.limit <;> simp [NumberLimit.excludes, hexceeds]
  unfold number
  simp only [splitDigits_toDigits k h, h.fractionDigits, h.exponentPart, if_neg hne, and_self,
    decide_true, hshort, if_true, Bool.false_eq_true, if_false, Whole.ofDigits,
    Text.natOfDigits_toDigits]

/-! ### Words -/

/-- The words, and what they stand for. -/
def words : List (List Char × Json) :=
  [(['n', 'u', 'l', 'l'], .null), (['t', 'r', 'u', 'e'], .bool true),
    (['f', 'a', 'l', 's', 'e'], .bool false), (['N', 'a', 'N'], .float .nan),
    (['I', 'n', 'f', 'i', 'n', 'i', 't', 'y'], .float (.infinite false)),
    (['-', 'I', 'n', 'f', 'i', 'n', 'i', 't', 'y'], .float (.infinite true))]

/-- A word is read from its letters. -/
theorem exists_word {v : Json} (h : word? cs = some (v, rest)) :
    ∃ letters, (letters, v) ∈ words ∧ cs = letters ++ rest := by
  unfold word? at h
  split at h <;> cases h
  · exact ⟨_, .head _, rfl⟩
  · exact ⟨_, .tail _ (.head _), rfl⟩
  · exact ⟨_, .tail _ (.tail _ (.head _)), rfl⟩
  · exact ⟨_, .tail _ (.tail _ (.tail _ (.head _))), rfl⟩
  · exact ⟨_, .tail _ (.tail _ (.tail _ (.tail _ (.head _)))), rfl⟩
  · exact ⟨_, .tail _ (.tail _ (.tail _ (.tail _ (.tail _ (.head _))))), rfl⟩

/-- How words start. -/
theorem word?_first {r : Json × List Char} (h : word? (c :: cs) = some r) :
    c ∈ ['n', 't', 'f', 'N', 'I'] ∨ c = '-' ∧ cs.head? = some 'I' := by
  obtain ⟨letters, hmem, hcs⟩ := exists_word h
  simp only [words, List.mem_cons, Prod.mk.injEq, List.not_mem_nil, or_false] at hmem
  rcases hmem with ⟨rfl, -⟩ | ⟨rfl, -⟩ | ⟨rfl, -⟩ | ⟨rfl, -⟩ | ⟨rfl, -⟩ | ⟨rfl, -⟩
  all_goals
    obtain ⟨rfl, rfl⟩ := List.cons.inj hcs
    simp

/-- No word starts with a digit. -/
theorem word?_of_isDigit (hc : c.isDigit = true) (cs : List Char) : word? (c :: cs) = none := by
  rw [Option.eq_none_iff_forall_ne_some]
  intro r h
  rcases word?_first h with hletter | ⟨rfl, -⟩
  · simp only [List.mem_cons, List.not_mem_nil, or_false] at hletter
    rcases hletter with rfl | rfl | rfl | rfl | rfl <;> exact absurd hc (by decide)
  · exact absurd hc (by decide)

/-- Nor does one with a minus sign and a digit. -/
theorem word?_minus (hc : c.isDigit = true) (cs : List Char) : word? ('-' :: c :: cs) = none := by
  rw [Option.eq_none_iff_forall_ne_some]
  intro r h
  rcases word?_first h with hletter | ⟨-, hinfinite⟩
  · exact absurd hletter (by decide)
  · cases hinfinite
    exact absurd hc (by decide)

theorem scalar_of_isDigit (hc : c.isDigit = true) (cs : List Char) :
    scalar d (c :: cs) = number d false (c :: cs) := by
  unfold scalar
  rw [word?_of_isDigit hc]
  simp only
  split
  · rename_i heq
    rw [List.head_eq_of_cons_eq heq] at hc
    exact absurd hc (by decide)
  · rfl

theorem scalar_minus (hc : c.isDigit = true) (cs : List Char) :
    scalar d ('-' :: c :: cs) = number d true (c :: cs) := by
  unfold scalar
  rw [word?_minus hc]
  rfl

/-- **A written whole number is read as the number.** -/
theorem scalar_whole (d : Dialect) {k : ℤ} (hlength : Text.digitCount k.natAbs ≤ Whole.maxLength)
    (h : Follows rest) : scalar d ((Whole.text k).toList ++ rest) = .ok (.whole k, rest) := by
  obtain ⟨c, cs, hcs⟩ := List.exists_cons_of_ne_nil (Nat.toDigits_ne_nil (b := 10) (n := k.natAbs))
  have hc : c.isDigit = true := Decimal.isDigit_of_mem_digits (hcs ▸ List.mem_cons_self)
  have hnumber := fun negative => number_toDigits d negative hlength h
  unfold Whole.text
  rw [String.toList_ofList, List.append_assoc, hcs]
  rw [hcs] at hnumber
  by_cases hk : k < 0
  · have hvalue : (if true = true then -((k.natAbs : ℕ) : ℤ) else (k.natAbs : ℕ)) = k := by
      rw [if_pos rfl]
      omega
    have htrue := hnumber true
    rw [hvalue] at htrue
    rw [decide_eq_true hk]
    exact (scalar_minus hc _).trans htrue
  · have hvalue : (if false = true then -((k.natAbs : ℕ) : ℤ) else (k.natAbs : ℕ)) = k := by
      rw [if_neg Bool.false_ne_true]
      omega
    have hfalse := hnumber false
    rw [hvalue] at hfalse
    rw [decide_eq_false hk]
    exact (scalar_of_isDigit hc _).trans hfalse

/-- A character that a whole number can start with. -/
def StartsNumber (c : Char) : Prop :=
  c = '-' ∨ c.isDigit = true

theorem StartsNumber.ne {e : Char} (h : StartsNumber c) (he : e ≠ '-' ∧ e.isDigit = false) : c ≠ e := by
  rintro rfl
  rcases h with h | h
  · exact he.1 h
  · rw [he.2] at h
    cases h

theorem StartsNumber.isGap (h : StartsNumber c) : Json.isGap c = false := by
  simp only [Json.isGap, Bool.or_eq_false_iff, beq_eq_false_iff_ne]
  exact ⟨⟨⟨h.ne (by decide), h.ne (by decide)⟩, h.ne (by decide)⟩, h.ne (by decide)⟩

theorem exists_text_eq_cons (k : ℤ) :
    ∃ c cs, (Whole.text k).toList = c :: cs ∧ StartsNumber c := by
  unfold Whole.text
  rw [String.toList_ofList]
  by_cases hk : k < 0
  · rw [decide_eq_true hk]
    exact ⟨'-', _, rfl, .inl rfl⟩
  · obtain ⟨c, cs, hcs⟩ := List.exists_cons_of_ne_nil (Nat.toDigits_ne_nil (b := 10) (n := k.natAbs))
    rw [decide_eq_false hk, hcs]
    exact ⟨c, cs, rfl, .inr (Decimal.isDigit_of_mem_digits (hcs ▸ List.mem_cons_self))⟩

end Json
end TokenLedger
