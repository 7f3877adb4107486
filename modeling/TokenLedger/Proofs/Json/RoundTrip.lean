/-
# Values read back

Reading the written form of a value gives the value back (`Json.read_text`). The value must be plain:
its whole numbers are short enough to be read, it has no number with a fraction, all its strings are
text, and the names in each object are distinct. It must not be higher than the dialect allows. The
items of an array and the members of an object are read alike, up to a comma or the closing mark, so
one lemma serves both (`Json.items_separated`).

Key definitions: `Json.plain`, `Json.Reads`, `Json.writeMember`.
Key theorems: `Json.items_separated`, `Json.exists_items_text`, `Json.reads_arr`, `Json.reads_obj`,
`Json.reads_write`, `Json.read_text`, `Json.merged_of_plain`.
-/
import TokenLedger.Proofs.Json.Scalars

namespace TokenLedger
namespace Json

variable {d : Dialect} {cs rest : List Char} {c : Char}

/-! ### Lists with commas -/

theorem skipGap_cons (hc : isGap c = false) (cs : List Char) : skipGap (c :: cs) = c :: cs :=
  List.dropWhile_cons_of_neg (by simp [hc])

section Items

variable {α : Type} {item : Reader α} {spell : α → List Char} {close : Char}

theorem items_space (h : ∀ cs, item (' ' :: cs) = item cs) (bound : ℕ) (cs : List Char) :
    items item close bound (' ' :: cs) = items item close bound cs := by
  cases bound with
  | zero => rfl
  | succ bound => simp only [items, h]

/-- The last item is followed by the closing mark. -/
theorem items_close {x : α} (hclose : close = ']' ∨ close = '\x7d')
    (hx : item cs = .ok (x, close :: rest)) (bound : ℕ) :
    items item close (bound + 1) cs = .ok ([x], rest) := by
  have hgap : isGap close = false := by rcases hclose with rfl | rfl <;> rfl
  have hcomma : close ≠ ',' := by rcases hclose with rfl | rfl <;> decide
  simp only [items, hx, bind, Except.bind, skipGap_cons hgap, if_neg hcomma, if_true]
  rfl

/-- Every other item is followed by a comma. -/
theorem items_comma {x : α} {xs : List α} {rest' : List Char} {bound : ℕ}
    (hx : item cs = .ok (x, ',' :: rest)) (hxs : items item close bound rest = .ok (xs, rest')) :
    items item close (bound + 1) cs = .ok (x :: xs, rest') := by
  have hgap : isGap ',' = false := rfl
  simp only [items, hx, bind, Except.bind, skipGap_cons hgap, if_true, hxs]
  rfl

theorem exists_separated_eq_append (part : List Char) (parts : List (List Char)) :
    ∃ tail, separated (part :: parts) = part ++ tail := by
  cases parts with
  | nil => exact ⟨[], (List.append_nil part).symm⟩
  | cons next parts => exact ⟨_, rfl⟩

theorem length_le_separated (parts : List (List Char)) :
    parts.length ≤ (separated parts).length + 1 := by
  induction parts with
  | nil => exact Nat.zero_le _
  | cons part rest ih =>
    cases rest with
    | nil => exact Nat.le_add_left _ _
    | cons next rest =>
      simp only [separated, List.length_append, List.length_cons] at ih ⊢
      omega

/-- **Items are read back from their written forms with commas between them**, if each of them is. -/
theorem items_separated (hclose : close = ']' ∨ close = '\x7d')
    (hspace : ∀ cs, item (' ' :: cs) = item cs) :
    ∀ (xs : List α), xs ≠ [] →
      (∀ x ∈ xs, ∀ rest, Follows rest → item (spell x ++ rest) = .ok (x, rest)) →
      ∀ bound, xs.length ≤ bound → ∀ rest,
        items item close bound (separated (xs.map spell) ++ close :: rest) = .ok (xs, rest)
  | [], hne, _, _, _, _ => absurd rfl hne
  | x :: xs, _, hitem, 0, hbound, _ => by simp at hbound
  | [x], _, hitem, bound + 1, _, rest => by
    have hx := hitem x List.mem_cons_self (close :: rest) (follows_cons (.inr hclose) rest)
    exact items_close hclose hx bound
  | x :: y :: ys, _, hitem, bound + 1, hbound, rest => by
    have hfollows : Follows (',' :: ' ' :: (separated ((y :: ys).map spell) ++ close :: rest)) :=
      follows_cons (.inl rfl) _
    have hx := hitem x List.mem_cons_self _ hfollows
    have hrest := items_separated hclose hspace (y :: ys) (List.cons_ne_nil _ _)
      (fun z hz => hitem z (List.mem_cons_of_mem _ hz)) bound (Nat.le_of_succ_le_succ hbound) rest
    have htext : separated ((x :: y :: ys).map spell) ++ close :: rest =
        spell x ++ ',' :: ' ' :: (separated ((y :: ys).map spell) ++ close :: rest) := by
      simp only [List.map_cons, separated, List.append_assoc, List.cons_append]
    rw [htext]
    exact items_comma hx ((items_space hspace bound _).trans hrest)

/-- Behind an opening mark they start with no white space and no closing mark, and are not more than
the characters that are left. -/
theorem exists_items_text {xs : List α} (hclose : close = ']' ∨ close = '\x7d')
    (hspace : ∀ cs, item (' ' :: cs) = item cs) (hne : xs ≠ [])
    (hfirst : ∀ x ∈ xs, ∃ c cs, spell x = c :: cs ∧ isGap c = false ∧ c ≠ close)
    (hitem : ∀ x ∈ xs, ∀ rest, Follows rest → item (spell x ++ rest) = .ok (x, rest))
    (rest : List Char) :
    ∃ c cs, separated (xs.map spell) ++ close :: rest = c :: cs ∧ isGap c = false ∧ c ≠ close ∧
      items item close ((c :: cs).length + 1) (c :: cs) = .ok (xs, rest) := by
  have hlength := length_le_separated (xs.map spell)
  rw [List.length_map] at hlength
  obtain ⟨x, ys, rfl⟩ := List.exists_cons_of_ne_nil hne
  obtain ⟨c, cs, hcs, hgap, hc⟩ := hfirst x List.mem_cons_self
  obtain ⟨tail, htail⟩ := exists_separated_eq_append (spell x) (ys.map spell)
  have htext : separated ((x :: ys).map spell) ++ close :: rest = c :: (cs ++ tail ++ close :: rest) := by
    rw [List.map_cons, htail, hcs, List.cons_append, List.cons_append]
  refine ⟨c, _, htext, hgap, hc, ?_⟩
  rw [← htext]
  refine items_separated hclose hspace _ hne hitem _ ?_ rest
  rw [List.length_append]
  omega

end Items

/-! ### Values -/

mutual

/-- Whether a value is written so that it reads as it is: it has no number with a fraction, no whole
number too long to be read, and no string that is no text, and the names in an object are distinct. -/
def plain : Json → Bool
  | .whole n => Text.digitCount n.natAbs ≤ Whole.maxLength
  | .float _ => false
  | .str s => s.readable
  | .arr items => plainItems items
  | .obj members => (members.map Prod.fst).Nodup && plainMembers members
  | _ => true

def plainItems : List Json → Bool
  | [] => true
  | v :: rest => plain v && plainItems rest

def plainMembers : Members → Bool
  | [] => true
  | (k, v) :: rest => k.readable && plain v && plainMembers rest

end

theorem plainItems_iff {vs : List Json} : plainItems vs = true ↔ ∀ v ∈ vs, v.plain = true := by
  induction vs with
  | nil => simp [plainItems]
  | cons v vs ih => rw [plainItems, Bool.and_eq_true, ih, List.forall_mem_cons]

/-- The written form of a member. -/
def writeMember (m : RawText × Json) : List Char :=
  quoted m.1 ++ ':' :: ' ' :: write m.2

theorem writeItems_eq_map (vs : List Json) : writeItems vs = vs.map write := by
  induction vs with
  | nil => rfl
  | cons v vs ih => exact congrArg (write v :: ·) ih

theorem writeMembers_eq_map (ms : Members) : writeMembers ms = ms.map writeMember := by
  induction ms with
  | nil => rfl
  | cons m ms ih => exact congrArg (writeMember m :: ·) ih

theorem write_whole (n : ℤ) : write (.whole n) = (Whole.text n).toList := rfl

theorem write_str (s : RawText) : write (.str s) = quoted s := rfl

theorem write_arr (vs : List Json) : write (.arr vs) = '[' :: (separated (vs.map write) ++ [']']) := by
  rw [← writeItems_eq_map]
  rfl

theorem write_obj (ms : Members) :
    write (.obj ms) = '\x7b' :: (separated (ms.map writeMember) ++ ['\x7d']) := by
  rw [← writeMembers_eq_map]
  rfl

theorem isEmpty_text_obj (ms : Members) : (Json.obj ms).text.isEmpty = false := by
  simp [text, write_obj]

/-- White space in front of a value does not count. -/
theorem value_space (d : Dialect) (depth : ℕ) (cs : List Char) :
    value d depth (' ' :: cs) = value d depth cs := by
  have hgap : skipGap (' ' :: cs) = skipGap cs := List.dropWhile_cons_of_pos rfl
  cases depth <;> simp only [value, valueWith, hgap]

theorem member_space (d : Dialect) (read : Reader Json) (cs : List Char) :
    member d read (' ' :: cs) = member d read cs := by
  have hgap : skipGap (' ' :: cs) = skipGap cs := List.dropWhile_cons_of_pos rfl
  simp only [member, hgap]

/-- A value is read from its written form, whatever may follow it. -/
def Reads (d : Dialect) (depth : ℕ) (v : Json) : Prop :=
  ∀ rest, Follows rest → value d depth (write v ++ rest) = .ok (v, rest)

/-- The written form of a plain value starts with no white space, and does not close an array. -/
theorem exists_write_eq_cons (v : Json) (h : v.plain = true) :
    ∃ c cs, write v = c :: cs ∧ isGap c = false ∧ c ≠ ']' := by
  cases v with
  | null => exact ⟨'n', _, rfl, by decide⟩
  | bool b =>
    cases b with
    | true => exact ⟨'t', _, rfl, by decide⟩
    | false => exact ⟨'f', _, rfl, by decide⟩
  | whole n =>
    obtain ⟨c, cs, hcs, hc⟩ := exists_text_eq_cons n
    exact ⟨c, cs, by rw [write_whole, hcs], hc.isGap, hc.ne (by decide)⟩
  | float x => cases h
  | str s =>
    cases s with
    | text s => exact ⟨'"', _, rfl, by decide⟩
    | unreadable codes => exact ⟨'"', _, rfl, by decide⟩
  | arr vs => exact ⟨'[', _, rfl, by decide⟩
  | obj ms => exact ⟨'\x7b', _, rfl, by decide⟩

theorem member_write {depth : ℕ} {m : RawText × Json} (hname : m.1.readable = true)
    (h : Reads d depth m.2) (hrest : Follows rest) :
    member d (value d depth) (writeMember m ++ rest) = .ok (m, rest) := by
  obtain ⟨name, v⟩ := m
  cases name with
  | unreadable codes => cases hname
  | text s =>
    have hstring := string_quoted d s (':' :: ' ' :: (write v ++ rest))
    have htext : writeMember (.text s, v) ++ rest =
        '"' :: (s.toList.flatMap escape ++ '"' :: ':' :: ' ' :: (write v ++ rest)) := by
      simp only [writeMember, quoted, List.append_assoc, List.cons_append, List.nil_append]
    rw [htext]
    unfold member
    simp only [skipGap_cons (show isGap '"' = false from rfl), hstring, bind, Except.bind,
      skipGap_cons (show isGap ':' = false from rfl), value_space, h rest hrest]
    rfl

/-! ### One value -/

variable {depth : ℕ} {vs : List Json} {ms : Members}

/-- A text that starts with none of the three marks is a word or a number. -/
theorem value_scalar (depth : ℕ) (hgap : isGap c = false) (hquote : c ≠ '"') (hitems : c ≠ '[')
    (hmembers : c ≠ '\x7b') (cs : List Char) : value d depth (c :: cs) = scalar d (c :: cs) := by
  have hvalue : ∀ nested, valueWith d nested (c :: cs) = scalar d (c :: cs) := by
    intro nested
    unfold valueWith
    rw [skipGap_cons hgap]
    split
    · rename_i heq; exact absurd (List.head_eq_of_cons_eq heq) hquote
    · rename_i heq; exact absurd (List.head_eq_of_cons_eq heq) hitems
    · rename_i heq; exact absurd (List.head_eq_of_cons_eq heq) hmembers
    · rfl
  cases depth with
  | zero => exact hvalue none
  | succ depth => exact hvalue (some (value d depth))

theorem reads_null (d : Dialect) (depth : ℕ) : Reads d depth .null := fun _ _ =>
  value_scalar depth rfl (by decide) (by decide) (by decide) _

theorem reads_bool (d : Dialect) (depth : ℕ) (b : Bool) : Reads d depth (.bool b) := by
  intro rest _
  cases b with
  | true => exact value_scalar depth rfl (by decide) (by decide) (by decide) _
  | false => exact value_scalar depth rfl (by decide) (by decide) (by decide) _

theorem reads_whole (d : Dialect) (depth : ℕ) {n : ℤ}
    (h : Text.digitCount n.natAbs ≤ Whole.maxLength) : Reads d depth (.whole n) := by
  intro rest hrest
  obtain ⟨c, cs, hcs, hc⟩ := exists_text_eq_cons n
  have hscalar := scalar_whole d h hrest
  rw [hcs] at hscalar
  rw [write_whole, hcs]
  exact (value_scalar depth hc.isGap (hc.ne (by decide)) (hc.ne (by decide)) (hc.ne (by decide)) _).trans
    hscalar

theorem reads_str (d : Dialect) (depth : ℕ) (s : String) : Reads d depth (.str (.text s)) := by
  intro rest _
  have htext : write (.str (.text s)) ++ rest = '"' :: (s.toList.flatMap escape ++ '"' :: rest) := by
    simp only [write_str, quoted, List.cons_append, List.append_assoc, List.nil_append]
  have hvalue : ∀ nested, valueWith d nested (write (.str (.text s)) ++ rest) =
      .ok (.str (.text s), rest) := by
    intro nested
    rw [htext]
    unfold valueWith
    simp only [skipGap_cons (show isGap '"' = false from rfl), string_quoted, bind, Except.bind]
    rfl
  cases depth with
  | zero => exact hvalue none
  | succ depth => exact hvalue (some (value d depth))

theorem reads_arr_nil (d : Dialect) (depth : ℕ) : Reads d depth (.arr []) := by
  intro rest _
  cases depth <;> rfl

theorem reads_obj_nil (d : Dialect) (depth : ℕ) : Reads d depth (.obj []) := by
  intro rest _
  cases depth <;> rfl

/-- What is left to show of an array that is not empty: that its items are read. -/
theorem valueWith_items {read : Reader Json} (hgap : isGap c = false) (hclose : c ≠ ']')
    (h : items read ']' ((c :: cs).length + 1) (c :: cs) = .ok (vs, rest)) :
    valueWith d (some read) ('[' :: c :: cs) = .ok (.arr vs, rest) := by
  unfold valueWith
  simp only [skipGap_cons (show isGap '[' = false from rfl), skipGap_cons hgap]
  split
  · rename_i heq; exact absurd (List.head_eq_of_cons_eq heq) hclose
  · simp only [h, bind, Except.bind]
    rfl

theorem valueWith_members {read : Reader Json} (hgap : isGap c = false) (hclose : c ≠ '\x7d')
    (h : items (member d read) '\x7d' ((c :: cs).length + 1) (c :: cs) = .ok (ms, rest)) :
    valueWith d (some read) ('\x7b' :: c :: cs) = .ok (.obj ms, rest) := by
  unfold valueWith
  simp only [skipGap_cons (show isGap '\x7b' = false from rfl), skipGap_cons hgap]
  split
  · rename_i heq; exact absurd (List.head_eq_of_cons_eq heq) hclose
  · simp only [h, bind, Except.bind]
    rfl

/-- **An array is read from its written form**, one level further out than its items. -/
theorem reads_arr (hne : vs ≠ []) (h : ∀ v ∈ vs, v.plain = true ∧ Reads d depth v) :
    Reads d (depth + 1) (.arr vs) := by
  intro rest _
  have hfirst : ∀ v ∈ vs, ∃ c cs, write v = c :: cs ∧ isGap c = false ∧ c ≠ ']' := fun v hv =>
    exists_write_eq_cons v (h v hv).1
  obtain ⟨c, cs, htext, hgap, hc, hitems⟩ := exists_items_text (.inl rfl) (value_space d depth) hne hfirst
    (fun v hv => (h v hv).2) rest
  have hwrite : write (.arr vs) ++ rest = '[' :: (separated (vs.map write) ++ ']' :: rest) := by
    simp only [write_arr, List.cons_append, List.append_assoc, List.nil_append]
  rw [hwrite, htext]
  exact valueWith_items hgap hc hitems

/-- **An object is read from its written form**, one level further out than its values. -/
theorem reads_obj (hne : ms ≠ []) (h : ∀ m ∈ ms, m.1.readable = true ∧ Reads d depth m.2) :
    Reads d (depth + 1) (.obj ms) := by
  intro rest _
  have hfirst : ∀ m ∈ ms, ∃ c cs, writeMember m = c :: cs ∧ isGap c = false ∧ c ≠ '\x7d' := by
    rintro ⟨name, v⟩ -
    cases name <;> exact ⟨'"', _, rfl, by decide⟩
  obtain ⟨c, cs, htext, hgap, hc, hitems⟩ := exists_items_text (.inr rfl)
    (member_space d (value d depth)) hne hfirst (fun m hm _ => member_write (h m hm).1 (h m hm).2) rest
  have hwrite : write (.obj ms) ++ rest =
      '\x7b' :: (separated (ms.map writeMember) ++ '\x7d' :: rest) := by
    simp only [write_obj, List.cons_append, List.append_assoc, List.nil_append]
  rw [hwrite, htext]
  exact valueWith_members hgap hc hitems

/-! ### All values -/

theorem height_pos (v : Json) : 0 < v.height := by
  cases v <;> simp [height]

mutual

theorem reads_write (d : Dialect) : ∀ (v : Json) (depth : ℕ), v.plain = true → v.height ≤ depth + 1 →
    Reads d depth v
  | .null, depth, _, _ => reads_null d depth
  | .bool b, depth, _, _ => reads_bool d depth b
  | .whole n, depth, hplain, _ => reads_whole d depth (of_decide_eq_true hplain)
  | .float _, _, hplain, _ => by cases hplain
  | .str (.text s), depth, _, _ => reads_str d depth s
  | .str (.unreadable _), _, hplain, _ => by cases hplain
  | .arr vs, depth, hplain, hheight => by
    by_cases hne : vs = []
    · subst hne
      exact reads_arr_nil d depth
    · have hpositive : 0 < heightOfItems vs := by
        obtain ⟨v, vs, rfl⟩ := List.exists_cons_of_ne_nil hne
        exact lt_max_of_lt_left v.height_pos
      have hheight' : heightOfItems vs ≤ depth := Nat.le_of_succ_le_succ hheight
      obtain ⟨k, rfl⟩ : ∃ k, depth = k + 1 := ⟨depth - 1, by omega⟩
      exact reads_arr hne (reads_items d vs k hplain hheight')
  | .obj ms, depth, hplain, hheight => by
    by_cases hne : ms = []
    · subst hne
      exact reads_obj_nil d depth
    · have hpositive : 0 < heightOfMembers ms := by
        obtain ⟨⟨name, v⟩, ms, rfl⟩ := List.exists_cons_of_ne_nil hne
        exact lt_max_of_lt_left v.height_pos
      have hheight' : heightOfMembers ms ≤ depth := Nat.le_of_succ_le_succ hheight
      have hmembers : plainMembers ms = true := (Bool.and_eq_true _ _ ▸ hplain).2
      obtain ⟨k, rfl⟩ : ∃ k, depth = k + 1 := ⟨depth - 1, by omega⟩
      exact reads_obj hne (reads_members d ms k hmembers hheight')

theorem reads_items (d : Dialect) : ∀ (vs : List Json) (depth : ℕ), plainItems vs = true →
    heightOfItems vs ≤ depth + 1 → ∀ v ∈ vs, v.plain = true ∧ Reads d depth v
  | [], _, _, _ => by simp
  | v :: vs, depth, hplain, hheight => by
    rw [plainItems, Bool.and_eq_true] at hplain
    rw [heightOfItems, max_le_iff] at hheight
    refine List.forall_mem_cons.mpr ⟨⟨hplain.1, ?_⟩, ?_⟩
    · exact reads_write d v depth hplain.1 hheight.1
    · exact reads_items d vs depth hplain.2 hheight.2

theorem reads_members (d : Dialect) : ∀ (ms : Members) (depth : ℕ), plainMembers ms = true →
    heightOfMembers ms ≤ depth + 1 → ∀ m ∈ ms, m.1.readable = true ∧ Reads d depth m.2
  | [], _, _, _ => by simp
  | (k, v) :: ms, depth, hplain, hheight => by
    rw [plainMembers, Bool.and_eq_true, Bool.and_eq_true] at hplain
    rw [heightOfMembers, max_le_iff] at hheight
    refine List.forall_mem_cons.mpr ⟨⟨hplain.1.1, ?_⟩, ?_⟩
    · exact reads_write d v depth hplain.1.2 hheight.1
    · exact reads_members d ms depth hplain.2 hheight.2

end

/-- **Reading the written form of a plain value gives it back**, if the dialect allows its height. -/
theorem read_text (d : Dialect) {v : Json} (hplain : v.plain = true) (hheight : v.height ≤ d.depth + 1) :
    read d v.text = .ok v := by
  have hread := reads_write d v d.depth hplain hheight [] follows_nil
  rw [List.append_nil] at hread
  unfold read readCharacters text
  rw [String.toList_ofList, hread]
  rfl

/-! ### Merging -/

theorem put_of_new {k : RawText} (v : Json) (h : k ∉ ms.map Prod.fst) : put ms k v = ms ++ [(k, v)] := by
  induction ms with
  | nil => rfl
  | cons m ms ih =>
    rw [List.map_cons, List.mem_cons, not_or] at h
    rw [put, if_neg (Ne.symm h.1), ih h.2, List.cons_append]

mutual

/-- A plain value has each name once in each object already. -/
theorem merged_of_plain : ∀ v : Json, v.plain = true → v.merged = v
  | .null, _ => rfl
  | .bool _, _ => rfl
  | .whole _, _ => rfl
  | .float _, _ => rfl
  | .str _, _ => rfl
  | .arr vs, hplain => congrArg Json.arr (mergedItems_of_plain vs hplain)
  | .obj ms, hplain => by
    rw [plain, Bool.and_eq_true, decide_eq_true_eq] at hplain
    have hmembers := mergedMembers_of_plain ms [] hplain.2 (by simpa using hplain.1)
    rw [List.nil_append] at hmembers
    exact congrArg Json.obj hmembers

theorem mergedItems_of_plain : ∀ vs : List Json, plainItems vs = true → mergedItems vs = vs
  | [], _ => rfl
  | v :: vs, hplain => by
    rw [plainItems, Bool.and_eq_true] at hplain
    rw [mergedItems, merged_of_plain v hplain.1, mergedItems_of_plain vs hplain.2]

theorem mergedMembers_of_plain : ∀ ms done : Members, plainMembers ms = true →
    ((done ++ ms).map Prod.fst).Nodup → mergedMembers ms done = done ++ ms
  | [], done, _, _ => (List.append_nil done).symm
  | (k, v) :: ms, done, hplain, hnodup => by
    rw [plainMembers, Bool.and_eq_true, Bool.and_eq_true] at hplain
    have hnew : k ∉ done.map Prod.fst := by
      rw [List.map_append, List.map_cons, List.nodup_append] at hnodup
      intro hk
      exact hnodup.2.2 k hk k List.mem_cons_self rfl
    have hrest : done ++ [(k, v)] ++ ms = done ++ (k, v) :: ms := List.append_cons .. |>.symm
    rw [mergedMembers, merged_of_plain v hplain.1.2, put_of_new v hnew,
      mergedMembers_of_plain ms (done ++ [(k, v)]) hplain.2 (hrest ▸ hnodup), hrest]

end

end Json
end TokenLedger
