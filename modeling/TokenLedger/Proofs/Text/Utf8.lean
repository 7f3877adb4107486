/-
# Texts cut in UTF-8

A text is cut to a number of bytes, and what remains is read as UTF-8, passing over the bytes that
start no character (`Text.cut`). A byte behind the first of a character starts none, so only the part of
the character at the cut is lost (`Text.fromBytes_take`), and the cut is the same between characters:
`Text.truncate` is `Text.cut` (`Text.truncate_eq_cut`). What it leaves is the longest start of the text
that fits the limit (`Text.truncate_longest`).

Key definitions: `Text.firstChar?`, `Text.fromBytes`, `Text.bytesUpTo`, `Text.cut`, `Text.allowed`.
Key theorems: `Text.firstChar?_of_part`, `Text.fromBytes_take`, `Text.prefix_takeBytes`,
`Text.truncate_eq_cut`, `Text.utf8ByteSize_truncate_le`, `Text.truncate_longest`.
-/
import Mathlib
import TokenLedger.Text.Width

namespace TokenLedger
namespace Text

variable {c d : Char} {cs ds : List Char} {bytes : List UInt8} {n : ℕ}

/-! ### Widths -/

theorem byteWidth_eq_utf8ByteSize (cs : List Char) : (String.ofList cs).utf8ByteSize = byteWidth cs := by
  induction cs with
  | nil => rfl
  | cons c cs ih =>
    rw [String.ofList_cons, String.utf8ByteSize_append, String.utf8ByteSize_singleton, ih, byteWidth]

theorem utf8ByteSize_eq_byteWidth (s : String) : s.utf8ByteSize = byteWidth s.toList := by
  rw [← byteWidth_eq_utf8ByteSize, String.ofList_toList]

/-- The bytes of a text are those of its characters. -/
theorem toList_toUTF8 (s : String) : s.toUTF8.data.toList = s.toList.flatMap String.utf8EncodeChar := by
  show s.toByteArray.data.toList = _
  rw [← String.utf8Encode_toList, List.utf8Encode, List.toList_data_toByteArray]

/-! ### Reading bytes -/

/-- The character that starts at the first of some bytes. -/
def firstChar? (bytes : List UInt8) : Option Char :=
  bytes.toByteArray.utf8DecodeChar? 0

/-- The characters that bytes spell in UTF-8. A byte at which no character starts is passed over. -/
def fromBytes : List UInt8 → List Char
  | [] => []
  | b :: bs =>
    match firstChar? (b :: bs) with
    | some c => c :: fromBytes (bs.drop (c.utf8Size - 1))
    | none => fromBytes bs
termination_by bytes => bytes.length
decreasing_by
  all_goals simp

/-- The bytes up to a limit; a negative limit counts from the end. -/
def bytesUpTo (limit : ℤ) (bytes : List UInt8) : List UInt8 :=
  if 0 ≤ limit then bytes.take limit.toNat else bytes.take (bytes.length - (-limit).toNat)

/-- The text cut between bytes: what the bytes up to the limit spell, if they are not all of them. -/
def cut (s : String) (limit : ℤ) : String :=
  if (s.toUTF8.size : ℤ) ≤ limit then s
  else String.ofList (fromBytes (bytesUpTo limit s.toUTF8.data.toList))

/-- At the bytes of a character it starts, whatever follows. -/
theorem firstChar?_utf8EncodeChar (c : Char) (bytes : List UInt8) :
    firstChar? (String.utf8EncodeChar c ++ bytes) = some c := by
  rw [firstChar?, List.toByteArray_append]
  exact ByteArray.utf8DecodeChar?_utf8EncodeChar_append

/-- A byte behind the first of a character starts none. -/
theorem eq_nil_of_firstChar? {front : List UInt8} (hpart : front ++ bytes <+: String.utf8EncodeChar c)
    (h : firstChar? bytes = some d) : front = [] := by
  have hfirst := ByteArray.isUTF8FirstByte_of_isSome_utf8DecodeChar?
    (Option.isSome_iff_exists.mpr ⟨d, h⟩)
  have hne : bytes ≠ [] := by
    rintro rfl
    cases h
  obtain ⟨b, bs, rfl⟩ := List.exists_cons_of_ne_nil hne
  obtain ⟨rest, hrest⟩ := hpart
  have hbyte : (String.utf8EncodeChar c)[front.length]? = some b := by
    rw [← hrest]
    simp
  obtain ⟨hlt, hget⟩ := List.getElem?_eq_some_iff.mp hbyte
  have hb : b.IsUTF8FirstByte := by simpa [ByteArray.getElem_eq_getElem_data] using hfirst
  rw [← hget, UInt8.isUTF8FirstByte_getElem_utf8EncodeChar] at hb
  exact List.length_eq_zero_iff.mp hb

/-- A character that starts in a start of the bytes of another has all of them. -/
theorem eq_of_firstChar? (hstart : bytes <+: String.utf8EncodeChar c) (h : firstChar? bytes = some d) :
    bytes = String.utf8EncodeChar c := by
  obtain ⟨rest, hrest⟩ := hstart
  have hd : firstChar? (String.utf8EncodeChar c) = some d := by
    rw [← hrest, firstChar?, List.toByteArray_append]
    exact ByteArray.utf8DecodeChar?_append_eq_some h _
  have hc : firstChar? (String.utf8EncodeChar c) = some c := by
    have hself := firstChar?_utf8EncodeChar c []
    rwa [List.append_nil] at hself
  obtain rfl : d = c := Option.some.inj (hd.symm.trans hc)
  have hsize : d.utf8Size ≤ bytes.length := by
    have := ByteArray.le_size_of_utf8DecodeChar?_eq_some h
    simpa using this
  rw [← String.length_utf8EncodeChar] at hsize
  exact (List.prefix_iff_eq_take.mp ⟨rest, hrest⟩).trans (List.take_of_length_le hsize)

/-- **No character starts in a part of one** that is not the whole of it. -/
theorem firstChar?_of_part (hn : n < c.utf8Size) (h : bytes <:+ (String.utf8EncodeChar c).take n) :
    firstChar? bytes = none := by
  by_contra hsome
  obtain ⟨d, hd⟩ := Option.ne_none_iff_exists'.mp hsome
  obtain ⟨front, hfront⟩ := h
  have hpart : front ++ bytes <+: String.utf8EncodeChar c := hfront ▸ List.take_prefix n _
  obtain rfl : front = [] := eq_nil_of_firstChar? hpart hd
  have hwhole : bytes = String.utf8EncodeChar c := eq_of_firstChar? hpart hd
  have hlength : bytes.length ≤ n := by
    rw [List.nil_append] at hfront
    rw [hfront]
    exact List.length_take_le n _
  rw [hwhole, String.length_utf8EncodeChar] at hlength
  omega

theorem fromBytes_eq_nil (h : ∀ s, s <:+ bytes → firstChar? s = none) : fromBytes bytes = [] := by
  induction bytes with
  | nil => rw [fromBytes]
  | cons b bs ih =>
    rw [fromBytes, h (b :: bs) List.suffix_rfl]
    exact ih fun s hs => h s (hs.trans (List.suffix_cons b bs))

/-- The bytes of a character are read as it. -/
theorem fromBytes_utf8EncodeChar (c : Char) (bytes : List UInt8) :
    fromBytes (String.utf8EncodeChar c ++ bytes) = c :: fromBytes bytes := by
  have hfirst := firstChar?_utf8EncodeChar c bytes
  have hlength := String.length_utf8EncodeChar c
  obtain ⟨b, bs, hbs⟩ := List.exists_cons_of_ne_nil (String.utf8EncodeChar_ne_nil (c := c))
  rw [hbs, List.length_cons] at hlength
  rw [hbs, List.cons_append] at hfirst ⊢
  rw [fromBytes, hfirst]
  simp only
  rw [← hlength, Nat.add_sub_cancel, List.drop_left]

/-- **Bytes cut anywhere are read as the characters that fit.** -/
theorem fromBytes_take (n : ℕ) (cs : List Char) :
    fromBytes ((cs.flatMap String.utf8EncodeChar).take n) = takeBytes n cs := by
  induction cs generalizing n with
  | nil => simp [fromBytes, takeBytes]
  | cons c cs ih =>
    have hlength := String.length_utf8EncodeChar c
    rw [List.flatMap_cons, List.take_append, hlength]
    unfold takeBytes
    by_cases h : c.utf8Size ≤ n
    · rw [if_pos h, List.take_of_length_le (by omega), fromBytes_utf8EncodeChar, ih]
    · have hrest : n - c.utf8Size = 0 := by omega
      rw [if_neg h, hrest, List.take_zero, List.append_nil]
      exact fromBytes_eq_nil fun _ hs => firstChar?_of_part (by omega) hs

/-! ### The longest start that fits -/

theorem byteWidth_takeBytes_le (room : ℕ) (cs : List Char) : byteWidth (takeBytes room cs) ≤ room := by
  induction cs generalizing room with
  | nil => exact Nat.zero_le room
  | cons c cs ih =>
    unfold takeBytes
    by_cases h : c.utf8Size ≤ room
    · have hrest := ih (room - c.utf8Size)
      rw [if_pos h, byteWidth]
      omega
    · rw [if_neg h]
      exact Nat.zero_le room

theorem takeBytes_isPrefix (n : ℕ) (cs : List Char) : takeBytes n cs <+: cs := by
  induction cs generalizing n with
  | nil => exact List.prefix_rfl
  | cons c cs ih =>
    unfold takeBytes
    by_cases h : c.utf8Size ≤ n
    · rw [if_pos h]
      exact List.prefix_cons_inj c |>.mpr (ih _)
    · rw [if_neg h]
      exact List.nil_prefix

/-- What fits and stands at the start is not cut off. -/
theorem prefix_takeBytes (hds : ds <+: cs) (hn : byteWidth ds ≤ n) : ds <+: takeBytes n cs := by
  induction cs generalizing ds n with
  | nil => exact hds
  | cons c cs ih =>
    cases ds with
    | nil => exact List.nil_prefix
    | cons d ds =>
      obtain ⟨rfl, hrest⟩ := List.cons_prefix_cons.mp hds
      rw [byteWidth] at hn
      rw [takeBytes, if_pos (by omega)]
      exact List.cons_prefix_cons.mpr ⟨rfl, ih hrest (by omega)⟩

theorem takeBytes_eq_self_iff : takeBytes n cs = cs ↔ byteWidth cs ≤ n := by
  constructor
  · intro h
    rw [← h]
    exact byteWidth_takeBytes_le n cs
  · intro h
    exact (takeBytes_isPrefix n cs).eq_of_length_le (prefix_takeBytes List.prefix_rfl h).length_le

theorem bytesUpTo_eq (limit : ℤ) (bytes : List UInt8) :
    bytesUpTo limit bytes = bytes.take (room bytes.length limit) := by
  unfold bytesUpTo room
  by_cases h : 0 ≤ limit
  · rw [if_pos h, if_pos h]
  · rw [if_neg h, if_neg h]
    congr 1
    omega

/-- **Cutting between characters is cutting between bytes.** -/
theorem truncate_eq_cut (s : String) (limit : ℤ) : truncate s limit = cut s limit := by
  have hsize : s.toUTF8.size = byteWidth s.toList := utf8ByteSize_eq_byteWidth s
  have hlength : s.toUTF8.data.toList.length = byteWidth s.toList := hsize
  unfold truncate cut
  rw [hsize, bytesUpTo_eq, hlength, toList_toUTF8, fromBytes_take]
  by_cases h : (byteWidth s.toList : ℤ) ≤ limit
  · have hroom : byteWidth s.toList ≤ room (byteWidth s.toList) limit := by
      unfold room
      rw [if_pos (by omega)]
      omega
    rw [if_pos h, takeBytes_eq_self_iff.mpr hroom, String.ofList_toList]
  · rw [if_neg h]

/-- The bytes that a limit allows of a text: those up to the limit, or all but as many as it is below
zero. -/
def allowed (s : String) (limit : ℤ) : ℤ :=
  if 0 ≤ limit then limit else max 0 (s.utf8ByteSize + limit)

theorem cast_room (s : String) (limit : ℤ) : (room s.utf8ByteSize limit : ℤ) = allowed s limit := by
  unfold room allowed
  split
  · omega
  · omega

theorem toList_truncate (s : String) (limit : ℤ) :
    (truncate s limit).toList = takeBytes (room s.utf8ByteSize limit) s.toList := by
  rw [truncate, String.toList_ofList, utf8ByteSize_eq_byteWidth]

theorem utf8ByteSize_truncate_le_room (s : String) (limit : ℤ) :
    (truncate s limit).utf8ByteSize ≤ room s.utf8ByteSize limit := by
  rw [utf8ByteSize_eq_byteWidth, toList_truncate]
  exact byteWidth_takeBytes_le _ _

/-- **A text that was cut fits the limit.** -/
theorem utf8ByteSize_truncate_le (s : String) (limit : ℕ) :
    (truncate s limit).utf8ByteSize ≤ limit := by
  have hroom : room s.utf8ByteSize limit = limit := by
    rw [room, if_pos (Int.natCast_nonneg limit), Int.toNat_natCast]
  exact hroom ▸ utf8ByteSize_truncate_le_room s limit

/-- **What is left of a text is the longest start of it that fits**, and the text itself if that
fits. -/
theorem truncate_longest (s : String) (limit : ℤ) :
    truncate s limit = cut s limit ∧ (truncate s limit).toList <+: s.toList ∧
      (truncate s limit).utf8ByteSize ≤ allowed s limit ∧
      (∀ p : String, p.toList <+: s.toList → p.utf8ByteSize ≤ allowed s limit →
        p.length ≤ (truncate s limit).length) ∧
      (truncate s limit = s ↔ s.utf8ByteSize ≤ allowed s limit) := by
  rw [← cast_room]
  refine ⟨truncate_eq_cut s limit, ?_, ?_, fun p hp hfits => ?_, ?_⟩
  · rw [toList_truncate]
    exact takeBytes_isPrefix _ _
  · exact_mod_cast utf8ByteSize_truncate_le_room s limit
  · rw [utf8ByteSize_eq_byteWidth, Nat.cast_le] at hfits
    have hprefix : p.toList <+: (truncate s limit).toList := by
      rw [toList_truncate]
      exact prefix_takeBytes hp hfits
    calc p.length = p.toList.length := String.length_toList.symm
      _ ≤ (truncate s limit).toList.length := hprefix.length_le
      _ = (truncate s limit).length := String.length_toList
  · rw [← String.toList_inj, toList_truncate, takeBytes_eq_self_iff, ← utf8ByteSize_eq_byteWidth,
      Nat.cast_le]

example : truncate "né€" (-1) = "né" := by decide

end Text
end TokenLedger
