/-
# Values inside a value

A value stands in the items of a list and in the members of an object, and so on down
(`Json.Inside`). What a check looks at stands in the value that it is given, since a member found by
name is one of the members (`Json.inside_of_last?`). What the reader makes of every word and number of
a text holds of every word and number in the value that it reads (`Json.every_of_value`).

The reader takes what it has not read from the text but from a decimal in it, the binary numbers, to
the nearest one of the format; so every binary number in what was read is one of the format
(`Json.regular_of_read`).

Key definitions: `Json.Inside`, `Json.Every`, `Json.HoldsOfScalars`, `Json.Regular`.
Key theorems: `Json.inside_of_last?`, `Json.Inside.trans`, `Json.items_all`, `Json.every_of_value`,
`Json.regular_of_read`.
-/
import TokenLedger.Json.Reader
import TokenLedger.Proofs.Decimal.Accepted
import TokenLedger.Proofs.Json.Scalars

namespace TokenLedger
namespace Json

/-- A value is another one or stands in it. -/
inductive Inside (u : Json) : Json → Prop where
  | self : Inside u u
  | item {v : Json} {vs : List Json} (hv : v ∈ vs) (h : Inside u v) : Inside u (.arr vs)
  | member {m : RawText × Json} {ms : Members} (hm : m ∈ ms) (h : Inside u m.2) :
    Inside u (.obj ms)

theorem Inside.trans {u v w : Json} (huv : u.Inside v) (hvw : v.Inside w) : u.Inside w := by
  induction hvw with
  | self => exact huv
  | item hv _ ih => exact .item hv ih
  | member hm _ ih => exact .member hm ih

theorem mem_of_last? {name : RawText} {ms : Members} {v : Json} (h : last? name ms = some v) :
    (name, v) ∈ ms := by
  induction ms with
  | nil => cases h
  | cons m ms ih =>
    unfold last? at h
    split at h
    · rename_i w hw
      cases h
      exact List.mem_cons_of_mem _ (ih hw)
    · split_ifs at h with hname
      cases h
      rw [← hname]
      exact List.mem_cons_self

/-- What is found under a name stands in the object. -/
theorem inside_of_last? {name : RawText} {ms : Members} {v : Json} (h : last? name ms = some v) :
    v.Inside (.obj ms) :=
  .member (mem_of_last? h) .self

/-! ### What holds of every value inside -/

/-- A property of all values in a value, this one included. -/
def Every (P : Json → Prop) (v : Json) : Prop :=
  ∀ u : Json, u.Inside v → P u

variable {P : Json → Prop} {v : Json}

theorem Every.inside {u : Json} (h : v.Every P) (hu : u.Inside v) : u.Every P :=
  fun w hw => h w (hw.trans hu)

theorem every_arr {vs : List Json} (harr : P (.arr vs)) (h : ∀ v ∈ vs, v.Every P) :
    (Json.arr vs).Every P := by
  intro u hu
  cases hu with
  | self => exact harr
  | item hv hu => exact h _ hv u hu

theorem every_obj {ms : Members} (hobj : P (.obj ms)) (h : ∀ m ∈ ms, m.2.Every P) :
    (Json.obj ms).Every P := by
  intro u hu
  cases hu with
  | self => exact hobj
  | member hm hu => exact h _ hm u hu

/-- A value that is no list and no object has nothing else in it. -/
theorem every_of_outermost (harr : ∀ vs, v ≠ .arr vs) (hobj : ∀ ms, v ≠ .obj ms) (h : P v) :
    v.Every P := by
  intro u hu
  cases hu with
  | self => exact h
  | item hv hu => exact absurd rfl (harr _)
  | member hm hu => exact absurd rfl (hobj _)

/-! ### What is read -/

variable {d : Dialect} {cs rest : List Char}

/-- A step that succeeds after another one succeeds with what that one gave. -/
theorem exists_of_bind {α β : Type} {x : Except Fault α} {f : α → Except Fault β} {b : β}
    (h : x >>= f = .ok b) : ∃ a, x = .ok a ∧ f a = .ok b := by
  cases x with
  | error e => cases h
  | ok a => exact ⟨a, rfl, h⟩

/-- What holds of all that the reader of items reads holds of the items. -/
theorem items_all {α : Type} {item : Reader α} {close : Char} {P : α → Prop}
    (hitem : ∀ {cs x rest}, item cs = .ok (x, rest) → P x) {bound : ℕ} {cs rest : List Char}
    {xs : List α} (h : items item close bound cs = .ok (xs, rest)) : ∀ x ∈ xs, P x := by
  induction bound generalizing cs xs rest with
  | zero => cases h
  | succ bound ih =>
    obtain ⟨⟨x, rest'⟩, hx, h⟩ := exists_of_bind h
    simp only at h
    split at h
    · split_ifs at h with hcomma hclose
      · obtain ⟨⟨ys, rest''⟩, hys, h⟩ := exists_of_bind h
        cases h
        exact List.forall_mem_cons.mpr ⟨hitem hx, ih hys⟩
      · cases h
        exact List.forall_mem_singleton.mpr (hitem hx)
    · cases h

theorem member_every {read : Reader Json} {m : RawText × Json}
    (hread : ∀ {cs v rest}, read cs = .ok (v, rest) → v.Every P)
    (h : member d read cs = .ok (m, rest)) : m.2.Every P := by
  unfold member at h
  split at h
  · obtain ⟨⟨name, rest'⟩, -, h⟩ := exists_of_bind h
    simp only at h
    split at h
    · obtain ⟨⟨v, rest''⟩, hv, h⟩ := exists_of_bind h
      cases h
      exact hread hv
    · cases h
  · cases h

/-- A property of values that strings, lists and objects have, and all words and numbers that are
read. -/
structure HoldsOfScalars (d : Dialect) (P : Json → Prop) : Prop where
  str : ∀ s, P (.str s)
  arr : ∀ vs, P (.arr vs)
  obj : ∀ ms, P (.obj ms)
  scalar : ∀ {cs v rest}, scalar d cs = .ok (v, rest) → P v

/-- A word stands for no number that is finite. -/
theorem word?_cases {w : Json} (h : word? cs = some (w, rest)) :
    w = .null ∨ (∃ b, w = .bool b) ∨ w = .float .nan ∨ ∃ b, w = .float (.infinite b) := by
  obtain ⟨letters, hmem, -⟩ := exists_word h
  have hvalues : ∀ p ∈ words, p.2 = .null ∨ (∃ b, p.2 = .bool b) ∨ p.2 = .float .nan ∨
      ∃ b, p.2 = .float (.infinite b) := by
    simp [words]
  exact hvalues _ hmem

theorem not_nested_of_scalar (h : scalar d cs = .ok (v, rest)) :
    (∀ vs, v ≠ .arr vs) ∧ ∀ ms, v ≠ .obj ms := by
  have hnumber : ∀ {negative cs}, number d negative cs = .ok (v, rest) →
      (∀ vs, v ≠ .arr vs) ∧ ∀ ms, v ≠ .obj ms := by
    intro negative cs hread
    unfold number at hread
    simp only at hread
    split_ifs at hread <;> cases hread <;> exact ⟨nofun, nofun⟩
  unfold Json.scalar at h
  split at h
  · rename_i hword
    cases h
    rcases word?_cases hword with rfl | ⟨b, rfl⟩ | rfl | ⟨b, rfl⟩ <;> exact ⟨nofun, nofun⟩
  · split at h <;> exact hnumber h

theorem valueWith_every (hP : HoldsOfScalars d P) {nested : Option (Reader Json)}
    (hnested : ∀ read, nested = some read → ∀ {cs v rest}, read cs = .ok (v, rest) → v.Every P)
    (h : valueWith d nested cs = .ok (v, rest)) : v.Every P := by
  unfold valueWith at h
  split at h
  · obtain ⟨⟨s, rest'⟩, -, h⟩ := exists_of_bind h
    cases h
    exact every_of_outermost nofun nofun (hP.str s)
  · split at h
    · cases h
      exact every_arr (hP.arr []) (List.forall_mem_nil _)
    · split at h
      · cases h
      · obtain ⟨⟨vs, rest'⟩, hvs, h⟩ := exists_of_bind h
        cases h
        exact every_arr (hP.arr vs) (items_all (hnested _ rfl) hvs)
  · split at h
    · cases h
      exact every_obj (hP.obj []) (List.forall_mem_nil _)
    · split at h
      · cases h
      · obtain ⟨⟨ms, rest'⟩, hms, h⟩ := exists_of_bind h
        cases h
        exact every_obj (hP.obj ms) (items_all (member_every (hnested _ rfl)) hms)
  · obtain ⟨harr, hobj⟩ := not_nested_of_scalar h
    exact every_of_outermost harr hobj (hP.scalar h)

/-- **What holds of all words and numbers that are read holds inside of what is read.** The induction is
on the depth: what is nested in a value is read with one less of it. -/
theorem every_of_value (hP : HoldsOfScalars d P) {depth : ℕ} (h : value d depth cs = .ok (v, rest)) :
    v.Every P := by
  induction depth generalizing cs v rest with
  | zero =>
    refine valueWith_every hP (fun read hread => ?_) h
    cases hread
  | succ depth ih =>
    refine valueWith_every hP (fun read hread => ?_) h
    cases hread
    exact ih

theorem every_of_readCharacters (hP : HoldsOfScalars d P) (h : readCharacters d cs = .ok v) :
    v.Every P := by
  obtain ⟨⟨w, rest⟩, hw, h⟩ := exists_of_bind h
  simp only at h
  split_ifs at h
  cases h
  exact every_of_value hP hw

/-! ### Binary numbers of the format -/

/-- All binary numbers in a value are of the format. -/
def Regular (v : Json) : Prop :=
  ∀ x : Double, (Json.float x).Inside v → x.Regular

theorem Regular.inside {u v : Json} (h : v.Regular) (hu : u.Inside v) : u.Regular :=
  fun x hx => h x (hx.trans hu)

theorem regular_of_scalar (h : scalar d cs = .ok (v, rest)) {x : Double} (hx : v = .float x) :
    x.Regular := by
  have hnumber : ∀ {negative cs}, number d negative cs = .ok (v, rest) → x.Regular := by
    intro negative cs hread
    unfold number at hread
    simp only at hread
    split_ifs at hread
    · cases hread
      cases hx
    · cases hread
      cases hx
      exact Double.regular_ofDecimal _
  unfold scalar at h
  split at h
  · rename_i hword
    cases h
    rcases word?_cases hword with rfl | ⟨b, rfl⟩ | rfl | ⟨b, rfl⟩ <;> cases hx <;> nofun
  · split at h <;> exact hnumber h

/-- **The binary numbers of what was read are of the format.** -/
theorem regular_of_read {s : String} (h : read d s = .ok v) : v.Regular := by
  have hP : HoldsOfScalars d fun u => ∀ x, u = .float x → x.Regular :=
    ⟨nofun, nofun, nofun, fun hread _ hx => regular_of_scalar hread hx⟩
  exact fun x hx => every_of_readCharacters hP h _ hx x rfl

end Json
end TokenLedger
