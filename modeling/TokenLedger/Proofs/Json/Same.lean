/-
# Values that show the same

A path goes from a value to the last member of a name or to the item at an index, and so on down. Two
values show the same if along every path there is nothing in either of them, or the same scalar, or an
array in both, or an object in both (`Json.Same`). So the order of the members of an object does not
show, and neither does a member with a later one of its name behind it; and what is left of a value with
every name once in each object shows the same as the value (`Json.same_merged`). To show the same is the
widest of the relations by which values are compared, and equality is another (`Json.Likeness`).

Key definitions: `Json.Step`, `Json.child?`, `Json.find?`, `Json.outline`, `Json.Same`,
`Json.Likeness`.
Key theorems: `Json.same_iff`, `Json.Same.items`, `Json.same_of_perm`, `Json.last?_mergedMembers`,
`Json.same_merged`.
-/
import Mathlib.Data.List.Forall2
import Mathlib.Data.List.Nodup
import TokenLedger.Proofs.Json.Inside

namespace TokenLedger
namespace Json

/-- One step down, into an object or into an array. -/
inductive Step where
  | member (name : RawText)
  | item (index : ℕ)

/-- The value that a step leads to. -/
def child? : Json → Step → Option Json
  | .obj ms, .member name => last? name ms
  | .arr vs, .item index => vs[index]?
  | _, _ => none

/-- The value that a path leads to. -/
def find? : Json → List Step → Option Json
  | v, [] => some v
  | v, s :: path => (v.child? s).bind (find? · path)

/-- A scalar as it is, and of anything else what it is. -/
def outline : Json → Json
  | .arr _ => .arr []
  | .obj _ => .obj []
  | v => v

/-- Along every path two values have scalars that are equal, arrays, objects, or nothing. -/
def Same (v w : Json) : Prop :=
  ∀ path, (v.find? path).map outline = (w.find? path).map outline

variable {v w : Json} {vs ws : List Json} {ms ns : Members} {name : RawText}

theorem find?_of_last? (h : last? name ms = some v) (path : List Step) :
    (obj ms).find? (.member name :: path) = v.find? path := by
  show (last? name ms).bind (find? · path) = v.find? path
  rw [h, Option.bind_some]

/-- What a path leads to stands in the value. -/
theorem inside_of_find? {path : List Step} (h : v.find? path = some w) : w.Inside v := by
  induction path generalizing v with
  | nil =>
    cases h
    exact .self
  | cons s path ih =>
    obtain ⟨u, hu, hw⟩ := Option.bind_eq_some_iff.mp h
    have hinside : u.Inside v := by
      unfold child? at hu
      split at hu
      · exact inside_of_last? hu
      · exact .item (List.mem_of_getElem? hu) .self
      · cases hu
    exact (ih hw).trans hinside

namespace Same

theorem refl (v : Json) : v.Same v :=
  fun _ => rfl

theorem symm (h : v.Same w) : w.Same v :=
  fun path => (h path).symm

theorem trans {u : Json} (h : u.Same v) (h' : v.Same w) : u.Same w :=
  fun path => (h path).trans (h' path)

theorem outline (h : v.Same w) : v.outline = w.outline :=
  Option.some.inj (h [])

end Same

/-- Values show the same if they are of one outline and what each step leads to shows the same. -/
theorem same_iff : v.Same w ↔
    v.outline = w.outline ∧ ∀ s, Option.Rel Same (v.child? s) (w.child? s) := by
  constructor
  · refine fun h => ⟨h.outline, fun s => ?_⟩
    have hnext : ∀ path, ((v.child? s).bind (find? · path)).map Json.outline =
        ((w.child? s).bind (find? · path)).map Json.outline :=
      fun path => h (s :: path)
    cases hv : v.child? s <;> cases hw : w.child? s <;> rw [hv, hw] at hnext
    · exact .none
    · cases hnext []
    · cases hnext []
    · exact .some hnext
  · rintro ⟨houtline, hchildren⟩ path
    cases path with
    | nil => exact congrArg some houtline
    | cons s path =>
      rw [find?, find?]
      have hs := hchildren s
      generalize v.child? s = a at hs ⊢
      generalize w.child? s = b at hs ⊢
      cases hs with
      | none => rfl
      | some h => exact h path

/-- What shows the same as an array is one. -/
theorem Same.exists_arr (h : (arr vs).Same w) : ∃ ws, w = arr ws := by
  have houtline := h.outline
  cases w with
  | arr ws => exact ⟨ws, rfl⟩
  | null | bool | whole | float | str | obj => cases houtline

/-- Lists are related item by item if what stands at each index is. -/
theorem forall₂_of_getElem? {α : Type} {R : α → α → Prop} : ∀ {xs ys : List α},
    (∀ i : ℕ, Option.Rel R xs[i]? ys[i]?) → List.Forall₂ R xs ys
  | [], [], _ => .nil
  | [], _ :: _, h => nomatch h 0
  | _ :: _, [], h => nomatch h 0
  | _ :: _, _ :: _, h => by
    have hhead := h 0
    rw [List.getElem?_cons_zero, List.getElem?_cons_zero] at hhead
    cases hhead with
    | some hhead => exact .cons hhead (forall₂_of_getElem? fun i => h (i + 1))

/-- Of arrays that show the same, the items do, one by one. -/
theorem Same.items (h : (arr vs).Same (arr ws)) : List.Forall₂ Same vs ws :=
  forall₂_of_getElem? fun i => (same_iff.mp h).2 (.item i)

/-! ### Distinct names -/

theorem last?_cons (k : RawText) (v : Json) (ms : Members) : last? name ((k, v) :: ms) =
    (last? name ms).or (if k = name then some v else none) := by
  rw [last?]
  cases last? name ms <;> rfl

theorem last?_eq_none (h : name ∉ ms.map Prod.fst) : last? name ms = none := by
  induction ms with
  | nil => rfl
  | cons m ms ih =>
    rw [List.map_cons, List.mem_cons, not_or] at h
    rw [last?_cons, ih h.2, if_neg (Ne.symm h.1)]
    rfl

/-- With the names distinct, a member is the last one of its name. -/
theorem last?_eq_some_iff (h : (ms.map Prod.fst).Nodup) :
    last? name ms = some v ↔ (name, v) ∈ ms := by
  refine ⟨mem_of_last?, fun hmem => ?_⟩
  induction ms with
  | nil => cases hmem
  | cons m ms ih =>
    rw [List.map_cons, List.nodup_cons] at h
    rw [last?_cons]
    rcases List.mem_cons.mp hmem with rfl | hmem
    · rw [last?_eq_none h.1, if_pos rfl]
      rfl
    · rw [ih h.2 hmem]
      rfl

/-- **The order of members does not show.** -/
theorem same_of_perm (h : ms.Perm ns) (hnodup : (ms.map Prod.fst).Nodup) :
    (obj ms).Same (obj ns) := by
  have hlast : ∀ name, last? name ms = last? name ns := by
    intro name
    ext v
    rw [last?_eq_some_iff hnodup, last?_eq_some_iff ((h.map Prod.fst).nodup hnodup), h.mem_iff]
  intro path
  cases path with
  | nil => rfl
  | cons s path =>
    cases s with
    | member name => rw [find?, find?, child?, child?, hlast]
    | item index => rfl

/-! ### Every name once -/

theorem names_put (ms : Members) (k : RawText) (v : Json) : (put ms k v).map Prod.fst =
    if k ∈ ms.map Prod.fst then ms.map Prod.fst else ms.map Prod.fst ++ [k] := by
  induction ms with
  | nil => rfl
  | cons m ms ih =>
    unfold put
    by_cases hk : m.1 = k
    · rw [if_pos hk, if_pos (hk ▸ List.mem_cons_self)]
      rfl
    · have hmem : k ∈ (m :: ms).map Prod.fst ↔ k ∈ ms.map Prod.fst :=
        List.mem_cons.trans (or_iff_right (Ne.symm hk))
      rw [if_neg hk, List.map_cons, ih, if_congr hmem rfl rfl, apply_ite (m.1 :: ·)]
      rfl

theorem nodup_put (h : (ms.map Prod.fst).Nodup) (k : RawText) (v : Json) :
    ((put ms k v).map Prod.fst).Nodup := by
  rw [names_put]
  split_ifs with hk
  · exact h
  · exact h.append (List.nodup_singleton k) (List.disjoint_singleton.mpr hk)

/-- With the names distinct, the member that is put is the last one of its name. -/
theorem last?_put (h : (ms.map Prod.fst).Nodup) (k : RawText) (v : Json) :
    last? name (put ms k v) = if k = name then some v else last? name ms := by
  induction ms with
  | nil => rfl
  | cons m ms ih =>
    rw [List.map_cons, List.nodup_cons] at h
    unfold put
    by_cases hk : m.1 = k
    · rw [if_pos hk, last?_cons, last?_cons, hk]
      by_cases hname : k = name
      · rw [if_pos hname, if_pos hname, last?_eq_none (hname ▸ hk ▸ h.1)]
        rfl
      · rw [if_neg hname, if_neg hname, if_neg hname]
    · rw [if_neg hk, last?_cons, last?_cons, ih h.2]
      split_ifs <;> rfl

/-- Behind the members that are there already, the last one of a name counts, merged. -/
theorem last?_mergedMembers {done : Members} (h : (done.map Prod.fst).Nodup) :
    last? name (mergedMembers ms done) = ((last? name ms).map merged).or (last? name done) := by
  induction ms generalizing done with
  | nil => rfl
  | cons m ms ih =>
    rw [mergedMembers, ih (nodup_put h _ _), last?_put h, last?_cons, Option.map_or, Option.or_assoc]
    split_ifs <;> rfl

theorem mergedItems_eq_map (vs : List Json) : mergedItems vs = vs.map merged := by
  induction vs with
  | nil => rfl
  | cons v vs ih => rw [mergedItems, ih, List.map_cons]

theorem child?_merged (v : Json) (s : Step) : v.merged.child? s = (v.child? s).map merged := by
  cases v with
  | arr vs =>
    cases s with
    | member name => rfl
    | item index =>
      rw [merged, mergedItems_eq_map]
      exact List.getElem?_map
  | obj ms =>
    cases s with
    | member name =>
      rw [merged]
      have hlast := @last?_mergedMembers ms name [] List.nodup_nil
      exact hlast.trans Option.or_none
    | item index => rfl
  | null | bool | whole | float | str => rfl

theorem find?_merged (v : Json) (path : List Step) :
    v.merged.find? path = (v.find? path).map merged := by
  induction path generalizing v with
  | nil => rfl
  | cons s path ih =>
    rw [find?, find?, child?_merged]
    cases v.child? s with
    | none => rfl
    | some u => exact ih u

theorem outline_merged (v : Json) : v.merged.outline = v.outline := by
  cases v <;> rfl

/-- **A value and what is left of it with every name once show the same.** -/
theorem same_merged (v : Json) : v.merged.Same v := by
  intro path
  rw [find?_merged, Option.map_map]
  exact congrFun (congrArg Option.map (funext outline_merged)) _

/-- A relation of values that show the same, which holds of them merged if it holds of them. -/
structure Likeness (like : Json → Json → Prop) : Prop where
  same : ∀ {v w}, like v w → v.Same w
  merged : ∀ {v w}, like v w → like v.merged w.merged

theorem likeness_eq : Likeness Eq where
  same := by
    rintro v _ rfl
    exact .refl v
  merged := congrArg merged

theorem likeness_same : Likeness Same where
  same := id
  merged := fun {v w} h => ((same_merged v).trans h).trans (same_merged w).symm

end Json
end TokenLedger
