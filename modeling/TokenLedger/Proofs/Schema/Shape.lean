/-
# Shapes of values

A shape says what a value in a payload is expected to be: a string, an amount, anything, a list of
values of one shape, or an object with declared members. A walk through a value goes from it to its
declared members in the order of their declaration, and to the items of a list by their indices; below
a value that is not of its shape it does not go. So around each position of a walk all values are of
their shapes (`Shape.encloses_walk`), and no place is walked twice if the declared names differ
(`Shape.nodup_walk`). The faults of a value are what is wrong at the positions of its walk, one issue
for each position with a fault.

Key definitions: `Shape`, `Fields`, `Shape.cause?`, `Position`, `Position.cause?`, `Shape.walk`,
`Shape.faults`, `Encloses`, `Shape.Distinct`.
Key theorems: `Shape.encloses_walk`, `Shape.nodup_walk`, `Position.nodup_issues`,
`Shape.faults_eq_nil_iff`.
-/
import TokenLedger.Proofs.Decimal.Bounds

namespace TokenLedger

/-! ### What is expected -/

mutual

/-- What a value is expected to be. -/
inductive Shape where
  | text
  | amount
  | any
  | list (item : Shape)
  | record (fields : Fields)

/-- The declared members of an object, in the order of their declaration. -/
inductive Fields where
  | nil
  | cons (name : String) (required : Bool) (shape : Shape) (rest : Fields)

end

/-- Why a value is no amount: it spells no decimal, or one that is out of the range. -/
def Json.amountCause? (v : Json) : Option Cause :=
  match Check.decimal .payload v with
  | .error issues => issues.head?.map Issue.cause
  | .ok d =>
    if d.value < 0 then some .belowBound
    else if 2 ^ 64 - 1 < d.value then some .aboveBound
    else none

/-- Why a value is not of a shape, apart from what its members and items are. -/
def Shape.cause? : Shape → Json → Option Cause
  | .text, .str (.text _) => none
  | .text, .str (.unreadable _) => some .unreadableString
  | .text, _ => some .notString
  | .amount, v => v.amountCause?
  | .any, _ => none
  | .list _, .arr _ => none
  | .list _, _ => some .notList
  | .record _, .obj _ => none
  | .record _, _ => some .notRecord

/-! ### Positions -/

/-- A place at which something is expected, and what is there. -/
structure Position where
  place : List Segment
  shape : Shape
  required : Bool
  found : Option Json

namespace Position

/-- The same position seen from one step further out. -/
def within (s : Segment) (p : Position) : Position :=
  { p with place := s :: p.place }

/-- What is wrong at a position: nothing is there though something has to be, or something that is not
of the shape. -/
def cause? : Position → Option Cause
  | ⟨_, shape, _, some v⟩ => shape.cause? v
  | ⟨_, _, true, none⟩ => some .missing
  | ⟨_, _, false, none⟩ => none

/-- The issue of a position with a fault. -/
def issue? (p : Position) : Option Issue :=
  p.cause?.map (⟨p.place, ·⟩)

/-- A value of the expected shape is there. -/
def Sound (p : Position) : Prop :=
  p.found.isSome = true ∧ p.cause? = none

end Position

mutual

/-- The positions from a value on: its own, and, if it is an object or a list as expected, those of its
declared members or of its items. -/
def Shape.walk : Shape → Bool → Option Json → List Position
  | .list item, required, found =>
    ⟨[], .list item, required, found⟩ ::
      match found with
      | some (.arr vs) =>
        vs.zipIdx.flatMap fun x => (item.walk true (some x.1)).map (.within (.item x.2))
      | _ => []
  | .record fields, required, found =>
    ⟨[], .record fields, required, found⟩ ::
      match found with
      | some (.obj ms) => fields.walk ms
      | _ => []
  | shape, required, found => [⟨[], shape, required, found⟩]

/-- The positions of the declared members of an object, of each of them the last one. -/
def Fields.walk : Fields → Json.Members → List Position
  | .nil, _ => []
  | .cons name required shape rest, ms =>
    (shape.walk required (Json.last? name ms)).map (.within (.field name)) ++ rest.walk ms

end

/-- The issues of what is wrong in a value, or of its absence. -/
def Shape.faults (shape : Shape) (required : Bool) (found : Option Json) : List Issue :=
  (shape.walk required found).filterMap Position.issue?

/-- The issues of what is wrong in the declared members of an object. -/
def Fields.faults (fields : Fields) (ms : Json.Members) : List Issue :=
  (fields.walk ms).filterMap Position.issue?

/-! ### Issues of positions -/

namespace Position

theorem cause?_within (s : Segment) (p : Position) : (p.within s).cause? = p.cause? := by
  obtain ⟨place, shape, required, found⟩ := p
  cases found <;> cases required <;> rfl

theorem issue?_within (s : Segment) (p : Position) :
    (p.within s).issue? = p.issue?.map (Issue.within s) := by
  rw [issue?, issue?, cause?_within, Option.map_map]
  rfl

theorem filterMap_issue?_within (s : Segment) (ps : List Position) :
    (ps.map (within s)).filterMap issue? = (ps.filterMap issue?).map (Issue.within s) := by
  rw [List.filterMap_map, List.map_filterMap]
  exact List.filterMap_congr fun p _ => issue?_within s p

theorem issue?_eq_none_iff {p : Position} : p.issue? = none ↔ p.cause? = none :=
  Option.map_eq_none_iff

/-- The places of the issues are places of positions, in their order. -/
theorem sublist_places (ps : List Position) :
    ((ps.filterMap issue?).map Issue.place).Sublist (ps.map place) := by
  induction ps with
  | nil => exact .slnil
  | cons p ps ih =>
    rw [List.filterMap_cons, List.map_cons]
    unfold issue?
    cases p.cause? with
    | none => exact ih.cons _
    | some cause => exact ih.cons_cons _

/-- Positions at distinct places have their issues there. -/
theorem nodup_issues {ps : List Position} (h : (ps.map place).Nodup) :
    ((ps.filterMap issue?).map Issue.place).Nodup :=
  h.sublist (sublist_places ps)

end Position

theorem Shape.faults_eq_nil_iff {shape : Shape} {required : Bool} {found : Option Json} :
    shape.faults required found = [] ↔ ∀ p ∈ shape.walk required found, p.cause? = none := by
  rw [faults, List.filterMap_eq_nil_iff]
  exact forall₂_congr fun p _ => Position.issue?_eq_none_iff

/-! ### Around a position -/

/-- Around each of the positions, at every shorter place that leads to its own, there is one that holds
a value of its shape. -/
def Encloses (around ps : List Position) : Prop :=
  ∀ p ∈ ps, ∀ q, q <+: p.place → q ≠ p.place → ∃ o ∈ around, o.place = q ∧ o.Sound

section

variable {around ps : List Position} {o : Position}

theorem encloses_self (shape : Shape) (required : Bool) (found : Option Json)
    (around : List Position) : Encloses around [⟨[], shape, required, found⟩] := by
  intro p hp q hprefix hne
  obtain rfl := List.mem_singleton.mp hp
  exact absurd (List.prefix_nil.mp hprefix) hne

theorem Encloses.append {ps' : List Position} (h : Encloses around ps) (h' : Encloses around ps') :
    Encloses around (ps ++ ps') :=
  fun p hp => (List.mem_append.mp hp).elim (h p) (h' p)

/-- One step further out, what stands around is the same and the value that the step leads into. -/
theorem Encloses.within {s : Segment} (h : Encloses ps ps) (hplace : o.place = []) (ho : o.Sound)
    (hmem : o ∈ around) (hsub : ps.map (.within s) ⊆ around) :
    Encloses around (ps.map (.within s)) := by
  intro p hp q hprefix hne
  obtain ⟨p', hp', rfl⟩ := List.mem_map.mp hp
  cases q with
  | nil => exact ⟨o, hmem, hplace, ho⟩
  | cons t q =>
    obtain ⟨rfl, hprefix'⟩ := List.cons_prefix_cons.mp hprefix
    have hne' : q ≠ p'.place := fun heq => hne (congrArg (t :: ·) heq)
    obtain ⟨o', ho', hplace', hsound⟩ := h p' hp' q hprefix' hne'
    refine ⟨o'.within t, hsub (List.mem_map_of_mem ho'), congrArg (t :: ·) hplace', hsound.1, ?_⟩
    rw [Position.cause?_within]
    exact hsound.2

mutual

/-- **Around each position of a walk all values are of their shapes.** -/
theorem Shape.encloses_walk : ∀ (shape : Shape) (required : Bool) (found : Option Json),
    Encloses (shape.walk required found) (shape.walk required found)
  | .text, _, _ => encloses_self _ _ _ _
  | .amount, _, _ => encloses_self _ _ _ _
  | .any, _, _ => encloses_self _ _ _ _
  | .list item, required, found => by
    have hself := encloses_self (.list item) required found ((Shape.list item).walk required found)
    rcases found with _ | v
    · exact hself
    · cases v with
      | arr vs =>
        refine hself.append fun p hp => ?_
        obtain ⟨x, hx, hp⟩ := List.mem_flatMap.mp hp
        exact (item.encloses_walk true (some x.1)).within rfl ⟨rfl, rfl⟩ List.mem_cons_self
          (fun _ hq => List.mem_cons_of_mem _ (List.mem_flatMap.mpr ⟨x, hx, hq⟩)) p hp
      | null | bool | whole | float | str | obj => exact hself
  | .record fields, required, found => by
    have hself := encloses_self (.record fields) required found
      ((Shape.record fields).walk required found)
    rcases found with _ | v
    · exact hself
    · cases v with
      | obj ms =>
        exact hself.append (fields.encloses_walk ms rfl ⟨rfl, rfl⟩ List.mem_cons_self
          (List.subset_cons_self _ _))
      | null | bool | whole | float | str | arr => exact hself

theorem Fields.encloses_walk : ∀ (fields : Fields) (ms : Json.Members) {o : Position}
    {around : List Position}, o.place = [] → o.Sound → o ∈ around → fields.walk ms ⊆ around →
    Encloses around (fields.walk ms)
  | .nil, _, _, _, _, _, _, _ => fun _ hp => nomatch hp
  | .cons name required shape rest, ms, _, _, hplace, ho, hmem, hsub => by
    rw [Fields.walk] at hsub ⊢
    rw [List.append_subset] at hsub
    exact ((shape.encloses_walk required (Json.last? name ms)).within hplace ho hmem hsub.1).append
      (rest.encloses_walk ms hplace ho hmem hsub.2)

end

end

/-! ### Distinct places -/

/-- The declared names. -/
def Fields.names : Fields → List String
  | .nil => []
  | .cons name _ _ rest => name :: rest.names

mutual

/-- The names that are declared for one object differ. -/
def Shape.Distinct : Shape → Prop
  | .list item => item.Distinct
  | .record fields => fields.Distinct
  | _ => True

def Fields.Distinct : Fields → Prop
  | .nil => True
  | .cons name _ shape rest => name ∉ rest.names ∧ shape.Distinct ∧ rest.Distinct

end

section

variable {ms : Json.Members} {ps : List Position} {p : Position}

theorem map_place_within (s : Segment) (ps : List Position) :
    (ps.map (.within s)).map Position.place = (ps.map Position.place).map (s :: ·) := by
  rw [List.map_map, List.map_map]
  rfl

theorem nodup_within {s : Segment} (h : (ps.map Position.place).Nodup) :
    ((ps.map (.within s)).map Position.place).Nodup := by
  rw [map_place_within]
  exact h.map List.cons_injective

/-- The positions in an object lie under the declared names. -/
theorem Fields.exists_name_of_mem_walk : ∀ (fields : Fields), p ∈ fields.walk ms →
    ∃ name ∈ fields.names, ∃ q, p.place = .field name :: q
  | .nil, h => nomatch h
  | .cons name required shape rest, h => by
    rw [Fields.walk] at h
    rcases List.mem_append.mp h with h | h
    · obtain ⟨p', -, rfl⟩ := List.mem_map.mp h
      exact ⟨name, List.mem_cons_self, p'.place, rfl⟩
    · obtain ⟨name', hname', hq⟩ := rest.exists_name_of_mem_walk h
      exact ⟨name', List.mem_cons_of_mem _ hname', hq⟩

/-- A value's own position is none of those below it. -/
theorem nodup_cons_own {shape : Shape} {required : Bool} {found : Option Json}
    (hbelow : ∀ p ∈ ps, ∃ s q, p.place = s :: q) (h : (ps.map Position.place).Nodup) :
    ((⟨[], shape, required, found⟩ :: ps).map Position.place).Nodup := by
  rw [List.map_cons, List.nodup_cons]
  refine ⟨fun hmem => ?_, h⟩
  obtain ⟨p, hp, hplace⟩ := List.mem_map.mp hmem
  obtain ⟨s, q, hq⟩ := hbelow p hp
  rw [hq] at hplace
  cases hplace

mutual

/-- **No place is walked twice.** -/
theorem Shape.nodup_walk : ∀ (shape : Shape) (required : Bool) (found : Option Json),
    shape.Distinct → ((shape.walk required found).map Position.place).Nodup
  | .text, _, _, _ => List.nodup_singleton _
  | .amount, _, _, _ => List.nodup_singleton _
  | .any, _, _, _ => List.nodup_singleton _
  | .list item, required, found, hdistinct => by
    rcases found with _ | v
    · exact List.nodup_singleton _
    · cases v with
      | arr vs =>
        refine nodup_cons_own (fun p hp => ?_) ?_
        · obtain ⟨x, -, hp⟩ := List.mem_flatMap.mp hp
          obtain ⟨p', -, rfl⟩ := List.mem_map.mp hp
          exact ⟨_, _, rfl⟩
        · rw [List.map_flatMap, List.nodup_flatMap]
          refine ⟨fun x _ => nodup_within (item.nodup_walk true _ hdistinct), ?_⟩
          -- items at different indices have no place in common
          have hindices : vs.zipIdx.Pairwise fun x y => x.2 ≠ y.2 := by
            rw [← List.pairwise_map, List.zipIdx_map_snd]
            exact List.nodup_range'
          refine hindices.imp fun hne => ?_
          intro place hx hy
          dsimp only at hx hy
          rw [map_place_within] at hx hy
          obtain ⟨_, -, rfl⟩ := List.mem_map.mp hx
          obtain ⟨_, -, hplace⟩ := List.mem_map.mp hy
          exact hne (Segment.item.inj (List.head_eq_of_cons_eq hplace)).symm
      | null | bool | whole | float | str | obj => exact List.nodup_singleton _
  | .record fields, required, found, hdistinct => by
    rcases found with _ | v
    · exact List.nodup_singleton _
    · cases v with
      | obj ms =>
        refine nodup_cons_own (fun p hp => ?_) (fields.nodup_walk ms hdistinct)
        obtain ⟨name, -, q, hplace⟩ := fields.exists_name_of_mem_walk hp
        exact ⟨_, q, hplace⟩
      | null | bool | whole | float | str | arr => exact List.nodup_singleton _

theorem Fields.nodup_walk : ∀ (fields : Fields) (ms : Json.Members), fields.Distinct →
    ((fields.walk ms).map Position.place).Nodup
  | .nil, _, _ => List.nodup_nil
  | .cons name required shape rest, ms, ⟨hname, hshape, hrest⟩ => by
    rw [Fields.walk, List.map_append]
    refine (nodup_within (shape.nodup_walk required _ hshape)).append (rest.nodup_walk ms hrest) ?_
    intro place hfirst hothers
    rw [map_place_within] at hfirst
    obtain ⟨q, -, rfl⟩ := List.mem_map.mp hfirst
    obtain ⟨p, hp, hplace⟩ := List.mem_map.mp hothers
    obtain ⟨name', hname', q', hplace'⟩ := rest.exists_name_of_mem_walk hp
    rw [hplace', List.cons.injEq, Segment.field.injEq] at hplace
    exact hname (hplace.1 ▸ hname')

end

end

end TokenLedger
