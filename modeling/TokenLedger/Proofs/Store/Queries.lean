/-
# The queries of a store

A store is asked for the keys of some versions, for the activity of a key, for the activities of a
version and for a listing of all. Each query reads the one table of the store, and if the keys of the
store are distinct the answers fit together. A list that holds the stored activities, each in front of
those of greater place, is the listing (`Store.eq_listed`); so the listing is made of one block for each
stored version (`Store.exists_block`, `Store.flatMap_activitiesOf_versions`), whatever the indices of
the activities are: one activity without an index, or several with one, have places of their own.

Key definitions: `Activity.nameless`, `Page.ShowsAll`, `Store.listed`, `Store.versions`.
Key theorems: `Store.mem_keysOf`, `Store.find?_eq_some_iff`, `Store.eq_listed`, `Store.exists_block`,
`Store.flatMap_activitiesOf_versions`.
-/
import TokenLedger.Proofs.Store.Fresh
import TokenLedger.Proofs.Store.Paging

namespace TokenLedger

/-! ### Places by version -/

namespace Activity

variable {a b : Activity}

/-- An activity of a later version comes first. -/
theorem place_lt_of_version_lt (h : b.key.version < a.key.version) : a.place < b.place :=
  Prod.Lex.toLex_lt_toLex.mpr (.inl (OrderDual.toDual_lt_toDual.mpr h))

/-- An activity without an index, of which little more than its key is known. -/
def nameless (version sequenceNumber : ℤ) (creator : String) : Activity where
  key := ⟨version, "", 0, sequenceNumber⟩
  tokenHash := ""
  propertyVersion := .zero
  creator := creator
  collection := ""
  name := ""
  tag := ""
  sender := none
  receiver := none
  amount := .zero
  coinType := none
  coinAmount := none
  collectionHash := ""
  time := ⟨1970, 1, 1, 0, 0, 0, 0⟩
  index := none

end Activity

/-! ### Pages that show all -/

/-- A page leaves out nothing of a list of a length: it starts at the front, and its limit, if it has
one, is negative or not less than the length. -/
def Page.ShowsAll (p : Page) (length : ℕ) : Prop :=
  p.offset.getD 0 ≤ 0 ∧ ∀ limit, p.limit = some limit → limit < 0 ∨ length ≤ limit

theorem Page.ShowsAll.of_eq {α : Type} {p : Page} {xs : List α} (h : p.ShowsAll xs.length) :
    p.of xs = xs := by
  obtain ⟨hoffset, hlimit⟩ := h
  have hfront : (p.offset.getD 0).toNat = 0 := Int.toNat_of_nonpos hoffset
  unfold Page.of
  simp only [hfront, List.drop_zero]
  cases hp : p.limit with
  | none => rfl
  | some limit =>
    by_cases hneg : limit < 0
    · simp only [if_pos hneg]
    · have hlong : xs.length ≤ limit.toNat := by
        have := hlimit limit hp
        omega
      simp only [if_neg hneg, List.take_of_length_le hlong]

namespace Store

variable {s : Store} {k : ActivityKey} {a : Activity} {v : ℤ} {vs : List ℤ}

/-! ### Keys -/

theorem mem_keysOf : k ∈ s.keysOf vs ↔ k ∈ s.keys ∧ k.version ∈ vs := by
  rw [keysOf, (sortedBy_perm _ _).mem_iff, List.mem_filter, List.contains_iff_mem]

theorem nodup_keysOf (h : s.keys.Nodup) (vs : List ℤ) : (s.keysOf vs).Nodup :=
  (sortedBy_perm _ _).nodup_iff.mpr (h.filter _)

theorem mem_activitiesOf : a ∈ s.activitiesOf v ↔ a ∈ s.activities ∧ a.key.version = v := by
  rw [activitiesOf, (sortedBy_perm _ _).mem_iff, List.mem_filter, beq_iff_eq]

/-- The keys of some versions are those of the activities of each of them. -/
theorem mem_keysOf_iff_exists :
    k ∈ s.keysOf vs ↔ ∃ v ∈ vs, k ∈ (s.activitiesOf v).map Activity.key := by
  simp only [mem_keysOf, keys, List.mem_map, mem_activitiesOf]
  constructor
  · rintro ⟨⟨a, ha, rfl⟩, hv⟩
    exact ⟨a.key.version, hv, a, ⟨ha, rfl⟩, rfl⟩
  · rintro ⟨v, hv, a, ⟨ha, rfl⟩, rfl⟩
    exact ⟨⟨a, ha, rfl⟩, hv⟩

/-- If the keys are distinct, the activity that is found is the one of the key. -/
theorem find?_eq_some_iff (h : s.keys.Nodup) : s.find? k = some a ↔ a ∈ s.activities ∧ a.key = k := by
  have hfound : ∀ {b k}, s.find? k = some b → b ∈ s.activities ∧ b.key = k := by
    intro b k hb
    have htest : (b.key == k) = true := List.find?_some (p := fun c : Activity => c.key == k) hb
    exact ⟨List.mem_of_find?_eq_some hb, eq_of_beq htest⟩
  refine ⟨hfound, ?_⟩
  rintro ⟨ha, rfl⟩
  obtain ⟨b, hb⟩ := Option.isSome_iff_exists.mp (isSome_find?_iff.mpr (List.mem_map_of_mem ha))
  obtain ⟨hmem, hkey⟩ := hfound hb
  rw [hb, List.inj_on_of_nodup_map h hmem ha hkey]

/-! ### Blocks of a listing -/

/-- All activities as they are listed. -/
def listed (s : Store) : List Activity :=
  sortedBy Activity.order s.activities

/-- A page that shows all of what is stored, to a filter that asks for nothing, is the listing. -/
theorem rows_listActivities {f : ActivityFilter} {p : Page} (hf : ∀ a, f.Selects a)
    (hp : p.ShowsAll s.activities.length) : (s.listActivities f p).rows = s.listed := by
  have hall : s.activities.filter f.passes = s.activities :=
    List.filter_eq_self.mpr fun a _ => ActivityFilter.passes_iff.mpr (hf a)
  have hlength : s.listed.length = s.activities.length := (sortedBy_perm _ _).length_eq
  have hpage : p.of s.listed = s.listed := Page.ShowsAll.of_eq (hlength.symm ▸ hp)
  rw [listActivities, hall]
  exact hpage

/-- **A list of what is stored, in the order of the places, is the listing.** -/
theorem eq_listed {rows : List Activity} (h : s.keys.Nodup)
    (hrows : rows.Pairwise fun a b => a.place < b.place) (hmem : ∀ a, a ∈ rows ↔ a ∈ s.activities) :
    rows = s.listed := by
  have hperm : s.listed.Perm s.activities := sortedBy_perm _ _
  have hlisted : s.listed.Pairwise fun a b => a.place < b.place :=
    pairwise_place_sortedBy h (List.Sublist.refl _)
  have hnodup : ∀ {as : List Activity}, as.Pairwise (fun a b => a.place < b.place) → as.Nodup :=
    fun has => has.imp fun hlt heq => hlt.ne (congrArg Activity.place heq)
  have hsame : rows.Perm s.listed := by
    refine (List.perm_ext_iff_of_nodup (hnodup hrows) (hnodup hlisted)).mpr fun a => ?_
    rw [hmem a, hperm.mem_iff]
  exact hsame.eq_of_pairwise (fun a b _ _ hab hba => absurd hba hab.not_gt) hrows hlisted

theorem pairwise_activitiesOf (h : s.keys.Nodup) (v : ℤ) :
    (s.activitiesOf v).Pairwise fun a b => a.place < b.place :=
  pairwise_place_sortedBy h List.filter_sublist

/-- The distinct versions of what is stored, the latest first. -/
def versions (s : Store) : List ℤ :=
  (s.keys.map ActivityKey.version).toFinset.sort (· ≥ ·)

theorem mem_versions : v ∈ s.versions ↔ ∃ a ∈ s.activities, a.key.version = v := by
  simp [versions, keys]

theorem pairwise_versions (s : Store) : s.versions.Pairwise (· > ·) :=
  (Finset.sortedGT_sort _).pairwise

theorem mem_flatMap_activitiesOf :
    a ∈ vs.flatMap s.activitiesOf ↔ a ∈ s.activities ∧ a.key.version ∈ vs := by
  simp only [List.mem_flatMap, mem_activitiesOf]
  constructor
  · rintro ⟨v, hv, ha, rfl⟩
    exact ⟨ha, hv⟩
  · rintro ⟨ha, hv⟩
    exact ⟨a.key.version, hv, ha, rfl⟩

/-- The activities of versions that descend are the listing, if no stored version is left out. -/
theorem flatMap_activitiesOf (h : s.keys.Nodup) (hvs : vs.Pairwise (· > ·))
    (hall : ∀ a ∈ s.activities, a.key.version ∈ vs) : vs.flatMap s.activitiesOf = s.listed := by
  have hsorted : (vs.flatMap s.activitiesOf).Pairwise fun a b => a.place < b.place := by
    refine List.pairwise_flatMap.mpr ⟨fun v _ => pairwise_activitiesOf h v, hvs.imp ?_⟩
    intro v w hlt a ha b hb
    obtain ⟨-, rfl⟩ := mem_activitiesOf.mp ha
    obtain ⟨-, rfl⟩ := mem_activitiesOf.mp hb
    exact Activity.place_lt_of_version_lt hlt
  refine eq_listed h hsorted fun a => ?_
  rw [mem_flatMap_activitiesOf]
  exact and_iff_left_of_imp (hall a)

/-- **The listing is made of the activities of each stored version**, the latest version first. -/
theorem flatMap_activitiesOf_versions (h : s.keys.Nodup) :
    s.versions.flatMap s.activitiesOf = s.listed :=
  flatMap_activitiesOf h s.pairwise_versions fun a ha => mem_versions.mpr ⟨a, ha, rfl⟩

/-- **The activities of a version stand side by side in the listing**, behind those of later versions
and in front of those of earlier ones. -/
theorem exists_block (h : s.keys.Nodup) (v : ℤ) :
    ∃ later earlier, s.listed = later ++ s.activitiesOf v ++ earlier ∧
      (∀ a ∈ later, v < a.key.version) ∧ ∀ a ∈ earlier, a.key.version < v := by
  have hlater : ∀ w ∈ s.versions.filter (v < ·), v < w := by simp
  have hearlier : ∀ w ∈ s.versions.filter (· < v), w < v := by simp
  -- the version has its place among the stored ones, also if nothing of it is stored
  have hdescend : (s.versions.filter (v < ·) ++ v :: s.versions.filter (· < v)).Pairwise (· > ·) := by
    refine List.pairwise_append.mpr ⟨s.pairwise_versions.filter _,
      List.pairwise_cons.mpr ⟨hearlier, s.pairwise_versions.filter _⟩, ?_⟩
    intro w hw x hx
    have hvw := hlater w hw
    rcases List.mem_cons.mp hx with rfl | hx
    · exact hvw
    · exact (hearlier x hx).trans hvw
  have hall : ∀ a ∈ s.activities,
      a.key.version ∈ s.versions.filter (v < ·) ++ v :: s.versions.filter (· < v) := by
    intro a ha
    have hstored : a.key.version ∈ s.versions := mem_versions.mpr ⟨a, ha, rfl⟩
    simp only [List.mem_append, List.mem_cons, List.mem_filter, hstored, decide_eq_true_eq, true_and]
    omega
  refine ⟨(s.versions.filter (v < ·)).flatMap s.activitiesOf,
    (s.versions.filter (· < v)).flatMap s.activitiesOf, ?_,
    fun a ha => hlater _ (mem_flatMap_activitiesOf.mp ha).2,
    fun a ha => hearlier _ (mem_flatMap_activitiesOf.mp ha).2⟩
  rw [← flatMap_activitiesOf h hdescend hall, List.flatMap_append, List.flatMap_cons,
    List.append_assoc]

end Store
end TokenLedger
