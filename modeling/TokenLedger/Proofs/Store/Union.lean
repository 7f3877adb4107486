/-
# Insertion as a union

The activities of a store are a table in which no key may repeat: to add an activity whose key is there
is an error of the table, and nothing is added then (`Store.addAll?`). An insertion need not ask the
table for each key. It looks up the stored keys of the versions of its list once, passes over the list
with these and the keys that it has seen, and adds what is left in one go (`Store.insertByVersions?`).
An activity shares its key with one of its own version only, so the keys looked up are all that matter:
the table is never violated, and the result is that of `Store.insert`. Under each key stands what stood
there before, or else the first activity of the list (`Store.insert_is_union`).

Key definitions: `Store.addAll?`, `Store.insertByVersions?`.
Key theorems: `Store.addAll?_eq_some_iff`, `Store.insertByVersions?_eq`, `Store.filter_key_eq`,
`Store.insert_is_union`.
-/
import TokenLedger.Proofs.Store.Queries

namespace TokenLedger
namespace Store

variable {s t : Store} {as : List Activity} {k : ActivityKey}

/-! ### Adding to a table -/

/-- The store with activities at its end; none if one of their keys is there, or comes twice. -/
def addAll? (s : Store) : List Activity → Option Store
  | [] => some s
  | a :: as => if a.key ∈ s.keys then none else (s.push a).addAll? as

/-- If the keys of a table are distinct, activities are added exactly if they stay so. -/
theorem addAll?_eq_some_iff (h : s.keys.Nodup) :
    s.addAll? as = some t ↔ (s.keys ++ as.map Activity.key).Nodup ∧
      t = { s with activities := s.activities ++ as } := by
  induction as generalizing s with
  | nil => simp [addAll?, h, eq_comm]
  | cons a as ih =>
    unfold addAll?
    by_cases ha : a.key ∈ s.keys
    · have hrepeated : ¬ (s.keys ++ (a :: as).map Activity.key).Nodup := fun hnodup =>
        (List.nodup_append.mp hnodup).2.2 a.key ha a.key List.mem_cons_self rfl
      rw [if_pos ha]
      exact iff_of_false (by nofun) fun hboth => hrepeated hboth.1
    · have hpush : (s.push a).keys.Nodup := by
        rw [keys_push]
        exact List.nodup_append_comm.mp (List.nodup_cons.mpr ⟨ha, h⟩)
      rw [if_neg ha, ih hpush, keys_push]
      simp [push]

/-! ### Insertion with one look-up -/

/-- The store with those of the activities whose keys are neither stored under one of their versions nor
those of earlier ones of the list, and their number; none if the table does not take them. -/
def insertByVersions? (s : Store) (as : List Activity) : Option (Store × ℕ) :=
  let rows := Activity.fresh (s.keysOf (as.map (·.key.version))) as
  (s.addAll? rows).map (·, rows.length)

/-- The keys of the versions of a list are all stored keys that can matter to it. -/
theorem fresh_keysOf (s : Store) (as : List Activity) :
    Activity.fresh (s.keysOf (as.map (·.key.version))) as = Activity.fresh s.keys as := by
  refine Activity.fresh_congr fun a ha => ?_
  rw [mem_keysOf]
  exact and_iff_left (List.mem_map_of_mem ha)

/-- **The table takes what is left**, and the store is then that of an insertion. -/
theorem insertByVersions?_eq (h : s.keys.Nodup) (as : List Activity) :
    s.insertByVersions? as = some (s.insert as) := by
  have hadd : s.addAll? (Activity.fresh s.keys as) = some (s.insert as).1 := by
    rw [addAll?_eq_some_iff h, insert_eq]
    exact ⟨Activity.nodup_append_fresh h, rfl⟩
  simp only [insertByVersions?, fresh_keysOf, hadd, Option.map_some, insert_eq]

/-! ### What stands under a key -/

/-- If the keys are distinct, the activities under a key are the one that is found, if there is one. -/
theorem filter_key_eq (h : s.keys.Nodup) (k : ActivityKey) :
    s.activities.filter (·.key = k) = (s.find? k).toList := by
  have hmem : ∀ a, a ∈ s.activities.filter (·.key = k) ↔ a ∈ (s.find? k).toList := by
    intro a
    rw [List.mem_filter, decide_eq_true_iff, ← find?_eq_some_iff h, Option.mem_toList]
  have hnodup : (s.activities.filter (·.key = k)).Nodup := (List.Nodup.of_map _ h).filter _
  cases hfind : s.find? k with
  | none =>
    rw [hfind] at hmem
    exact List.eq_nil_iff_forall_not_mem.mpr fun a ha => List.not_mem_nil ((hmem a).mp ha)
  | some a =>
    rw [hfind] at hmem
    have hone := List.nodup_singleton a
    exact List.perm_singleton.mp ((List.perm_ext_iff_of_nodup hnodup hone).mpr hmem)

/-- An insertion reports the number of the keys that were not stored before. -/
theorem insert_snd (h : s.keys.Nodup) (as : List Activity) :
    (s.insert as).2 = ((as.map Activity.key).toFinset \ s.keys.toFinset).card := by
  have hkeys : ((Activity.fresh s.keys as).map Activity.key).Nodup :=
    (List.nodup_append.mp (Activity.nodup_append_fresh h)).2.1
  have hset : ((Activity.fresh s.keys as).map Activity.key).toFinset =
      (as.map Activity.key).toFinset \ s.keys.toFinset := by
    ext k
    simp only [List.mem_toFinset, Finset.mem_sdiff, List.mem_map]
    constructor
    · rintro ⟨a, ha, rfl⟩
      obtain ⟨hmem, hnew⟩ := Activity.mem_of_mem_fresh ha
      exact ⟨⟨a, hmem, rfl⟩, hnew⟩
    · rintro ⟨⟨a, ha, rfl⟩, hnew⟩
      have hkey : a.key ∈ s.keys ++ (Activity.fresh s.keys as).map Activity.key :=
        Activity.key_mem_fresh ha
      rcases List.mem_append.mp hkey with hold | hfresh
      · exact absurd hold hnew
      · exact List.mem_map.mp hfresh
  calc (s.insert as).2 = ((Activity.fresh s.keys as).map Activity.key).length := by
        rw [insert_eq, List.length_map]
    _ = ((as.map Activity.key).toFinset \ s.keys.toFinset).card := by
        rw [← hset, List.toFinset_card_of_nodup hkeys]

/-! ### First come, first kept -/

/-- **An insertion is a union in which the first comer wins.** If the keys of a store are distinct, no
list of activities violates the table, and the keys stay distinct. Under each key stands the activity
that stood there before, else the first one of the list with that key, else none; and what is reported
is the number of keys of the list that were not stored before. The command that inserts activities does
this, unless a number of what is new does not fit. -/
theorem insert_is_union (h : s.keys.Nodup) (as : List Activity) :
    s.insertByVersions? as = some (s.insert as) ∧
    (∀ k, (s.insert as).1.activities.filter (·.key = k) =
      ((s.find? k).or (as.find? (·.key == k))).toList) ∧
    (s.insert as).2 = ((as.map Activity.key).toFinset \ s.keys.toFinset).card ∧
    (s.insert as).1.keys.Nodup ∧
    ∀ vs time, checkEach Activity.check vs = .ok as →
      (Command.insertActivities vs).run s time =
        if s.admits as then .ok ((s.insert as).1, .inserted (s.insert as).2)
        else .error (.store .outOfRange) := by
  have hkeys := nodup_keys_insert h as
  refine ⟨insertByVersions?_eq h as, fun k => ?_, insert_snd h as, hkeys, fun vs time hvs => ?_⟩
  · rw [filter_key_eq hkeys, find?_insert]
  · simp only [Command.run, hvs]

/-- One activity is stored. A list brings another one, and then both keys once more with other creators:
the stored one and the first of the list are there afterwards. -/
theorem insert_is_union_of_repeated :
    (Store.mk [.nameless 1 0 "a"] []).keys.Nodup ∧
    ((Store.mk [.nameless 1 0 "a"] []).insert
      [.nameless 2 0 "b", .nameless 1 0 "c", .nameless 2 0 "d"]).2 = 1 ∧
    ((Store.mk [.nameless 1 0 "a"] []).insert
      [.nameless 2 0 "b", .nameless 1 0 "c", .nameless 2 0 "d"]).1.activities.filter
        (·.key = ⟨1, "", 0, 0⟩) = [.nameless 1 0 "a"] ∧
    ((Store.mk [.nameless 1 0 "a"] []).insert
      [.nameless 2 0 "b", .nameless 1 0 "c", .nameless 2 0 "d"]).1.activities.filter
        (·.key = ⟨2, "", 0, 0⟩) = [.nameless 2 0 "b"] := by
  have hkeys : (Store.mk [.nameless 1 0 "a"] []).keys.Nodup := List.nodup_singleton _
  obtain ⟨-, hrows, hcount, -⟩ :=
    insert_is_union hkeys [.nameless 2 0 "b", .nameless 1 0 "c", .nameless 2 0 "d"]
  exact ⟨hkeys, hcount.trans (by decide), (hrows _).trans (by decide), (hrows _).trans (by decide)⟩

end Store
end TokenLedger
