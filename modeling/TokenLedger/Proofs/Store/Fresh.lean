/-
# What an insertion adds

An insertion puts behind the activities those whose key is not stored yet, and of several with one
key the first (`Store.insert_eq`). Which these are depends on the list and on the stored keys alone
(`Activity.fresh`), and on those keys only as far as the list has them (`Activity.fresh_congr`). So
what is stored stays, keys stay distinct (`Store.nodup_keys_insert`), every key of the list is stored
afterwards (`Store.key_mem_keys_insert`), and a list whose keys are all stored adds nothing.

Key definitions: `Activity.fresh`.
Key theorems: `Activity.fresh_append`, `Activity.find?_fresh`, `Store.insert_eq`, `Store.admits_eq`,
`Store.nodup_keys_insert`, `Store.find?_insert`.
-/
import TokenLedger.Proofs.Store.Insertion
import TokenLedger.Store.Listing

namespace TokenLedger

namespace Activity

variable {taken taken' : List ActivityKey} {as bs : List Activity} {a : Activity} {k : ActivityKey}

/-- The activities whose keys are not taken, and of several with one key the first. -/
def fresh (taken : List ActivityKey) : List Activity → List Activity
  | [] => []
  | a :: as => if a.key ∈ taken then fresh taken as else a :: fresh (taken ++ [a.key]) as

theorem mem_of_mem_fresh (h : a ∈ fresh taken as) : a ∈ as ∧ a.key ∉ taken := by
  induction as generalizing taken with
  | nil => cases h
  | cons b as ih =>
    unfold fresh at h
    split at h
    · obtain ⟨ha, hk⟩ := ih h
      exact ⟨List.mem_cons_of_mem b ha, hk⟩
    · rename_i hb
      rcases List.mem_cons.mp h with rfl | h
      · exact ⟨List.mem_cons_self, hb⟩
      · obtain ⟨ha, hk⟩ := ih h
        exact ⟨List.mem_cons_of_mem b ha, fun hmem => hk (List.mem_append_left _ hmem)⟩

/-- It only matters which of the list's own keys are taken. -/
theorem fresh_congr (h : ∀ a ∈ as, a.key ∈ taken ↔ a.key ∈ taken') :
    fresh taken as = fresh taken' as := by
  induction as generalizing taken taken' with
  | nil => rfl
  | cons b as ih =>
    obtain ⟨hb, has⟩ := List.forall_mem_cons.mp h
    unfold fresh
    by_cases hk : b.key ∈ taken
    · rw [if_pos hk, if_pos (hb.mp hk), ih has]
    · have htail : fresh (taken ++ [b.key]) as = fresh (taken' ++ [b.key]) as :=
        ih fun a ha => by simp only [List.mem_append, has a ha]
      rw [if_neg hk, if_neg (fun hk' => hk (hb.mpr hk')), htail]

theorem fresh_append (taken : List ActivityKey) (as bs : List Activity) :
    fresh taken (as ++ bs) = fresh taken as ++ fresh (taken ++ as.map key) bs := by
  induction as generalizing taken with
  | nil => rw [List.map_nil, List.append_nil]; rfl
  | cons b as ih =>
    rw [List.cons_append, fresh, fresh, List.map_cons]
    split
    · rename_i hb
      -- the key was taken before, so it does not matter that the list has it
      have htail : fresh (taken ++ as.map key) bs = fresh (taken ++ b.key :: as.map key) bs := by
        refine fresh_congr fun a _ => ?_
        simp only [List.mem_append, List.mem_cons]
        constructor
        · rintro (h | h)
          · exact .inl h
          · exact .inr (.inr h)
        · rintro (h | h | h)
          · exact .inl h
          · exact .inl (h ▸ hb)
          · exact .inr h
      rw [ih, htail]
    · rw [ih, List.append_assoc, List.singleton_append, List.cons_append]

/-- Nothing is dropped twice. -/
theorem fresh_fresh (taken : List ActivityKey) (as : List Activity) :
    fresh taken (fresh taken as) = fresh taken as := by
  induction as generalizing taken with
  | nil => rfl
  | cons b as ih =>
    rw [fresh]
    split
    · exact ih taken
    · rename_i hb
      rw [fresh, if_neg hb, ih]

theorem fresh_eq_nil (h : ∀ a ∈ as, a.key ∈ taken) : fresh taken as = [] := by
  rw [List.eq_nil_iff_forall_not_mem]
  intro a ha
  obtain ⟨hmem, hk⟩ := mem_of_mem_fresh ha
  exact hk (h a hmem)

/-- Activities whose keys are taken make no difference inside a list. -/
theorem fresh_without (h : ∀ a ∈ bs, a.key ∈ taken) (as cs : List Activity) :
    fresh taken (as ++ (bs ++ cs)) = fresh taken (as ++ cs) := by
  have hmiddle : fresh (taken ++ as.map key) bs = [] :=
    fresh_eq_nil fun a ha => List.mem_append_left _ (h a ha)
  have htail : fresh (taken ++ as.map key ++ bs.map key) cs = fresh (taken ++ as.map key) cs := by
    refine fresh_congr fun c _ => ?_
    rw [List.mem_append, or_iff_left_of_imp]
    intro hc
    obtain ⟨b, hb, hkey⟩ := List.mem_map.mp hc
    exact hkey ▸ List.mem_append_left _ (h b hb)
  rw [fresh_append, fresh_append, fresh_append, hmiddle, htail, List.nil_append]

/-- A key of the list is taken already, or that of a fresh activity. -/
theorem key_mem_fresh (ha : a ∈ as) : a.key ∈ taken ++ (fresh taken as).map key := by
  induction as generalizing taken with
  | nil => cases ha
  | cons b as ih =>
    unfold fresh
    split
    · rename_i hb
      rcases List.mem_cons.mp ha with rfl | ha
      · exact List.mem_append_left _ hb
      · exact ih ha
    · rw [List.map_cons, ← List.singleton_append, ← List.append_assoc]
      rcases List.mem_cons.mp ha with rfl | ha
      · exact List.mem_append_left _ (List.mem_append_right _ (List.mem_singleton_self _))
      · exact ih ha

/-- The fresh activity of a key that is not taken is the first one of that key. -/
theorem find?_fresh (h : k ∉ taken) :
    (fresh taken as).find? (·.key == k) = as.find? (·.key == k) := by
  induction as generalizing taken with
  | nil => rfl
  | cons b as ih =>
    unfold fresh
    by_cases hbk : b.key = k
    · subst hbk
      rw [if_neg h, List.find?_cons_of_pos (by simp), List.find?_cons_of_pos (by simp)]
    · rw [List.find?_cons_of_neg (by simpa using hbk)]
      split
      · exact ih h
      · rw [List.find?_cons_of_neg (by simpa using hbk)]
        refine ih fun hmem => ?_
        rcases List.mem_append.mp hmem with hmem | hmem
        · exact h hmem
        · exact hbk (List.mem_singleton.mp hmem).symm

/-- Keys stay distinct. -/
theorem nodup_append_fresh (h : taken.Nodup) : (taken ++ (fresh taken as).map key).Nodup := by
  induction as generalizing taken with
  | nil => simpa [fresh] using h
  | cons b as ih =>
    unfold fresh
    split
    · exact ih h
    · rename_i hb
      rw [List.map_cons, ← List.singleton_append, ← List.append_assoc]
      apply ih
      rw [List.nodup_append]
      refine ⟨h, by simp, ?_⟩
      intro x hx y hy hxy
      rw [List.mem_singleton] at hy
      exact hb (hy ▸ hxy ▸ hx)

end Activity

namespace Store

variable {s : Store} {as : List Activity} {a : Activity} {k : ActivityKey}

theorem keys_push (s : Store) (a : Activity) : (s.push a).keys = s.keys ++ [a.key] := by
  simp [keys, push]

/-- **What an insertion does.** -/
theorem insert_eq (s : Store) (as : List Activity) :
    s.insert as = ({ s with activities := s.activities ++ Activity.fresh s.keys as },
      (Activity.fresh s.keys as).length) := by
  induction as generalizing s with
  | nil => simp [insert, Activity.fresh]
  | cons a as ih =>
    unfold insert Activity.fresh
    split
    · exact ih s
    · rw [ih (s.push a), keys_push]
      simp [push]

theorem admits_eq (s : Store) (as : List Activity) :
    s.admits as = (Activity.fresh s.keys as).all Activity.fits := by
  induction as generalizing s with
  | nil => rfl
  | cons a as ih =>
    unfold admits Activity.fresh
    split
    · exact ih s
    · rw [ih (s.push a), keys_push, List.all_cons]

theorem keys_insert (s : Store) (as : List Activity) :
    (s.insert as).1.keys = s.keys ++ (Activity.fresh s.keys as).map Activity.key := by
  rw [insert_eq]
  exact List.map_append

/-- Distinct keys stay distinct. -/
theorem nodup_keys_insert (h : s.keys.Nodup) (as : List Activity) :
    (s.insert as).1.keys.Nodup := by
  rw [keys_insert]
  exact Activity.nodup_append_fresh h

/-- Every key of what is inserted is stored afterwards. -/
theorem key_mem_keys_insert (ha : a ∈ as) : a.key ∈ (s.insert as).1.keys := by
  rw [keys_insert]
  exact Activity.key_mem_fresh ha

theorem isSome_find?_iff : (s.find? k).isSome = true ↔ k ∈ s.keys := by
  simp only [find?, List.find?_isSome, beq_iff_eq, keys, List.mem_map]

theorem find?_eq_none_iff : s.find? k = none ↔ k ∉ s.keys := by
  rw [← isSome_find?_iff, Bool.not_eq_true, Option.isSome_eq_false_iff, Option.isNone_iff_eq_none]

/-- Under a key stands what stood there before, or else the first activity of that key. -/
theorem find?_insert (s : Store) (as : List Activity) (k : ActivityKey) :
    (s.insert as).1.find? k = (s.find? k).or (as.find? (·.key == k)) := by
  have happend : (s.insert as).1.find? k =
      (s.find? k).or ((Activity.fresh s.keys as).find? (·.key == k)) := by
    rw [insert_eq]
    exact List.find?_append
  rw [happend]
  cases hfind : s.find? k with
  | some a => rfl
  | none => rw [Activity.find?_fresh (find?_eq_none_iff.mp hfind)]

end Store
end TokenLedger
