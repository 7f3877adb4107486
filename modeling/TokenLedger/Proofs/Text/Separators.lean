/-
# Texts joined by a separator

Two texts with a separator between them are one text. Where the separator stands in it can be told if
one of the texts holds none: what comes before the first separator, and what comes behind the last one,
is one text only. And if a text that holds no separator starts another one, every separator of that
one stands behind it (`exists_append_of_notMem`).

Key theorems: `Text.exists_append_of_notMem`, `Text.append_sep_inj_left`, `Text.append_sep_inj_right`.
-/
import Mathlib.Data.List.Basic

namespace TokenLedger
namespace Text

variable {sep : Char} {xs ys vs ws : List Char}

/-- A separator stands behind a text that holds none. -/
theorem exists_append_of_notMem (hx : sep ∉ xs) (h : xs ++ vs = ys ++ sep :: ws) :
    ∃ as, ys = xs ++ as ∧ vs = as ++ sep :: ws := by
  rcases List.append_eq_append_iff.mp h with ⟨as, hys, hvs⟩ | ⟨as, hxs, hws⟩
  · exact ⟨as, hys, hvs⟩
  · cases as with
    | nil => exact ⟨[], by rw [hxs, List.append_nil, List.append_nil], hws.symm⟩
    | cons a as =>
      have hsep : sep = a := List.head_eq_of_cons_eq hws
      exact absurd (by rw [hxs, ← hsep]; simp) hx

/-- Before the first separator there is one text only. -/
theorem append_sep_inj_left (hx : sep ∉ xs) (hy : sep ∉ ys)
    (h : xs ++ sep :: vs = ys ++ sep :: ws) : xs = ys ∧ vs = ws := by
  obtain ⟨as, hys, hvs⟩ := exists_append_of_notMem hx h
  cases as with
  | nil => exact ⟨by rw [hys, List.append_nil], List.tail_eq_of_cons_eq hvs⟩
  | cons a as =>
    have hsep : sep = a := List.head_eq_of_cons_eq hvs
    exact absurd (by rw [hys, ← hsep]; simp) hy

/-- Behind the last separator there is one text only. -/
theorem append_sep_inj_right (hv : sep ∉ vs) (hw : sep ∉ ws)
    (h : xs ++ sep :: vs = ys ++ sep :: ws) : xs = ys ∧ vs = ws := by
  have hreverse : vs.reverse ++ sep :: xs.reverse = ws.reverse ++ sep :: ys.reverse := by
    simpa using congrArg List.reverse h
  obtain ⟨hvs, hxs⟩ := append_sep_inj_left (by simpa using hv) (by simpa using hw) hreverse
  exact ⟨List.reverse_injective hxs, List.reverse_injective hvs⟩

end Text
end TokenLedger
