/-
# Rounding a quotient

A quotient of naturals rounded to the nearest natural. A half goes to the even neighbour, or to the
greater one.

Key definitions: `roundHalfEven`, `roundHalfUp`.
Key theorem: `roundHalfEven_near`.
-/

namespace TokenLedger

/-- The natural nearest to `num / den`, the even one of two. -/
def roundHalfEven (num den : Nat) : Nat :=
  let q := num / den
  let twice := 2 * (num % den)
  if twice < den then q
  else if den < twice then q + 1
  else if q % 2 = 0 then q else q + 1

/-- The natural nearest to `num / den`, the greater one of two. -/
def roundHalfUp (num den : Nat) : Nat :=
  (2 * num + den) / (2 * den)

/-- The rounded quotient is within half a unit of the exact one. -/
theorem roundHalfEven_near (num den : Nat) (h : 0 < den) :
    2 * (den * roundHalfEven num den) ≤ 2 * num + den ∧
      2 * num ≤ 2 * (den * roundHalfEven num den) + den := by
  have e : den * (num / den) + num % den = num := Nat.div_add_mod num den
  have l : num % den < den := Nat.mod_lt _ h
  simp only [roundHalfEven]
  generalize num / den = q at *
  generalize num % den = r at *
  have hs : den * (q + 1) = den * q + den := by rw [Nat.mul_add, Nat.mul_one]
  split
  · omega
  · split
    · omega
    · split <;> omega

end TokenLedger
