namespace Stencil.Numeric

/-!
# Rounding a quotient

All inexact arithmetic of the library is one operation: a quotient of natural
numbers is replaced by a neighbouring natural number, the nearer one, and where
both are equally near, the even one.
-/

/-- The natural number nearest to `num / den`, a half going to the even side. -/
def divideNearest (num den : Nat) : Nat :=
  let quotient := num / den
  let twice := 2 * (num % den)
  if twice < den || (twice == den && quotient % 2 == 0) then quotient else quotient + 1

/-- A quotient without remainder is kept. -/
theorem divideNearest_mul (n : Nat) {den : Nat} (positive : 0 < den) :
    divideNearest (n * den) den = n := by
  simp [divideNearest, Nat.mul_div_cancel n positive, positive]

/-- Rounding never leaves the two neighbours of the quotient. -/
theorem divideNearest_eq_or (num den : Nat) :
    divideNearest num den = num / den ∨ divideNearest num den = num / den + 1 := by
  simp only [divideNearest]
  split
  · exact .inl rfl
  · exact .inr rfl

end Stencil.Numeric
