import Mathlib.Data.Nat.Log
import Mathlib.Tactic.Positivity
import Stencil.Value

namespace Stencil.Numeric.Binary64

/-!
# Numbers of the format

Not every number of units is one of the format: a significand has 53 bits, so a
longer number of units ends in as many zero bits as it is longer.  What rounding
makes is of the format, and so is every number that was read.
-/

/-- A number of units that is one of the format. -/
structure Representable (units : Nat) : Prop where
  grain : 2 ^ excessBits units ∣ units
  bound : units < overflowUnits

theorem excessBits_of_lt {units bits : Nat} (short : units < 2 ^ (bits + 53)) :
    excessBits units ≤ bits := by
  unfold excessBits
  by_cases zero : units = 0
  · subst zero
    simp
  · have := (Nat.log2_lt zero).mpr short
    omega

/-- The significand of a quotient has no more than 53 bits. -/
theorem div_pow_excessBits_lt (n : Nat) : n / 2 ^ excessBits n < 2 ^ 53 := by
  rw [Nat.div_lt_iff_lt_mul (Nat.two_pow_pos _), ← Nat.pow_add]
  refine Nat.lt_of_lt_of_le Nat.lt_log2_self ?_
  refine Nat.pow_le_pow_right (by decide) ?_
  unfold excessBits
  omega

/-- So many zero bits behind a significand of 53 bits suffice, a carry included. -/
theorem pow_excessBits_dvd {significand : Nat} (short : significand ≤ 2 ^ 53) (bits : Nat) :
    2 ^ excessBits (significand * 2 ^ bits) ∣ significand * 2 ^ bits := by
  rcases Nat.lt_or_eq_of_le short with less | carried
  · have few : excessBits (significand * 2 ^ bits) ≤ bits := by
      refine excessBits_of_lt ?_
      rw [Nat.add_comm, Nat.pow_add]
      exact Nat.mul_lt_mul_of_pos_right less (Nat.two_pow_pos _)
    exact Nat.dvd_trans (Nat.pow_dvd_pow 2 few) (Nat.dvd_mul_left _ _)
  · -- The carry makes the significand a power of two, one bit longer.
    have few : excessBits (significand * 2 ^ bits) ≤ bits + 1 := by
      refine excessBits_of_lt ?_
      rw [carried, ← Nat.pow_add]
      exact Nat.pow_lt_pow_right (by decide) (by omega)
    refine Nat.dvd_trans (Nat.pow_dvd_pow 2 few) ?_
    rw [carried, ← Nat.pow_add]
    exact Nat.pow_dvd_pow 2 (by omega)

/-- Rounding gives a number of the format unless it is too large. -/
theorem representable_roundUnits {num den : Nat} (fits : roundUnits num den < overflowUnits) :
    Representable (roundUnits num den) := by
  refine ⟨?_, fits⟩
  unfold roundUnits
  let bits := excessBits (num / den)
  let significand := divideNearest num (den * 2 ^ bits)
  show 2 ^ excessBits (significand * 2 ^ bits) ∣ significand * 2 ^ bits
  have quotient : num / (den * 2 ^ bits) < 2 ^ 53 := by
    rw [← Nat.div_div_eq_div_mul]
    exact div_pow_excessBits_lt _
  have short : significand ≤ 2 ^ 53 := by
    rcases divideNearest_eq_or num (den * 2 ^ bits) with same | same
    · show divideNearest num (den * 2 ^ bits) ≤ 2 ^ 53
      rw [same]
      exact Nat.le_of_lt quotient
    · show divideNearest num (den * 2 ^ bits) ≤ 2 ^ 53
      rw [same]
      exact quotient
  exact pow_excessBits_dvd short bits

theorem overflowUnits_pos : 0 < overflowUnits := by
  unfold overflowUnits
  positivity

theorem representable_zero : Representable 0 := ⟨Nat.dvd_zero _, overflowUnits_pos⟩

theorem representable_of_ofUnits {negative sign : Bool} {num den units : Nat}
    (made : ofUnits negative num den = .finite sign units) : Representable units := by
  unfold ofUnits at made
  simp only at made
  split at made
  · next fits =>
    cases made
    exact representable_roundUnits fits
  · cases made

theorem representable_of_ofDecimal {negative sign : Bool} {significand : Nat} {exponent : Int}
    {units : Nat} (made : ofDecimal negative significand exponent = .finite sign units) :
    Representable units := by
  unfold ofDecimal at made
  simp only at made
  split at made
  · cases made
    exact representable_zero
  · split at made
    · cases made
    · split at made
      · cases made
        exact representable_zero
      · exact representable_of_ofUnits made

/-- A finite number that was read is one of the format. -/
theorem representable_of_readBinary64? {text : List Char} {sign : Bool} {units : Nat}
    (read : readBinary64? text = some (.finite sign units)) : Representable units := by
  unfold readBinary64? at read
  simp only at read
  split at read
  · cases read
  · split at read
    · cases read
    · unfold readMagnitude? at read
      simp only at read
      -- With a point behind the whole part and without one.
      split at read
      all_goals
        split at read
        · cases read
        · obtain ⟨exponent, -, made⟩ := Option.map_eq_some_iff.mp read
          exact representable_of_ofDecimal made

end Stencil.Numeric.Binary64
