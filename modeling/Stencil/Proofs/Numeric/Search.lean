import Mathlib.Algebra.Order.Field.Power
import Mathlib.Tactic.FieldSimp
import Mathlib.Tactic.Positivity
import Mathlib.Tactic.Push
import Stencil.Proofs.Numeric.Vicinity

namespace Stencil.Numeric

open Binary64 (Representable unitsPerOne)

/-!
# Seventeen digits always suffice

The search for the shortest decimal goes through grids of decimals, each ten times
as fine as the one before.  On the seventeenth, the steps are so short compared
with the vicinity of the number that the nearest decimal lies inside.  So the
search ends with a decimal that reads back as the number.
-/

theorem unitsPerOne_pos : 0 < unitsPerOne := by
  unfold unitsPerOne
  positivity

/-- The distance between decimals of a grid, in quarters of a unit. -/
def gridStep (grid : Int) : ℚ := 4 * unitsPerOne * (10 : ℚ) ^ grid

theorem gridStep_pos (grid : Int) : 0 < gridStep grid := by
  have units : (0 : ℚ) < unitsPerOne := by exact_mod_cast unitsPerOne_pos
  unfold gridStep
  positivity

/-- An integer power of ten as a quotient of natural ones. -/
theorem ten_zpow (exponent : Int) :
    ((10 ^ exponent.toNat : Nat) : ℚ) =
      (10 : ℚ) ^ exponent * ((10 ^ (-exponent).toNat : Nat) : ℚ) := by
  push_cast
  rcases le_total 0 exponent with positive | negative
  · have none : (-exponent).toNat = 0 := by omega
    rw [none, pow_zero, mul_one]
    conv_rhs => rw [← Int.toNat_of_nonneg positive]
    rw [zpow_natCast]
  · have none : exponent.toNat = 0 := by omega
    rw [none, pow_zero]
    have cast : exponent = -((-exponent).toNat : Int) := by omega
    conv_rhs => rw [cast, neg_neg, Int.toNat_natCast, zpow_neg, zpow_natCast]
    rw [inv_mul_cancel₀ (by positivity)]

theorem cast_gridStep (grid : Int) :
    ((4 * unitsPerOne * 10 ^ grid.toNat : Nat) : ℚ) =
      gridStep grid * ((10 ^ (-grid).toNat : Nat) : ℚ) := by
  have power := ten_zpow grid
  unfold gridStep
  rw [Nat.cast_mul, power]
  push_cast
  ring

/-! ## Decimals of one grid -/

/-- Whether a multiple of a grid lies between the midpoints. -/
def insideGrid (near : Vicinity) (grid : Int) (n : Nat) : Bool :=
  let step := 4 * unitsPerOne * 10 ^ grid.toNat
  let scale := 10 ^ (-grid).toNat
  if near.closed then near.below * scale ≤ n * step && n * step ≤ near.above * scale
  else near.below * scale < n * step && n * step < near.above * scale

/-- The greatest multiple of a grid that is not above the number. -/
def gridFloor (near : Vicinity) (grid : Int) : Nat :=
  near.value * 10 ^ (-grid).toNat / (4 * unitsPerOne * 10 ^ grid.toNat)

theorem scale_pos (grid : Int) : (0 : ℚ) < ((10 ^ (-grid).toNat : Nat) : ℚ) := by
  push_cast
  positivity

theorem le_grid_iff {bound n : Nat} {grid : Int} :
    bound * 10 ^ (-grid).toNat ≤ n * (4 * unitsPerOne * 10 ^ grid.toNat) ↔
      (bound : ℚ) ≤ n * gridStep grid := by
  rw [← Nat.cast_le (α := ℚ), Nat.cast_mul, Nat.cast_mul n, cast_gridStep, ← mul_assoc]
  exact mul_le_mul_iff_left₀ (scale_pos grid)

theorem grid_le_iff {bound n : Nat} {grid : Int} :
    n * (4 * unitsPerOne * 10 ^ grid.toNat) ≤ bound * 10 ^ (-grid).toNat ↔
      n * gridStep grid ≤ (bound : ℚ) := by
  rw [← Nat.cast_le (α := ℚ), Nat.cast_mul, Nat.cast_mul bound, cast_gridStep, ← mul_assoc]
  exact mul_le_mul_iff_left₀ (scale_pos grid)

theorem insideGrid_iff {near : Vicinity} {grid : Int} {n : Nat} :
    insideGrid near grid n = true ↔ near.Reads (n * gridStep grid) := by
  unfold insideGrid Vicinity.Reads
  simp only
  split
  · rw [Bool.and_eq_true, decide_eq_true_iff, decide_eq_true_iff, le_grid_iff, grid_le_iff]
  · rw [Bool.and_eq_true, decide_eq_true_iff, decide_eq_true_iff, ← not_le, ← not_le, grid_le_iff,
      le_grid_iff, not_le, not_le]

theorem candidate?_eq (ties : TieRule) (near : Vicinity) (grid : Int) :
    candidate? ties near grid =
      match insideGrid near grid (gridFloor near grid),
          insideGrid near grid (gridFloor near grid + 1) with
      | false, false => none
      | true, false => some (gridFloor near grid)
      | false, true => some (gridFloor near grid + 1)
      | true, true =>
        match compare (2 * (near.value * 10 ^ (-grid).toNat))
            ((gridFloor near grid + (gridFloor near grid + 1)) *
              (4 * unitsPerOne * 10 ^ grid.toNat)) with
        | .lt => some (gridFloor near grid)
        | .gt => some (gridFloor near grid + 1)
        | .eq =>
          match ties with
          | .away => some (gridFloor near grid + 1)
          | .even => some (if gridFloor near grid % 2 == 0 then gridFloor near grid
              else gridFloor near grid + 1) := by
  unfold candidate? insideGrid gridFloor
  generalize unitsPerOne = units
  rfl

/-- A candidate reads back as the number. -/
theorem reads_of_candidate? {ties : TieRule} {near : Vicinity} {grid : Int} {n : Nat}
    (found : candidate? ties near grid = some n) : near.Reads (n * gridStep grid) := by
  rw [← insideGrid_iff]
  rw [candidate?_eq] at found
  cases low : insideGrid near grid (gridFloor near grid) <;>
    cases high : insideGrid near grid (gridFloor near grid + 1) <;> simp only [low, high] at found
  · cases found
  · cases found
    exact high
  · cases found
    exact low
  · split at found
    · cases found
      exact low
    · cases found
      exact high
    · split at found
      · cases found
        exact high
      · split at found
        · cases found
          exact low
        · cases found
          exact high

/-- There is a candidate if one of the neighbours of the number on the grid reads
back as it. -/
theorem isSome_candidate? {ties : TieRule} {near : Vicinity} {grid : Int}
    (inside : near.Reads (gridFloor near grid * gridStep grid) ∨
      near.Reads ((gridFloor near grid + 1 : Nat) * gridStep grid)) :
    (candidate? ties near grid).isSome := by
  rw [← insideGrid_iff, ← insideGrid_iff] at inside
  rw [candidate?_eq]
  cases low : insideGrid near grid (gridFloor near grid) <;>
    cases high : insideGrid near grid (gridFloor near grid + 1) <;> simp only [low, high] at inside ⊢
  · simp at inside
  · rfl
  · rfl
  · split
    · rfl
    · rfl
    · split <;> rfl

theorem gridFloor_le (near : Vicinity) (grid : Int) :
    gridFloor near grid * gridStep grid ≤ near.value := by
  rw [← grid_le_iff]
  exact Nat.div_mul_le_self _ _

theorem lt_gridFloor (near : Vicinity) (grid : Int) :
    (near.value : ℚ) < (gridFloor near grid + 1 : Nat) * gridStep grid := by
  rw [← not_le, ← grid_le_iff, not_le, Nat.mul_comm (gridFloor near grid + 1)]
  refine Nat.lt_mul_div_succ _ ?_
  have := unitsPerOne_pos
  positivity

/-! ## The magnitude of a number -/

theorem powerAtMost_iff {exponent : Int} {units : Nat} :
    powerAtMost exponent units = true ↔ (unitsPerOne : ℚ) * (10 : ℚ) ^ exponent ≤ units := by
  unfold powerAtMost
  rw [decide_eq_true_iff, ← Nat.cast_le (α := ℚ), Nat.cast_mul, Nat.cast_mul units,
    ten_zpow exponent, ← mul_assoc]
  exact mul_le_mul_iff_left₀ (scale_pos exponent)

theorem powerAtMost_mono {exponent : Int} {units more : Nat} (less : units ≤ more)
    (atMost : powerAtMost exponent units = true) : powerAtMost exponent more = true := by
  rw [powerAtMost_iff] at atMost ⊢
  exact atMost.trans (by exact_mod_cast less)

/-- The least estimate holds for powers of two. -/
theorem estimate_pow_two {k : Nat} (short : k < 2098) :
    powerAtMost (((k : Int) - 1074) * 30103 / 100000 - 1) (2 ^ k) = true := by
  have all : (List.range 2098).all (fun k =>
      powerAtMost (((k : Int) - 1074) * 30103 / 100000 - 1) (2 ^ k)) = true := by
    decide +kernel
  exact List.all_eq_true.mp all k (List.mem_range.mpr short)

/-- The exponent of a number is not too great. -/
theorem powerAtMost_decimalExponent {units : Nat} (representable : Representable units)
    (positive : 0 < units) : powerAtMost (decimalExponent units) units = true := by
  have bound := representable.bound
  unfold Binary64.overflowUnits at bound
  have short : units.log2 < 2098 := (Nat.log2_lt (Nat.ne_of_gt positive)).mpr bound
  unfold decimalExponent
  simp only
  split
  · assumption
  · split
    · assumption
    · exact powerAtMost_mono (Nat.log2_self_le (Nat.ne_of_gt positive))
        (estimate_pow_two short)

/-! ## The search -/

/-- What the search finds, given that one of the grids has a candidate. -/
theorem searchGrids_eq {ties : TieRule} {near : Vicinity} {exponent : Int} {enough : Nat}
    (found : (candidate? ties near (exponent - enough)).isSome) :
    ∀ {fuel fine : Nat}, fine ≤ enough → enough < fine + fuel →
      ∃ n grid, searchGrids ties near exponent fine fuel = (n, grid) ∧
        candidate? ties near grid = some n := by
  intro fuel
  induction fuel with
  | zero =>
    intro fine least impossible
    omega
  | succ fuel ih =>
    intro fine least within
    unfold searchGrids
    simp only
    cases candidate : candidate? ties near (exponent - fine) with
    | some n => exact ⟨n, _, rfl, candidate⟩
    | none =>
      have further : fine ≠ enough := by
        rintro rfl
        rw [candidate] at found
        cases found
      exact ih (by omega) (by omega)

/-- Sixteen grids below its magnitude, the steps are short compared with a
number. -/
theorem gridStep_le {units : Nat} (representable : Representable units) (positive : 0 < units) :
    gridStep (decimalExponent units - 16) * 10 ^ 16 ≤ 4 * units := by
  have magnitude := powerAtMost_iff.mp (powerAtMost_decimalExponent representable positive)
  have power : (10 : ℚ) ^ (decimalExponent units - 16) * 10 ^ 16 =
      (10 : ℚ) ^ decimalExponent units := by
    rw [← zpow_natCast (10 : ℚ) 16, ← zpow_add₀ (by norm_num), Nat.cast_ofNat, sub_add_cancel]
  unfold gridStep
  rw [mul_assoc, power, mul_assoc]
  exact mul_le_mul_of_nonneg_left magnitude (by norm_num)

/-- A number near enough to the middle of a vicinity reads back as it. -/
theorem reads_near {units significand bits : Nat} (parts : Significand units significand bits)
    (positive : 0 < units) {x : ℚ} {half : ℚ}
    (short : half < if significand = 2 ^ 52 then (2 ^ bits : ℚ) else 2 * 2 ^ bits)
    (notBelow : 4 * (units : ℚ) - half ≤ x) (notAbove : x ≤ 4 * units + half) :
    (Vicinity.of units).Reads x := by
  classical
  have grain : (0 : ℚ) < 2 ^ bits := by positivity
  have atLeast : 2 ^ bits ≤ units := by
    rw [parts.value]
    refine Nat.le_mul_of_pos_left _ (Nat.pos_of_ne_zero fun none => ?_)
    rw [parts.value, none, Nat.zero_mul] at positive
    exact Nat.lt_irrefl _ positive
  have lower : ((Vicinity.of units).below : ℚ) < x := by
    rw [Vicinity.of_eq parts]
    simp only
    by_cases narrow : Narrow significand bits
    · rw [if_pos narrow, Nat.cast_sub (by omega)]
      rw [if_pos narrow.1] at short
      push_cast
      linarith
    · rw [if_neg narrow, Nat.cast_sub (by omega)]
      have wide : half < 2 * 2 ^ bits := by
        split at short <;> linarith
      push_cast
      linarith
  have upper : x < (Vicinity.of units).above := by
    rw [Vicinity.of_eq parts]
    have wide : half < 2 * 2 ^ bits := by
      split at short <;> linarith
    push_cast
    linarith
  unfold Vicinity.Reads
  split
  · exact ⟨lower.le, upper.le⟩
  · exact ⟨lower, upper⟩

/-- The seventeenth grid has a candidate. -/
theorem candidate?_seventeenth (ties : TieRule) {units : Nat}
    (representable : Representable units) (positive : 0 < units) :
    (candidate? ties (.of units) (decimalExponent units - 16)).isSome := by
  obtain ⟨significand, bits, parts⟩ := exists_significand representable positive
  have fine := gridStep_le representable positive
  have floor := gridFloor_le (.of units) (decimalExponent units - 16)
  have ceiling := lt_gridFloor (.of units) (decimalExponent units - 16)
  have middle : (((Vicinity.of units).value : Nat) : ℚ) = 4 * units := by
    simp [Vicinity.of]
  rw [middle] at floor ceiling
  have stepPositive := gridStep_pos (decimalExponent units - 16)
  generalize decimalExponent units - 16 = grid at *
  have value : (units : ℚ) = significand * 2 ^ bits := by
    rw [parts.value]
    push_cast
    rfl
  have grain : (0 : ℚ) < 2 ^ bits := by positivity
  have short : gridStep grid / 2 < if significand = 2 ^ 52 then (2 ^ bits : ℚ) else 2 * 2 ^ bits := by
    split
    · next power =>
      have exact : (units : ℚ) = 2 ^ 52 * 2 ^ bits := by
        rw [value, power]
        push_cast
        rfl
      rw [exact] at fine
      norm_num at fine
      linarith
    · have below : (significand : ℚ) < 2 ^ 53 := by exact_mod_cast parts.short
      have less : (units : ℚ) < 2 ^ 53 * 2 ^ bits := by
        rw [value]
        exact mul_lt_mul_of_pos_right below grain
      norm_num at fine less
      linarith
  refine isSome_candidate? ?_
  by_cases near : 4 * (units : ℚ) - gridFloor (.of units) grid * gridStep grid ≤ gridStep grid / 2
  · exact .inl (reads_near parts positive short (by linarith) (by linarith))
  · refine .inr (reads_near parts positive short ?_ ?_)
    · linarith
    · push_cast
      push_cast at ceiling
      linarith

/-- The shortest decimal of a number reads back as it. -/
theorem shortest_reads (ties : TieRule) {units : Nat} (representable : Representable units)
    (positive : 0 < units) :
    ∃ n grid, shortest ties units =
        ⟨significantDigits n, grid + ((Nat.toDigits 10 n).length : Int) - 1⟩ ∧
      (Vicinity.of units).Reads (n * gridStep grid) := by
  obtain ⟨n, grid, searched, found⟩ := searchGrids_eq
    (candidate?_seventeenth ties representable positive) (Nat.zero_le 16)
    (by decide : 16 < 0 + 17)
  refine ⟨n, grid, ?_, reads_of_candidate? found⟩
  unfold shortest
  rw [searched]

end Stencil.Numeric
