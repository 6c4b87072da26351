import Mathlib.Order.Monotone.Basic
import Stencil.Proofs.Numeric.Vicinity

namespace Stencil.Numeric

/-!
# Integers as fractional numbers

Numbers are compared as those of the format.  Rounding an integer to the nearest of
them keeps the order: a greater integer never becomes a smaller number.  It does not keep
integers apart.  Up to `2 ^ 53` each of them is a number of the format; behind that, two may
become one.  So integers that are told apart are compared as integers, and those that are
not count as equal.
-/

-- Powers of numbers are those of the core library, whatever else is imported.
attribute [local instance (high)] instPowNat

/-! ## Rounding keeps the order -/

theorem le_divideNearest (num den : Nat) : num / den ≤ divideNearest num den := by
  rcases divideNearest_eq_or num den with same | next
  · exact same.ge
  · rw [next]
    exact Nat.le_succ _

theorem divideNearest_le (num den : Nat) : divideNearest num den ≤ num / den + 1 := by
  rcases divideNearest_eq_or num den with same | next
  · rw [same]
    exact Nat.le_succ _
  · exact next.le

/-- On one grid, a greater number has a greater or the same neighbour. -/
theorem divideNearest_mono {num other den : Nat} (less : num ≤ other) :
    divideNearest num den ≤ divideNearest other den := by
  rcases Nat.lt_or_eq_of_le (Nat.div_le_div_right (c := den) less) with below | same
  · calc divideNearest num den ≤ num / den + 1 := divideNearest_le num den
      _ ≤ other / den := below
      _ ≤ divideNearest other den := le_divideNearest other den
  · -- Both lie between the same neighbours, so the remainders decide.
    have remainders : num % den ≤ other % den := by
      have whole := Nat.div_add_mod num den
      have otherWhole := Nat.div_add_mod other den
      rw [same] at whole
      omega
    simp only [divideNearest, same]
    split
    · split
      · exact Nat.le_refl _
      · exact Nat.le_succ _
    · next up =>
      rw [if_neg]
      simp only [Bool.or_eq_true, Bool.and_eq_true, decide_eq_true_eq, beq_iff_eq] at up ⊢
      omega

namespace Binary64

theorem roundUnits_one (n : Nat) :
    roundUnits n 1 = divideNearest n (2 ^ excessBits n) * 2 ^ excessBits n := by
  simp only [roundUnits, Nat.div_one, Nat.one_mul]

/-- What is of the format is kept. -/
theorem roundUnits_of_dvd {n : Nat} (grain : 2 ^ excessBits n ∣ n) : roundUnits n 1 = n := by
  have value : n / 2 ^ excessBits n * 2 ^ excessBits n = n := Nat.div_mul_cancel grain
  have kept := divideNearest_mul (n / 2 ^ excessBits n) (Nat.two_pow_pos (excessBits n))
  rw [value] at kept
  rw [roundUnits_one, kept, value]

/-- A number with excess bits has a significand of full length. -/
theorem pow_le_div_of_excessBits {n : Nat} (long : 0 < excessBits n) :
    2 ^ 52 ≤ n / 2 ^ excessBits n := by
  have some : n ≠ 0 := by
    rintro rfl
    exact absurd long (by decide)
  have log : 52 + excessBits n = n.log2 := by
    unfold excessBits at long ⊢
    omega
  have least : 2 ^ (52 + excessBits n) ≤ n := by
    rw [log]
    exact Nat.log2_self_le some
  rw [Nat.pow_add] at least
  exact (Nat.le_div_iff_mul_le (Nat.two_pow_pos _)).mpr least

/-- A greater number of units is rounded to a greater or the same one. -/
theorem roundUnits_mono {n m : Nat} (less : n ≤ m) : roundUnits n 1 ≤ roundUnits m 1 := by
  rw [roundUnits_one, roundUnits_one]
  rcases Nat.lt_or_eq_of_le (excessBits_mono less) with fewer | same
  · -- The shorter significand is at most carried into the first of the next length.
    have short : divideNearest n (2 ^ excessBits n) ≤ 2 ^ 53 :=
      Nat.le_trans (divideNearest_le _ _) (div_pow_excessBits_lt n)
    have full : 2 ^ 52 ≤ divideNearest m (2 ^ excessBits m) :=
      Nat.le_trans (pow_le_div_of_excessBits (Nat.zero_lt_of_lt fewer)) (le_divideNearest _ _)
    calc divideNearest n (2 ^ excessBits n) * 2 ^ excessBits n
        ≤ 2 ^ 53 * 2 ^ excessBits n := Nat.mul_le_mul_right _ short
      _ = 2 ^ 52 * 2 ^ (excessBits n + 1) := by rw [← Nat.pow_add, ← Nat.pow_add]; congr 1; omega
      _ ≤ 2 ^ 52 * 2 ^ excessBits m :=
          Nat.mul_le_mul_left _ (Nat.pow_le_pow_right (by decide) fewer)
      _ ≤ divideNearest m (2 ^ excessBits m) * 2 ^ excessBits m := Nat.mul_le_mul_right _ full
  · rw [same]
    exact Nat.mul_le_mul_right _ (divideNearest_mono less)

/-! ## Places on the number line -/

/-- A magnitude with its sign. -/
def signed (negative : Bool) (units : Nat) : Int := if negative then -(units : Int) else units

theorem signed_natAbs (n : Int) : signed (n < 0) n.natAbs = n := by
  by_cases negative : n < 0 <;> simp only [negative, signed, decide_true, decide_false, if_true,
    Bool.false_eq_true, if_false] <;> omega

/-- Where a number lies, in units; the infinities lie where the format ends. -/
def place : Binary64 → Int
  | nan => 0
  | infinite negative => signed negative overflowUnits
  | finite negative units => signed negative units

/-- A number, finite ones being small enough for the format. -/
inductive Within : Binary64 → Prop where
  | infinite (negative : Bool) : Within (.infinite negative)
  | finite (negative : Bool) {units : Nat} (fits : units < overflowUnits) :
      Within (.finite negative units)

theorem compareSigned_eq (left right : Bool × Nat) :
    compareSigned left right = compare (signed left.1 left.2) (signed right.1 right.2) := by
  rcases left with ⟨negative, m⟩
  rcases right with ⟨other, n⟩
  cases negative <;> cases other <;> simp only [compareSigned, signed, Bool.false_eq_true, if_false,
    if_true, compare, compareOfLessAndEq] <;> grind

/-- The infinities lie beyond everything finite. -/
theorem signed_bounds (negative : Bool) {units limit : Nat} (fits : units < limit) :
    signed true limit < signed negative units ∧ signed negative units < signed false limit := by
  cases negative <;> simp only [signed, Bool.false_eq_true, if_false, if_true] <;> omega

theorem signed_injective {negative other : Bool} {m n : Nat} (positive : negative = true → 0 < m)
    (alsoPositive : other = true → 0 < n) (same : signed negative m = signed other n) :
    negative = other ∧ m = n := by
  cases negative with
  | false =>
    cases other with
    | false => exact ⟨rfl, Int.ofNat.inj same⟩
    | true =>
      have some := alsoPositive rfl
      simp only [signed, Bool.false_eq_true, if_false, if_true] at same
      omega
  | true =>
    have some := positive rfl
    cases other with
    | false =>
      simp only [signed, Bool.false_eq_true, if_false, if_true] at same
      omega
    | true => exact ⟨rfl, Int.ofNat.inj (Int.neg_inj.mp same)⟩

/-- Numbers are compared by their places. -/
theorem compare?_eq_place {x y : Binary64} (within : Within x) (alsoWithin : Within y) :
    x.compare? y = some (compare x.place y.place) := by
  cases within with
  | infinite negative =>
    cases alsoWithin with
    | infinite other =>
      have positive := signed_bounds false overflowUnits_pos
      refine congrArg some ?_
      cases negative with
      | false =>
        cases other with
        | false => exact (compare_eq_iff_eq.mpr rfl).symm
        | true => exact (compare_gt_iff_gt.mpr (positive.1.trans positive.2)).symm
      | true =>
        cases other with
        | false => exact (compare_lt_iff_lt.mpr (positive.1.trans positive.2)).symm
        | true => exact (compare_eq_iff_eq.mpr rfl).symm
    | finite other fits =>
      refine congrArg some ?_
      cases negative with
      | false => exact (compare_gt_iff_gt.mpr (signed_bounds other fits).2).symm
      | true => exact (compare_lt_iff_lt.mpr (signed_bounds other fits).1).symm
  | finite negative fits =>
    cases alsoWithin with
    | infinite other =>
      refine congrArg some ?_
      cases other with
      | false => exact (compare_lt_iff_lt.mpr (signed_bounds negative fits).2).symm
      | true => exact (compare_gt_iff_gt.mpr (signed_bounds negative fits).1).symm
    | finite other otherFits => exact congrArg some (compareSigned_eq _ _)

/-! ## The number nearest to an integer -/

/-- How far from zero the number nearest to an integer lies. -/
def magnitude (n : Nat) : Nat := roundUnits (n * unitsPerOne) 1

theorem magnitude_mono {n m : Nat} (less : n ≤ m) : magnitude n ≤ magnitude m :=
  roundUnits_mono (Nat.mul_le_mul_right _ less)

/-- One is a power of two, far from where the format ends. -/
theorem unitsPerOne_eq_pow :
    ∃ bits : Nat, unitsPerOne = 2 ^ bits ∧ 2 ^ 53 * 2 ^ bits < overflowUnits := by
  have below : ∀ shift limit : Nat, 53 + shift < limit → 2 ^ 53 * 2 ^ shift < 2 ^ limit := by
    intro shift limit room
    rw [← Nat.pow_add]
    exact Nat.pow_lt_pow_right (by decide) room
  refine ⟨1074, unitsPerOne.eq_def, ?_⟩
  rw [overflowUnits]
  exact below 1074 2098 (by decide)

theorem unitsPerOne_pos : 0 < unitsPerOne := by
  rcases unitsPerOne_eq_pow with ⟨bits, scale, -⟩
  rw [scale]
  exact Nat.two_pow_pos bits

/-- Up to `2 ^ 53`, integers are numbers of the format. -/
theorem magnitude_of_le {n : Nat} (small : n ≤ 2 ^ 53) : magnitude n = n * unitsPerOne := by
  refine roundUnits_of_dvd ?_
  rcases unitsPerOne_eq_pow with ⟨bits, scale, -⟩
  rw [scale]
  exact pow_excessBits_dvd small bits

theorem magnitude_pos {n : Nat} (positive : 0 < n) : 0 < magnitude n := by
  have one : magnitude 1 = unitsPerOne := by rw [magnitude_of_le (by decide), Nat.one_mul]
  have least := magnitude_mono positive
  rw [one] at least
  exact Nat.lt_of_lt_of_le unitsPerOne_pos least

theorem ofInt_eq (n : Int) : ofInt n =
    if magnitude n.natAbs < overflowUnits then .finite (n < 0) (magnitude n.natAbs)
    else .infinite (n < 0) := rfl

theorem within_ofInt (n : Int) : Within (ofInt n) := by
  rw [ofInt_eq]
  split
  · next fits => exact .finite _ fits
  · exact .infinite _

theorem place_ofInt (n : Int) :
    (ofInt n).place = signed (n < 0) (min (magnitude n.natAbs) overflowUnits) := by
  rw [ofInt_eq]
  split
  · next fits => rw [Nat.min_eq_left fits.le, place]
  · next beyond => rw [Nat.min_eq_right (Nat.le_of_not_lt beyond), place]

/-- A greater integer lies at a greater place or the same. -/
theorem place_ofInt_mono {a b : Int} (less : a ≤ b) : (ofInt a).place ≤ (ofInt b).place := by
  rw [place_ofInt, place_ofInt]
  by_cases negative : a < 0
  · by_cases alsoNegative : b < 0
    · have nearer : magnitude b.natAbs ≤ magnitude a.natAbs := magnitude_mono (by omega)
      simp only [negative, alsoNegative, signed, decide_true, if_true]
      omega
    · simp only [negative, alsoNegative, signed, decide_true, decide_false, if_true,
        Bool.false_eq_true, if_false]
      omega
  · have alsoPositive : ¬ b < 0 := by omega
    have farther : magnitude a.natAbs ≤ magnitude b.natAbs := magnitude_mono (by omega)
    simp only [negative, alsoPositive, signed, decide_false, Bool.false_eq_true, if_false]
    omega

/-- Small integers lie at their own places. -/
theorem place_ofInt_of_le {n : Int} (small : n.natAbs ≤ 2 ^ 53) :
    (ofInt n).place = n * unitsPerOne := by
  have fits : n.natAbs * unitsPerOne < overflowUnits := by
    rcases unitsPerOne_eq_pow with ⟨bits, scale, room⟩
    rw [scale]
    exact Nat.lt_of_le_of_lt (Nat.mul_le_mul_right _ small) room
  have scaled : ∀ negative : Bool, signed negative (n.natAbs * unitsPerOne) =
      signed negative n.natAbs * unitsPerOne := by
    intro negative
    cases negative with
    | false => exact Int.natCast_mul _ _
    | true => simp only [signed, if_true, Int.natCast_mul, Int.neg_mul]
  rw [place_ofInt, magnitude_of_le small, Nat.min_eq_left fits.le, scaled, signed_natAbs]

/-- Numbers at the same place are the same, zero having one sign. -/
theorem ofInt_eq_of_place_eq {a b : Int} (same : (ofInt a).place = (ofInt b).place) :
    ofInt a = ofInt b := by
  have positive : ∀ {n : Int}, decide (n < 0) = true →
      0 < min (magnitude n.natAbs) overflowUnits := by
    intro n negative
    have some := of_decide_eq_true negative
    exact lt_min (magnitude_pos (by omega)) overflowUnits_pos
  rw [place_ofInt, place_ofInt] at same
  rcases signed_injective positive positive same with ⟨signs, distances⟩
  rw [ofInt_eq, ofInt_eq, signs]
  by_cases fits : magnitude a.natAbs < overflowUnits
  · have units : magnitude a.natAbs = magnitude b.natAbs := by omega
    rw [units]
  · have beyond : ¬ magnitude b.natAbs < overflowUnits := by omega
    rw [if_neg fits, if_neg beyond]

/-- Integers are compared as integers if they are told apart, and else count as equal. -/
theorem compare?_ofInt (a b : Int) :
    (ofInt a).compare? (ofInt b) = some (if ofInt a = ofInt b then .eq else compare a b) := by
  rw [compare?_eq_place (within_ofInt a) (within_ofInt b)]
  refine congrArg some ?_
  split
  · next same =>
    rw [same]
    exact compare_eq_iff_eq.mpr rfl
  · next apart =>
    have places : (ofInt a).place ≠ (ofInt b).place := fun same => apart (ofInt_eq_of_place_eq same)
    rcases lt_trichotomy a b with less | same | greater
    · rw [compare_lt_iff_lt.mpr less, compare_lt_iff_lt]
      exact lt_of_le_of_ne (place_ofInt_mono less.le) places
    · exact absurd (congrArg ofInt same) apart
    · rw [compare_gt_iff_gt.mpr greater, compare_gt_iff_gt]
      exact lt_of_le_of_ne (place_ofInt_mono greater.le) places.symm

/-! ## Integers that are told apart -/

/-- Two integers that are the same, or become different numbers. -/
def Distinguished (a b : Int) : Prop := a = b ∨ ofInt a ≠ ofInt b

/-- An integer below `2 ^ 53` keeps its place between its neighbours. -/
theorem place_ofInt_lt {a b : Int} (less : a < b)
    (small : a.natAbs < 2 ^ 53 ∨ b.natAbs < 2 ^ 53) : (ofInt a).place < (ofInt b).place := by
  have positive : (0 : Int) < unitsPerOne := Int.natCast_pos.mpr unitsPerOne_pos
  rcases small with small | small
  · calc (ofInt a).place = a * unitsPerOne := place_ofInt_of_le small.le
      _ < (a + 1) * unitsPerOne := Int.mul_lt_mul_of_pos_right (by omega) positive
      _ = (ofInt (a + 1)).place := (place_ofInt_of_le (by omega)).symm
      _ ≤ (ofInt b).place := place_ofInt_mono less
  · calc (ofInt a).place ≤ (ofInt (b - 1)).place := place_ofInt_mono (by omega)
      _ = (b - 1) * unitsPerOne := place_ofInt_of_le (by omega)
      _ < b * unitsPerOne := Int.mul_lt_mul_of_pos_right (by omega) positive
      _ = (ofInt b).place := (place_ofInt_of_le small.le).symm

/-- An integer below `2 ^ 53` is told apart from all others. -/
theorem distinguished_of_small {a b : Int} (small : a.natAbs < 2 ^ 53 ∨ b.natAbs < 2 ^ 53) :
    Distinguished a b := by
  rcases lt_trichotomy a b with less | same | greater
  · exact .inr fun equal => (place_ofInt_lt less small).ne (congrArg place equal)
  · exact .inl same
  · exact .inr fun equal => (place_ofInt_lt greater small.symm).ne' (congrArg place equal)

end Binary64

end Stencil.Numeric
