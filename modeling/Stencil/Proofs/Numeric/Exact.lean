import Stencil.Proofs.Numeric.Distinct
import Stencil.Proofs.Numeric.Nearest

namespace Stencil.Numeric

/-!
# Integers that are numbers of the format

An integer is one of the format if it has no more than 53 significant bits, whatever zero
bits follow them.  Every other integer is rounded to one of these, for far enough from zero all
numbers of the format are integers.  So the integer that is made of an integer is the nearest
one of the format, and it is the integer itself just if that is exact.
-/

-- Powers of numbers are those of the core library, whatever else is imported.
attribute [local instance (high)] instPowNat

namespace Binary64

/-! ## Significant bits -/

/-- A number with no more bits than a significand, but for zeros at its end. -/
def Exact (n : Nat) : Prop := ∃ significand bits, significand ≤ 2 ^ 53 ∧ n = significand * 2 ^ bits

theorem exact_of_le {n : Nat} (small : n ≤ 2 ^ 53) : Exact n :=
  ⟨n, 0, small, (Nat.mul_one n).symm⟩

/-- Numbers above all grains of the format are rounded to multiples of one. -/
theorem unitsPerOne_dvd_magnitude (n : Nat) : unitsPerOne ∣ magnitude n := by
  rcases unitsPerOne_eq_pow with ⟨bits, scale, -⟩
  unfold magnitude
  rw [scale]
  by_cases fine : excessBits (n * 2 ^ bits) ≤ bits
  · have grain : 2 ^ excessBits (n * 2 ^ bits) ∣ n * 2 ^ bits :=
      Nat.dvd_trans (Nat.pow_dvd_pow 2 fine) (Nat.dvd_mul_left _ _)
    rw [roundUnits_of_dvd grain]
    exact Nat.dvd_mul_left _ _
  · rw [roundUnits_one]
    exact Nat.dvd_trans (Nat.pow_dvd_pow 2 (Nat.le_of_not_le fine)) (Nat.dvd_mul_left _ _)

/-- An integer is kept by rounding just if its significant bits fit. -/
theorem magnitude_eq_iff {n : Nat} : magnitude n = n * unitsPerOne ↔ Exact n := by
  rcases unitsPerOne_eq_pow with ⟨bits, scale, -⟩
  unfold magnitude
  rw [scale]
  constructor
  · intro kept
    have quotient := div_pow_excessBits_lt (n * 2 ^ bits)
    have grain : 2 ^ excessBits (n * 2 ^ bits) ∣ n * 2 ^ bits := by
      rw [roundUnits_one] at kept
      exact Dvd.intro_left _ kept
    rcases grain with ⟨significand, value⟩
    rw [Nat.div_eq_of_eq_mul_right (Nat.two_pow_pos _) value] at quotient
    rcases Nat.le_total (excessBits (n * 2 ^ bits)) bits with fine | coarse
    · -- No bits are cut off the integer, so it is as short as its significand.
      rcases Nat.exists_eq_add_of_le fine with ⟨more, split⟩
      refine exact_of_le (Nat.le_trans ?_ quotient.le)
      have shifted : 2 ^ excessBits (n * 2 ^ bits) * significand =
          2 ^ excessBits (n * 2 ^ bits) * (n * 2 ^ more) := by
        rw [← value, Nat.mul_left_comm, ← Nat.pow_add, ← split]
      rw [Nat.eq_of_mul_eq_mul_left (Nat.two_pow_pos _) shifted]
      exact Nat.le_mul_of_pos_right n (Nat.two_pow_pos more)
    · rcases Nat.exists_eq_add_of_le coarse with ⟨more, split⟩
      refine ⟨significand, more, quotient.le, ?_⟩
      rw [split, Nat.pow_add, Nat.mul_assoc, Nat.mul_comm n] at value
      rw [Nat.eq_of_mul_eq_mul_left (Nat.two_pow_pos _) value, Nat.mul_comm]
  · rintro ⟨significand, zeros, short, rfl⟩
    refine roundUnits_of_dvd ?_
    rw [Nat.mul_assoc, ← Nat.pow_add]
    exact pow_excessBits_dvd short _

/-! ## The nearest integer of the format -/

/-- The integer that a natural number is rounded to. -/
def nearestInteger (n : Nat) : Nat := magnitude n / unitsPerOne

theorem magnitude_eq (n : Nat) : magnitude n = nearestInteger n * unitsPerOne :=
  (Nat.div_mul_cancel (unitsPerOne_dvd_magnitude n)).symm

theorem nearestInteger_eq_iff {n : Nat} : nearestInteger n = n ↔ Exact n := by
  rw [← magnitude_eq_iff, magnitude_eq, Nat.mul_left_inj unitsPerOne_pos.ne']

/-- What has 64 bits is far from where the format ends. -/
theorem magnitude_lt {n : Nat} (short : n ≤ 2 ^ 64) : magnitude n < overflowUnits := by
  have room : ∀ bits limit : Nat, 64 + bits < limit → 2 ^ 64 * 2 ^ bits < 2 ^ limit := by
    intro bits limit less
    rw [← Nat.pow_add]
    exact Nat.pow_lt_pow_right (by decide) less
  have power : magnitude (2 ^ 64) = 2 ^ 64 * unitsPerOne :=
    magnitude_eq_iff.mpr ⟨1, 64, by decide, (Nat.one_mul _).symm⟩
  refine Nat.lt_of_le_of_lt (magnitude_mono short) ?_
  rw [power, unitsPerOne, overflowUnits]
  exact room 1074 2098 (by decide)

theorem ofInt_of_le {n : Int} (short : n.natAbs ≤ 2 ^ 64) :
    ofInt n = .finite (n < 0) (nearestInteger n.natAbs * unitsPerOne) := by
  rw [ofInt_eq, if_pos (magnitude_lt short), magnitude_eq]

/-- Cutting off the fractional part of an integer leaves the nearest one of the format. -/
theorem truncate?_ofInt {n : Int} (short : n.natAbs ≤ 2 ^ 64) :
    (ofInt n).truncate? = some (signed (n < 0) (nearestInteger n.natAbs)) := by
  rw [ofInt_of_le short]
  simp only [truncate?, Nat.mul_div_cancel _ unitsPerOne_pos]
  rfl

end Binary64

/-! ## Integers with fixed places -/

/-- A point and as many zeros as there are places. -/
def zeroPlaces (places : Nat) : List Char :=
  if places = 0 then [] else '.' :: List.replicate places '0'

/-- A power of ten puts zeros behind the digits. -/
theorem toDigits_mul_pow {n : Nat} (positive : 0 < n) (places : Nat) :
    Nat.toDigits 10 (n * 10 ^ places) = Nat.toDigits 10 n ++ List.replicate places '0' := by
  induction places with
  | zero => rw [Nat.pow_zero, Nat.mul_one, List.replicate_zero, List.append_nil]
  | succ places ih =>
    have some : 0 < n * 10 ^ places := Nat.mul_pos positive (Nat.pow_pos (by decide))
    calc Nat.toDigits 10 (n * 10 ^ (places + 1))
        = Nat.toDigits 10 (10 * (n * 10 ^ places) + 0) := by
          rw [Nat.pow_succ, ← Nat.mul_assoc, Nat.mul_comm, Nat.add_zero]
      _ = Nat.toDigits 10 (n * 10 ^ places) ++ ['0'] :=
          (Nat.toDigits_append_toDigits (by decide) some (by decide)).symm
      _ = Nat.toDigits 10 n ++ List.replicate (places + 1) '0' := by
          rw [ih, List.append_assoc, ← List.replicate_succ']

/-- A whole number has zeros in all its places. -/
theorem placedText_mul_pow (places n : Nat) :
    placedText places (n * 10 ^ places) = Nat.toDigits 10 n ++ zeroPlaces places := by
  -- Zero alone needs padding: it has one digit however many places follow.
  have padded : List.replicate (places + 1 - (Nat.toDigits 10 (n * 10 ^ places)).length) '0' ++
      Nat.toDigits 10 (n * 10 ^ places) = Nat.toDigits 10 n ++ List.replicate places '0' := by
    rcases Nat.eq_zero_or_pos n with rfl | positive
    · rw [Nat.zero_mul, Nat.toDigits_zero, List.length_singleton, Nat.add_sub_cancel,
        ← List.replicate_succ', List.replicate_succ]
      rfl
    · have length := Nat.length_toDigits_pos (b := 10) (n := n)
      have enough : places + 1 - (Nat.toDigits 10 n ++ List.replicate places '0').length = 0 := by
        rw [List.length_append, List.length_replicate]
        omega
      rw [toDigits_mul_pow positive, enough]
      rfl
  unfold placedText zeroPlaces
  simp only [padded]
  split
  · next none => rw [none, List.replicate_zero]
  · rw [List.length_append, List.length_replicate, Nat.add_sub_cancel, List.take_left',
      List.drop_left'] <;> rfl

theorem fixedText_ofInt {n : Int} (short : n.natAbs ≤ 2 ^ 64) (places : Nat) :
    fixedText places (.ofInt n) =
      (if n < 0 then ['-'] else []) ++
        (Nat.toDigits 10 (Binary64.nearestInteger n.natAbs) ++ zeroPlaces places) := by
  rw [Binary64.ofInt_of_le short, fixedText, Nat.mul_right_comm,
    divideNearest_mul _ Binary64.unitsPerOne_pos, placedText_mul_pow]
  simp only [decide_eq_true_eq]

end Stencil.Numeric
