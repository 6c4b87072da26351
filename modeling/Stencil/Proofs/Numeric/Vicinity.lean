import Mathlib.Data.Nat.Log
import Mathlib.Tactic.Linarith
import Mathlib.Tactic.NormNum
import Mathlib.Tactic.Ring
import Stencil.Numeric.Shortest
import Stencil.Proofs.Numeric.Representable

namespace Stencil.Numeric

open Binary64 (Representable excessBits)

/-!
# Numbers of the format keep apart

The vicinity of a number reaches to the midpoints between it and its neighbours.
Vicinities of different numbers have no decimal in common: the upper end of one
lies at or below the lower end of the next, and where they meet, only one of the
two numbers has an even significand and takes the midpoint.
-/

/-- A number of the format by its significand and the number of its zero bits. -/
structure Significand (units significand bits : Nat) : Prop where
  value : units = significand * 2 ^ bits
  excess : excessBits units = bits
  short : significand < 2 ^ 53
  full : bits = 0 ∨ 2 ^ 52 ≤ significand

theorem exists_significand {units : Nat} (representable : Representable units)
    (positive : 0 < units) : ∃ significand bits, Significand units significand bits := by
  obtain ⟨significand, value⟩ := representable.grain
  refine ⟨significand, excessBits units, ⟨by rw [Nat.mul_comm, ← value], rfl, ?_, ?_⟩⟩
  · have short := Binary64.div_pow_excessBits_lt units
    have quotient : units / 2 ^ excessBits units = significand :=
      Nat.div_eq_of_eq_mul_right (Nat.two_pow_pos _) value
    rwa [quotient] at short
  · by_cases small : excessBits units = 0
    · exact .inl small
    · refine .inr ?_
      have log : units.log2 = 52 + excessBits units := by
        unfold excessBits at small ⊢
        omega
      have long : 2 ^ (52 + excessBits units) ≤ units := by
        rw [← log]
        exact Nat.log2_self_le (Nat.ne_of_gt positive)
      rw [Nat.pow_add] at long
      refine Nat.le_of_mul_le_mul_right ?_ (Nat.two_pow_pos (excessBits units))
      rw [Nat.mul_comm significand, ← value]
      exact long

/-- Whether the midpoint below is only half as far away as the one above. -/
def Narrow (significand bits : Nat) : Prop := significand = 2 ^ 52 ∧ bits ≠ 0

theorem two_pow_eq_one {bits : Nat} : 2 ^ bits = 1 ↔ bits = 0 := by
  constructor
  · intro one
    by_contra positive
    have := Nat.one_lt_two_pow positive
    omega
  · rintro rfl
    rfl

/-- The vicinity of a number by its significand. -/
theorem Vicinity.of_eq {units significand bits : Nat} (parts : Significand units significand bits)
    [decidable : Decidable (Narrow significand bits)] :
    Vicinity.of units =
      { below := 4 * units - (if Narrow significand bits then 2 ^ bits else 2 * 2 ^ bits)
        value := 4 * units
        above := 4 * units + 2 * 2 ^ bits
        closed := significand % 2 == 0 } := by
  have positive := Nat.two_pow_pos bits
  have quotient : units / 2 ^ bits = significand := by
    rw [parts.value]
    exact Nat.mul_div_cancel _ positive
  have narrow : (units == 2 ^ bits * 2 ^ 52 && 2 ^ bits != 1) = decide (Narrow significand bits) := by
    rw [Bool.eq_iff_iff, decide_eq_true_iff, Bool.and_eq_true, beq_iff_eq, bne_iff_ne, Ne,
      two_pow_eq_one, parts.value, Nat.mul_comm (2 ^ bits), Nat.mul_left_inj (by omega)]
    rfl
  unfold Vicinity.of
  simp only [parts.excess, quotient, narrow, decide_eq_true_eq]

variable {units other significand otherSignificand bits otherBits : Nat}

theorem excessBits_mono {units other : Nat} (less : units ≤ other) :
    excessBits units ≤ excessBits other := by
  unfold excessBits
  have log : units.log2 ≤ other.log2 := by
    rw [Nat.log2_eq_log_two, Nat.log2_eq_log_two]
    exact Nat.log_mono_right less
  omega

/-- Numbers with equally long significands are whole steps apart. -/
theorem apart_of_same_bits (parts : Significand units significand bits)
    (otherParts : Significand other otherSignificand bits) (less : units < other) :
    (Vicinity.of units).above ≤ (Vicinity.of other).below ∧
      ((Vicinity.of units).above = (Vicinity.of other).below →
        (Vicinity.of units).closed = false ∨ (Vicinity.of other).closed = false) := by
  classical
  have positive := Nat.two_pow_pos bits
  have lower : significand < otherSignificand := by
    rw [parts.value, otherParts.value] at less
    exact Nat.lt_of_mul_lt_mul_right less
  have step : (significand + 1) * 2 ^ bits ≤ otherSignificand * 2 ^ bits :=
    Nat.mul_le_mul_right _ lower
  rw [Nat.add_mul, Nat.one_mul, ← parts.value, ← otherParts.value] at step
  rw [Vicinity.of_eq parts, Vicinity.of_eq otherParts]
  simp only
  constructor
  · split <;> omega
  · intro meet
    have next : other = units + 2 ^ bits := by
      split at meet <;> omega
    have successor : otherSignificand = significand + 1 := by
      rw [parts.value, otherParts.value] at next
      refine Nat.eq_of_mul_eq_mul_right positive ?_
      rw [Nat.add_mul, Nat.one_mul]
      exact next
    rw [successor]
    rcases Nat.mod_two_eq_zero_or_one significand with even | odd
    · exact .inr (by rw [beq_eq_false_iff_ne]; omega)
    · exact .inl (by rw [beq_eq_false_iff_ne]; omega)

/-! A step from one length of significands to the next, with the two step widths
as numbers. -/

theorem narrow_apart {units other small large : Nat} (twice : 2 * small ≤ large)
    (upper : units + small ≤ 2 ^ 53 * small) (value : other = 2 ^ 52 * large) :
    4 * units + 2 * small + large ≤ 4 * other := by linarith

theorem narrow_meet {units other small large : Nat} (twice : 2 * small ≤ large)
    (upper : units + small ≤ 2 ^ 53 * small) (value : other = 2 ^ 52 * large)
    (meet : 4 * units + 2 * small + large = 4 * other) :
    units + small = 2 ^ 53 * small := by linarith

theorem wide_apart {units other small large : Nat} (positive : 0 < small)
    (twice : 2 * small ≤ large) (upper : units + small ≤ 2 ^ 53 * small)
    (lower : 2 ^ 52 * large + large ≤ other) :
    4 * units + 2 * small + 2 * large < 4 * other := by linarith

theorem odd_of_succ_eq {significand : Nat} (last : significand + 1 = 2 ^ 53) :
    (significand % 2 == 0) = false := by
  rw [beq_eq_false_iff_ne]
  omega

/-- A number with a longer significand lies behind all shorter ones. -/
theorem apart_of_more_bits (parts : Significand units significand bits)
    (otherParts : Significand other otherSignificand otherBits) (more : bits < otherBits) :
    (Vicinity.of units).above ≤ (Vicinity.of other).below ∧
      ((Vicinity.of units).above = (Vicinity.of other).below →
        (Vicinity.of units).closed = false ∨ (Vicinity.of other).closed = false) := by
  classical
  have positive := Nat.two_pow_pos bits
  have twice : 2 * 2 ^ bits ≤ 2 ^ otherBits := by
    rw [← Nat.pow_succ']
    exact Nat.pow_le_pow_right (by decide) more
  have full : 2 ^ 52 ≤ otherSignificand := by
    rcases otherParts.full with impossible | full
    · omega
    · exact full
  have upper : units + 2 ^ bits ≤ 2 ^ 53 * 2 ^ bits := by
    have next : significand + 1 ≤ 2 ^ 53 := parts.short
    have wide := Nat.mul_le_mul_right (2 ^ bits) next
    rwa [Nat.add_mul, Nat.one_mul, ← parts.value] at wide
  rw [Vicinity.of_eq parts, Vicinity.of_eq otherParts]
  simp only
  split
  · next narrow =>
    have value : other = 2 ^ 52 * 2 ^ otherBits := by rw [otherParts.value, narrow.1]
    have room := narrow_apart twice upper value
    refine ⟨Nat.le_sub_of_add_le room, fun meet => .inl ?_⟩
    have met : 4 * units + 2 * 2 ^ bits + 2 ^ otherBits = 4 * other := by
      rw [meet, Nat.sub_add_cancel (Nat.le_of_add_left_le room)]
    have last := narrow_meet twice upper value met
    refine odd_of_succ_eq (Nat.eq_of_mul_eq_mul_right positive ?_)
    rw [Nat.add_mul, Nat.one_mul, ← parts.value]
    exact last
  · next wide =>
    have behind : 2 ^ 52 + 1 ≤ otherSignificand := by
      refine Nat.lt_of_le_of_ne full fun same => wide ⟨same.symm, ?_⟩
      exact Nat.ne_of_gt (Nat.zero_lt_of_lt more)
    have lower := Nat.mul_le_mul_right (2 ^ otherBits) behind
    rw [← otherParts.value, Nat.add_mul, Nat.one_mul] at lower
    have strict := wide_apart positive twice upper lower
    refine ⟨Nat.le_sub_of_add_le strict.le, fun meet => ?_⟩
    have less := Nat.lt_sub_of_add_lt strict
    rw [meet] at less
    exact absurd less (Nat.lt_irrefl _)

/-- The vicinity of a number ends where that of a greater one begins, or
before. -/
theorem vicinity_apart (representable : Representable units)
    (otherRepresentable : Representable other) (positive : 0 < units) (less : units < other) :
    (Vicinity.of units).above ≤ (Vicinity.of other).below ∧
      ((Vicinity.of units).above = (Vicinity.of other).below →
        (Vicinity.of units).closed = false ∨ (Vicinity.of other).closed = false) := by
  obtain ⟨significand, bits, parts⟩ := exists_significand representable positive
  obtain ⟨otherSignificand, otherBits, otherParts⟩ :=
    exists_significand otherRepresentable (positive.trans less)
  have ordered := excessBits_mono less.le
  rw [parts.excess, otherParts.excess] at ordered
  rcases Nat.lt_or_eq_of_le ordered with more | same
  · exact apart_of_more_bits parts otherParts more
  · subst same
    exact apart_of_same_bits parts otherParts less

/-- A number, in quarters of a unit, that reads back as the one of a vicinity. -/
def Vicinity.Reads (near : Vicinity) (x : ℚ) : Prop :=
  if near.closed then near.below ≤ x ∧ x ≤ near.above else near.below < x ∧ x < near.above

theorem Vicinity.Reads.le {near : Vicinity} {x : ℚ} (reads : near.Reads x) :
    near.below ≤ x ∧ x ≤ near.above := by
  unfold Reads at reads
  split at reads
  · exact reads
  · exact ⟨reads.1.le, reads.2.le⟩

/-- Nothing reads back as two different numbers. -/
theorem eq_of_reads {x : ℚ} (representable : Representable units)
    (otherRepresentable : Representable other) (positive : 0 < units) (otherPositive : 0 < other)
    (reads : (Vicinity.of units).Reads x) (otherReads : (Vicinity.of other).Reads x) :
    units = other := by
  have notLess : ∀ {units other : Nat}, Representable units → Representable other → 0 < units →
      (Vicinity.of units).Reads x → (Vicinity.of other).Reads x → ¬ units < other := by
    intro units other representable otherRepresentable positive reads otherReads less
    obtain ⟨apart, meet⟩ := vicinity_apart representable otherRepresentable positive less
    have ends : ((Vicinity.of units).above : ℚ) ≤ (Vicinity.of other).below := by
      exact_mod_cast apart
    have upper := reads.le.2
    have lower := otherReads.le.1
    have same : (Vicinity.of units).above = (Vicinity.of other).below := by
      have : ((Vicinity.of units).above : ℚ) = (Vicinity.of other).below := by linarith
      exact_mod_cast this
    have equal : ((Vicinity.of units).above : ℚ) = (Vicinity.of other).below := by
      exact_mod_cast same
    unfold Vicinity.Reads at reads otherReads
    rcases meet same with opened | opened
    · rw [opened, if_neg (by decide)] at reads
      linarith [reads.2]
    · rw [opened, if_neg (by decide)] at otherReads
      linarith [otherReads.1]
  refine Nat.le_antisymm (Nat.le_of_not_lt ?_) (Nat.le_of_not_lt ?_)
  · exact notLess otherRepresentable representable otherPositive otherReads reads
  · exact notLess representable otherRepresentable positive reads otherReads

end Stencil.Numeric
