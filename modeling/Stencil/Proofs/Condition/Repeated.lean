import Stencil.Outline.Growth
import Stencil.Proofs.Condition.Written

namespace Stencil

open Numeric (Binary64)

/-!
# Conditions that are repeated

A condition that is there already is not repeated, and which one is there already is told
by the values of the bounds.  Bounds of one value are one bound, but for zero, which has two
signs; and the sign of a zero is neither seen by a comparison nor written in a document.  So
what is left out lets pass what is there, and conditions with more of them hold where all
of both do.
-/

/-! ## The sign of zero -/

namespace Numeric.Binary64

theorem compareSigned_eq_eq {a b : Bool} {m n : Nat} (equal : compareSigned (a, m) (b, n) = .eq) :
    m = n ∧ (a = b ∨ m = 0) := by
  cases a <;> cases b <;> simp [compareSigned] at equal ⊢
  · exact equal
  · exact ⟨equal.1.trans equal.2.symm, equal.1⟩
  · exact ⟨equal.1.trans equal.2.symm, equal.1⟩
  · exact equal.symm

/-- Numbers that are equal are one number, or zeros. -/
theorem eq_or_zero_of_equals {a b : Bool} {m n : Nat}
    (equal : (finite a m).equals (finite b n) = true) : m = n ∧ (a = b ∨ m = 0) := by
  refine compareSigned_eq_eq (Option.some.inj ?_)
  exact eq_of_beq equal

theorem compareSigned_zero (place : Bool × Nat) (a b : Bool) :
    compareSigned place (a, 0) = compareSigned place (b, 0) := by
  rcases place with ⟨negative, units⟩
  cases units with
  | zero => cases negative <;> cases a <;> cases b <;> rfl
  | succ n => cases negative <;> cases a <;> cases b <;> rfl

/-- What compares with one zero compares alike with the other. -/
theorem compare?_zero (x : Binary64) (a b : Bool) :
    x.compare? (finite a 0) = x.compare? (finite b 0) := by
  cases x with
  | nan => rfl
  | infinite negative => rfl
  | finite negative units => exact congrArg some (compareSigned_zero (negative, units) a b)

end Numeric.Binary64

/-- Zeros are written in a document without a sign. -/
theorem Value.text_zero (a b : Bool) :
    Value.text (.number (.real (.finite a 0))) = Value.text (.number (.real (.finite b 0))) := by
  cases a <;> cases b <;> rfl

/-- Bounds of one value are one bound, or zeros. -/
theorem Value.Written.eq_or_zero_of_same {left right : Value} (written : left.Written)
    (alsoWritten : right.Written) (same : left.same right = true) :
    left = right ∨ ∃ a b, left = .number (.real (.finite a 0)) ∧
      right = .number (.real (.finite b 0)) := by
  cases written with
  | text s =>
    cases alsoWritten with
    | text t => exact .inl (by rw [eq_of_beq same])
    | integer n => cases same
    | real b n => cases same
  | integer m =>
    cases alsoWritten with
    | text t => cases same
    | integer n => exact .inl (by rw [eq_of_beq same])
    | real b n => cases same
  | real a m =>
    cases alsoWritten with
    | text t => cases same
    | integer n => cases same
    | real b n =>
      rcases Binary64.eq_or_zero_of_equals same with ⟨rfl, rfl | rfl⟩
      · exact .inl rfl
      · exact .inr ⟨a, b, rfl, rfl⟩

/-! ## Conditions -/

namespace Condition

variable {element : Value} {index length : Nat}

theorem compareWith_zero (found : Value) (a b : Bool) :
    compareWith found (.number (.real (.finite a 0))) =
      compareWith found (.number (.real (.finite b 0))) := by
  unfold compareWith
  cases found.toNumber? with
  | none => simp only [Value.text_zero a b]
  | some x => exact Binary64.compare?_zero x a b

/-- A condition does not see the sign of a zero. -/
theorem holds_zero (operand : Operand) (comparison : Comparison) (a b : Bool) :
    holds ⟨operand, comparison, .number (.real (.finite a 0))⟩ element index length =
      holds ⟨operand, comparison, .number (.real (.finite b 0))⟩ element index length := by
  cases operand with
  | position iterator =>
    have place : ∀ a, place? (.number (.real (.finite a 0))) length = some (.finite a 0) := by
      intro a
      cases a <;> rfl
    simp only [holds, place, Binary64.compare?_zero _ a b]
  | field path =>
    unfold holds
    simp only [compareWith_zero _ a b]

/-- Of two conditions that count as one, both hold or none. -/
theorem holds_eq_of_same {left right : Condition} (written : left.bound.Written)
    (alsoWritten : right.bound.Written) (same : left.same right = true) :
    left.holds element index length = right.holds element index length := by
  rcases left with ⟨operand, comparison, bound⟩
  rcases right with ⟨otherOperand, otherComparison, otherBound⟩
  rcases Bool.and_eq_true_iff.mp same with ⟨parts, bounds⟩
  rcases Bool.and_eq_true_iff.mp parts with ⟨operands, comparisons⟩
  cases eq_of_beq operands
  cases eq_of_beq comparisons
  rcases written.eq_or_zero_of_same alsoWritten bounds with rfl | ⟨a, b, rfl, rfl⟩
  · rfl
  · exact holds_zero operand comparison a b

theorem allHold_append (conditions more : List Condition) :
    allHold (conditions ++ more) element index length =
      (allHold conditions element index length && allHold more element index length) :=
  List.all_append

theorem allHold_iff {conditions : List Condition} :
    allHold conditions element index length = true ↔
      ∀ condition ∈ conditions, condition.holds element index length = true :=
  List.all_eq_true

/-- Every bound was written down. -/
def Bounded (conditions : List Condition) : Prop :=
  ∀ condition ∈ conditions, condition.bound.Written

theorem Bounded.concat {conditions : List Condition} (bounded : Bounded conditions)
    {condition : Condition} (written : condition.bound.Written) :
    Bounded (conditions ++ [condition]) := by
  intro other member
  rcases List.mem_append.mp member with old | new
  · exact bounded other old
  · rw [List.mem_singleton.mp new]
    exact written

theorem Bounded.tail {condition : Condition} {more : List Condition}
    (bounded : Bounded (condition :: more)) : Bounded more :=
  fun other member => bounded other (.tail _ member)

end Condition

namespace Outline

open Condition (allHold allHold_append allHold_iff Bounded)

/-- Conditions are added one after the other. -/
theorem addConditions_cons (held : List Condition) (condition : Condition)
    (more : List Condition) : addConditions held (condition :: more) =
      addConditions (if held.any fun other => other.same condition then held
        else held ++ [condition]) more := rfl

theorem bounded_addConditions {held added : List Condition} (bounded : Bounded held)
    (alsoBounded : Bounded added) : Bounded (addConditions held added) := by
  induction added generalizing held with
  | nil => exact bounded
  | cons condition more ih =>
    rw [addConditions_cons]
    refine ih ?_ alsoBounded.tail
    split
    · exact bounded
    · exact bounded.concat (alsoBounded condition (.head _))

/-- All conditions hold where those held before and those added do. -/
theorem allHold_addConditions {held added : List Condition} (bounded : Bounded held)
    (alsoBounded : Bounded added) (element : Value) (index length : Nat) :
    allHold (addConditions held added) element index length =
      (allHold held element index length && allHold added element index length) := by
  induction added generalizing held with
  | nil => exact (Bool.and_true _).symm
  | cons condition more ih =>
    have written := alsoBounded condition (.head _)
    have first : allHold (condition :: more) element index length =
        (condition.holds element index length && allHold more element index length) := rfl
    rw [addConditions_cons, first, ← Bool.and_assoc]
    split
    · next repeated =>
      -- What is left out holds where the condition does that is there already.
      rcases List.any_eq_true.mp repeated with ⟨other, member, same⟩
      have implied : allHold held element index length = true →
          condition.holds element index length = true := by
        intro all
        rw [← Condition.holds_eq_of_same (bounded other member) written same]
        exact allHold_iff.mp all other member
      rw [ih bounded alsoBounded.tail, Bool.and_eq_left_iff_imp.mpr implied]
    · have single : allHold [condition] element index length =
          condition.holds element index length := Bool.and_true _
      rw [ih (bounded.concat written) alsoBounded.tail, allHold_append, single]

end Outline

end Stencil
