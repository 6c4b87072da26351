import Stencil.Formatter.Builtin
import Stencil.Proofs.Numeric.Exact

namespace Stencil.Formatter

open Numeric
open Numeric.Binary64 (Exact nearestInteger signed)

/-!
# Integers in number formatters

A number formatter takes its value for a number of the format, an integer too.  So an integer that
is one of the format comes out as it went in, and every other one as the nearest of these.  What
cuts off the fractional part also cuts to 64 bits with a sign, where an integer may exceed them.
-/

-- Powers of numbers are those of the core library, whatever else is imported.
attribute [local instance (high)] instPowNat

variable {n : Int}

theorem toNumber?_ofInt (n : Int) : (Value.ofInt n).toNumber? = some (Binary64.ofInt n) := rfl

/-! ## Cutting off the fractional part -/

theorem int_eq {value : Value} {whole : Int}
    (truncated : value.toNumber?.bind Binary64.truncate? = some whole) :
    int value = .ofInt (max integerLeast (min whole integerGreatest)) := by
  unfold int
  rw [truncated]

theorem int_ofInt (short : n.natAbs ≤ 2 ^ 64) : int (.ofInt n) =
    .ofInt (max integerLeast (min (signed (n < 0) (nearestInteger n.natAbs)) integerGreatest)) := by
  refine int_eq ?_
  rw [toNumber?_ofInt, Option.bind_some, Binary64.truncate?_ofInt short]

/-- The greatest integer is no number of the format, but the one behind it is cut to it. -/
theorem int_integerGreatest : int (.ofInt integerGreatest) = .ofInt integerGreatest := by
  rw [int_ofInt (by decide)]
  refine congrArg Value.ofInt ?_
  decide +kernel

/-- What is not cut is rounded to itself. -/
theorem exact_of_int_eq (short : n.natAbs ≤ 2 ^ 64) (inside : n ≠ integerGreatest)
    (kept : int (.ofInt n) = .ofInt n) : Exact n.natAbs := by
  rw [int_ofInt short] at kept
  have cut := Number.integer.inj (Value.number.inj kept)
  by_cases bottom : n = integerLeast
  · rw [bottom]
    exact ⟨1, 63, by decide, by decide⟩
  · have nearest : signed (n < 0) (nearestInteger n.natAbs) = n := by omega
    refine Binary64.nearestInteger_eq_iff.mp ?_
    unfold signed at nearest
    split at nearest <;> omega

/-- Of the integers of 64 bits, those of the format are kept, and the greatest of all. -/
theorem int_ofInt_eq_iff (least : integerLeast ≤ n) (short : n.natAbs ≤ 2 ^ 64) :
    int (.ofInt n) = .ofInt n ↔ n = integerGreatest ∨ Exact n.natAbs ∧ n < integerGreatest := by
  constructor
  · intro kept
    by_cases inside : n = integerGreatest
    · exact .inl inside
    · have most : n ≤ integerGreatest := by
        have cut := Number.integer.inj (Value.number.inj ((int_ofInt short).symm.trans kept))
        have ends : integerLeast ≤ integerGreatest := by decide
        omega
      exact .inr ⟨exact_of_int_eq short inside kept, lt_of_le_of_ne most inside⟩
  · rintro (rfl | ⟨exact, below⟩)
    · exact int_integerGreatest
    · rw [int_ofInt short, Binary64.nearestInteger_eq_iff.mpr exact, Binary64.signed_natAbs,
        min_eq_left below.le, max_eq_right least]

/-! ## Fixed places -/

theorem placesOf_eq {argument : Value} {x : Binary64} {whole : Int}
    (number : argument.toNumber? = some x) (truncated : x.truncate? = some whole) :
    placesOf (some argument) = min whole.toNat 100 := by
  unfold placesOf
  rw [Option.bind_some, number]
  simp only [truncated]

/-- The number of places is a small integer, and as such exact. -/
theorem placesOf_ofInt {places : Nat} (few : places ≤ 100) :
    placesOf (some (.ofInt places)) = places := by
  have exact : nearestInteger (Int.natAbs places) = places :=
    Binary64.nearestInteger_eq_iff.mpr (Binary64.exact_of_le (Nat.le_trans few (by decide)))
  have whole : (Binary64.ofInt places).truncate? = some (places : Int) := by
    rw [Binary64.truncate?_ofInt (Nat.le_trans few (by decide)), exact]
    exact congrArg some (Binary64.signed_natAbs places)
  rw [placesOf_eq (toNumber?_ofInt places) whole, Int.toNat_natCast, min_eq_left few]

theorem toFixed_ofInt (short : n.natAbs ≤ 2 ^ 64) {places : Nat} (few : places ≤ 100) :
    toFixed (.ofInt n) [.ofInt places] = .string (String.ofList
      ((if n < 0 then ['-'] else []) ++
        (Nat.toDigits 10 (nearestInteger n.natAbs) ++ zeroPlaces places))) := by
  unfold toFixed
  rw [toNumber?_ofInt, List.head?_cons]
  simp only [placesOf_ofInt few, fixedText_ofInt short]

theorem integerText_eq (n : Int) :
    integerText n = (if n < 0 then ['-'] else []) ++ Nat.toDigits 10 n.natAbs := by
  unfold integerText
  split <;> rfl

/-- The text of an integer with fixed places is its decimal text with zeros just if it is one of
the format. -/
theorem toFixed_ofInt_eq_iff (short : n.natAbs ≤ 2 ^ 64) {places : Nat} (few : places ≤ 100) :
    toFixed (.ofInt n) [.ofInt places] =
      .string (String.ofList (integerText n ++ zeroPlaces places)) ↔ Exact n.natAbs := by
  rw [toFixed_ofInt short few, integerText_eq, List.append_assoc, Value.string.injEq,
    String.ofList_inj, List.append_cancel_left_eq, List.append_cancel_right_eq,
    ← Binary64.nearestInteger_eq_iff]
  exact ⟨toDigits_injective, congrArg (Nat.toDigits 10)⟩

/-! ## Integers of 64 bits -/

/-- Number formatters keep just the integers that are numbers of the format, up to where they cut:
all up to `2 ^ 53` from zero, and those with enough zero bits beyond. -/
theorem integers_kept (least : integerLeast ≤ n) (most : n < 2 ^ 64) :
    (int (.ofInt n) = .ofInt n ↔ n = integerGreatest ∨ Exact n.natAbs ∧ n < integerGreatest) ∧
      (∀ places : Nat, places ≤ 100 →
        (toFixed (.ofInt n) [.ofInt places] =
          .string (String.ofList (integerText n ++ zeroPlaces places)) ↔ Exact n.natAbs)) ∧
      (n.natAbs ≤ 2 ^ 53 → Exact n.natAbs ∧ n < integerGreatest) := by
  have short : n.natAbs ≤ 2 ^ 64 := by
    rw [integerLeast] at least
    omega
  refine ⟨int_ofInt_eq_iff least short, fun places few => toFixed_ofInt_eq_iff short few, ?_⟩
  intro small
  refine ⟨Binary64.exact_of_le small, ?_⟩
  rw [integerGreatest]
  omega

/-- The least integer of 64 bits, and an amount beyond the greatest with a sign. -/
theorem integers_kept_ends :
    (integerLeast ≤ -9223372036854775808 ∧ int (.ofInt (-9223372036854775808)) =
      .ofInt (-9223372036854775808)) ∧
    (18446744073709549568 : Int) < 2 ^ 64 ∧ toFixed (.ofInt 18446744073709549568) [.ofInt 2] =
      .string "18446744073709549568.00" := by
  have power : Exact (Int.natAbs (-9223372036854775808)) := ⟨1, 63, by decide, by decide⟩
  have amount : Exact (Int.natAbs 18446744073709549568) :=
    ⟨9007199254740991, 11, by decide, by decide⟩
  have least := integers_kept (n := -9223372036854775808) (by decide) (by decide)
  have most := integers_kept (n := 18446744073709549568) (by decide) (by decide)
  refine ⟨⟨by decide, least.1.mpr (.inr ⟨power, by decide⟩)⟩, by decide, ?_⟩
  exact (most.2.1 2 (by decide)).mpr amount

/-- One more than `2 ^ 53` has a bit too many, and the greatest integer without a sign is cut. -/
theorem integers_rounded_and_cut :
    int (.ofInt 9007199254740993) ≠ .ofInt 9007199254740993 ∧
      toFixed (.ofInt 9007199254740993) [.ofInt 0] = .string "9007199254740992" ∧
      int (.ofInt 18446744073709551615) = .ofInt 9223372036854775807 := by
  have rounded : (Value.ofInt 9007199254740993).toNumber?.bind Binary64.truncate? =
      some 9007199254740992 := by decide +kernel
  have most : (Value.ofInt 18446744073709551615).toNumber?.bind Binary64.truncate? =
      some 18446744073709551616 := by decide +kernel
  refine ⟨?_, ?_, ?_⟩
  · intro kept
    have same := Number.integer.inj (Value.number.inj ((int_eq rounded).symm.trans kept))
    exact absurd same (by decide)
  · have text := toFixed_ofInt (n := 9007199254740993) (by decide) (Nat.zero_le 100)
    refine text.trans (congrArg Value.string ?_)
    decide +kernel
  · refine (int_eq most).trans (congrArg Value.ofInt ?_)
    decide

end Stencil.Formatter
