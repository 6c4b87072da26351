import Stencil.Proofs.Numeric.Digits
import Stencil.Proofs.Numeric.Search
import Stencil.Value.Text

namespace Stencil.Numeric

open Stencil.Numeric.Binary64 (Representable)

/-!
# Different numbers have different JSON texts

The text of a number stands for a decimal that reads back as the number, and no
decimal reads back as two.  An integer has neither a point nor an exponent in its
text and a fractional number has one of them.
-/

/-! ## Integers -/

theorem toDigits_injective {n m : Nat} (same : Nat.toDigits 10 n = Nat.toDigits 10 m) : n = m := by
  rw [← digitsValue_toDigits n, same, digitsValue_toDigits]

theorem integerText_injective {n m : Int} (same : integerText n = integerText m) : n = m := by
  have unsigned : ∀ {n : Nat} {rest : List Char}, Nat.toDigits 10 n ≠ '-' :: rest := by
    intro n rest same
    have digit : '-'.isDigit = true := isDigit_toDigits (n := n) (same ▸ List.mem_cons_self)
    exact absurd digit (by decide)
  unfold integerText at same
  by_cases negative : n < 0
  · by_cases alsoNegative : m < 0
    · rw [if_pos negative, if_pos alsoNegative] at same
      have magnitudes := toDigits_injective (List.tail_eq_of_cons_eq same)
      omega
    · rw [if_pos negative, if_neg alsoNegative] at same
      exact absurd same.symm unsigned
  · by_cases alsoNegative : m < 0
    · rw [if_neg negative, if_pos alsoNegative] at same
      exact absurd same unsigned
    · rw [if_neg negative, if_neg alsoNegative] at same
      have magnitudes := toDigits_injective same
      omega

/-- Digits and a sign are all there is in the text of an integer. -/
theorem isDigit_or_sign {n : Int} {c : Char} (member : c ∈ integerText n) :
    c.isDigit = true ∨ c = '-' := by
  unfold integerText at member
  split at member
  · rcases List.mem_cons.mp member with sign | digit
    · exact .inr sign
    · exact .inl (isDigit_toDigits digit)
  · exact .inl (isDigit_toDigits member)

/-! ## Fractional numbers -/

/-- The text of a number without its sign. -/
def unsignedText (units : Nat) : List Char :=
  if units = 0 then ['0', '.', '0'] else Value.jsonStyle.magnitudeText units

theorem jsonStyle_text (negative : Bool) (units : Nat) :
    Value.jsonStyle.text (.finite negative units) =
      (if negative then ['-'] else []) ++ unsignedText units := by
  cases units with
  | zero => cases negative <;> rfl
  | succ units =>
    rw [unsignedText, if_neg (Nat.succ_ne_zero units)]
    rfl

theorem below_pos {units : Nat} (representable : Representable units) (positive : 0 < units) :
    0 < (Vicinity.of units).below := by
  classical
  obtain ⟨significand, bits, parts⟩ := exists_significand representable positive
  have grain := Nat.two_pow_pos bits
  have some : 0 < significand := by
    have value := parts.value
    by_contra none
    rw [Nat.eq_zero_of_not_pos none, Nat.zero_mul] at value
    omega
  have least : 2 ^ bits ≤ units := by
    rw [parts.value]
    exact Nat.le_mul_of_pos_left _ some
  rw [Vicinity.of_eq parts]
  show 0 < 4 * units - _
  split <;> omega

theorem significantDigits_ne_nil {n : Nat} (positive : 0 < n) : significantDigits n ≠ [] := by
  intro none
  obtain ⟨zeros, whole⟩ := toDigits_eq_significantDigits n
  have value := digitsValue_toDigits n
  rw [whole, none, List.nil_append, digitsValue_replicate_zero] at value
  omega

/-- What the text of a positive number stands for reads back as the number. -/
theorem numeralValue?_magnitudeText {units : Nat} (representable : Representable units)
    (positive : 0 < units) :
    ∃ x : ℚ, numeralValue? (Value.jsonStyle.magnitudeText units) = some x ∧ x ≠ 0 ∧
      (Vicinity.of units).Reads (x * (4 * Binary64.unitsPerOne)) := by
  obtain ⟨n, grid, digits, reads⟩ :=
    shortest_reads Value.jsonStyle.ties representable positive
  have least : 0 < (n : ℚ) * gridStep grid := by
    have below : (0 : ℚ) < (Vicinity.of units).below := by
      exact_mod_cast below_pos representable positive
    exact lt_of_lt_of_le below reads.le.1
  have some : 0 < n := by
    rcases Nat.eq_zero_or_pos n with zero | some
    · rw [zero, Nat.cast_zero, zero_mul] at least
      exact absurd least (lt_irrefl 0)
    · exact some
  have proper : (shortest Value.jsonStyle.ties units).Proper := by
    rw [digits]
    exact ⟨fun c => isDigit_of_mem_significantDigits, significantDigits_ne_nil some⟩
  refine ⟨n * (10 : ℚ) ^ grid, ?_, ?_, ?_⟩
  · rw [← value_significantDigits n grid, ← digits]
    rcases magnitudeText_eq_or Value.jsonStyle units with plain | scientific
    · rw [plain]
      exact numeralValue?_positionalText proper
    · rw [scientific]
      exact numeralValue?_exponentText proper
  · have power : (10 : ℚ) ^ grid ≠ 0 := by positivity
    have factor : (n : ℚ) ≠ 0 := by exact_mod_cast some.ne'
    exact mul_ne_zero factor power
  · have value : (n : ℚ) * (10 : ℚ) ^ grid * (4 * Binary64.unitsPerOne) = n * gridStep grid := by
      unfold gridStep
      ring
    rw [value]
    exact reads

theorem numeralValue?_zero : numeralValue? ['0', '.', '0'] = some 0 := by
  have whole : ['0', '.', '0'] = ['0'] ++ '.' :: (['0'] ++ []) := rfl
  have zero : digitsValue (['0'] ++ ['0']) = 0 := rfl
  rw [whole, numeralValue?_point zero_digits zero_digits (Text.stopsAt_nil _), zero]
  simp [readExponent?]

theorem unsignedText_injective {units other : Nat} (representable : Representable units)
    (otherRepresentable : Representable other) (same : unsignedText units = unsignedText other) :
    units = other := by
  unfold unsignedText at same
  rcases Nat.eq_zero_or_pos units with zero | positive
  · rcases Nat.eq_zero_or_pos other with otherZero | otherPositive
    · rw [zero, otherZero]
    · rw [if_pos zero, if_neg otherPositive.ne'] at same
      obtain ⟨x, reads, nonzero, -⟩ := numeralValue?_magnitudeText otherRepresentable otherPositive
      rw [← same, numeralValue?_zero] at reads
      exact absurd (Option.some.inj reads).symm nonzero
  · rcases Nat.eq_zero_or_pos other with otherZero | otherPositive
    · rw [if_neg positive.ne', if_pos otherZero] at same
      obtain ⟨x, reads, nonzero, -⟩ := numeralValue?_magnitudeText representable positive
      rw [same, numeralValue?_zero] at reads
      exact absurd (Option.some.inj reads).symm nonzero
    · rw [if_neg positive.ne', if_neg otherPositive.ne'] at same
      obtain ⟨x, shown, -, reads⟩ := numeralValue?_magnitudeText representable positive
      obtain ⟨y, otherShown, -, otherReads⟩ :=
        numeralValue?_magnitudeText otherRepresentable otherPositive
      rw [same, otherShown] at shown
      obtain rfl := Option.some.inj shown
      exact eq_of_reads representable otherRepresentable positive otherPositive reads otherReads

/-- A text with a sign stands for no number. -/
theorem numeralValue?_unsignedText {units : Nat} (representable : Representable units) :
    (numeralValue? (unsignedText units)).isSome := by
  unfold unsignedText
  split
  · rw [numeralValue?_zero]
    rfl
  · next nonzero =>
    obtain ⟨x, shown, -⟩ :=
      numeralValue?_magnitudeText representable (Nat.pos_of_ne_zero nonzero)
    rw [shown]
    rfl

theorem unsignedText_ne_sign {units : Nat} (representable : Representable units)
    {rest : List Char} : unsignedText units ≠ '-' :: rest := by
  intro same
  have shown := numeralValue?_unsignedText representable
  rw [same] at shown
  have none : numeralValue? ('-' :: rest) = none := by
    unfold numeralValue?
    rw [List.takeWhile_cons_of_neg (by decide), List.dropWhile_cons_of_neg (by decide)]
    rfl
  rw [none] at shown
  cases shown

/-- Finite numbers with the same JSON text are the same. -/
theorem jsonStyle_text_injective {negative otherNegative : Bool} {units other : Nat}
    (representable : Representable units) (otherRepresentable : Representable other)
    (same : Value.jsonStyle.text (.finite negative units) =
      Value.jsonStyle.text (.finite otherNegative other)) :
    negative = otherNegative ∧ units = other := by
  rw [jsonStyle_text, jsonStyle_text] at same
  cases negative with
  | true =>
    cases otherNegative with
    | true =>
      exact ⟨rfl, unsignedText_injective representable otherRepresentable
        (List.tail_eq_of_cons_eq same)⟩
    | false => exact absurd same.symm (unsignedText_ne_sign otherRepresentable)
  | false =>
    cases otherNegative with
    | true => exact absurd same (unsignedText_ne_sign representable)
    | false => exact ⟨rfl, unsignedText_injective representable otherRepresentable same⟩

/-! ## Integers and fractional numbers -/

theorem point_mem_positionalText (d : Decimal) : '.' ∈ positionalText ['.', '0'] d := by
  unfold positionalText
  split
  · simp
  · simp only
    split <;> simp

theorem letter_mem_exponentText (d : Decimal) : 'e' ∈ exponentText d := by
  simp [exponentText]

/-- The text of a fractional number has a point or an exponent. -/
theorem point_or_letter_mem (negative : Bool) (units : Nat) :
    '.' ∈ Value.jsonStyle.text (.finite negative units) ∨
      'e' ∈ Value.jsonStyle.text (.finite negative units) := by
  have unsigned : '.' ∈ unsignedText units ∨ 'e' ∈ unsignedText units := by
    unfold unsignedText
    split
    · exact .inl (by decide)
    · rcases magnitudeText_eq_or Value.jsonStyle units with plain | scientific
      · rw [plain]
        exact .inl (point_mem_positionalText _)
      · rw [scientific]
        exact .inr (letter_mem_exponentText _)
  rw [jsonStyle_text]
  rcases unsigned with point | letter
  · exact .inl (List.mem_append_right _ point)
  · exact .inr (List.mem_append_right _ letter)

theorem integerText_ne_jsonStyle {n : Int} {negative : Bool} {units : Nat} :
    integerText n ≠ Value.jsonStyle.text (.finite negative units) := by
  intro same
  rcases point_or_letter_mem negative units with point | letter
  · rw [← same] at point
    rcases isDigit_or_sign point with digit | sign
    · exact absurd digit (by decide)
    · exact absurd sign (by decide)
  · rw [← same] at letter
    rcases isDigit_or_sign letter with digit | sign
    · exact absurd digit (by decide)
    · exact absurd sign (by decide)

end Stencil.Numeric
