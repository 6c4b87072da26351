import Mathlib.Algebra.Order.Field.Power
import Mathlib.Data.List.TakeWhile
import Mathlib.Tactic.FieldSimp
import Mathlib.Tactic.Positivity
import Mathlib.Tactic.Ring
import Stencil.Numeric.Numeral
import Stencil.Numeric.Style
import Stencil.Proofs.Text.Runs

namespace Stencil.Numeric

/-!
# What a numeral stands for

The text of a number is digits with a point and an exponent.  What it stands for
can be read off it, and that is the value of its digits, wherever the point is put
and however many zeros are added.
-/

/-! ## Runs of digits -/

theorem digitsValue_eq (digits : List Char) : digitsValue digits = Nat.ofDigitChars 10 digits 0 :=
  rfl

theorem digitsValue_append (front back : List Char) :
    digitsValue (front ++ back) = digitsValue front * 10 ^ back.length + digitsValue back := by
  rw [digitsValue_eq, Nat.ofDigitChars_append, Nat.ofDigitChars_eq_ofDigitChars_zero,
    Nat.mul_comm]
  rfl

theorem digitsValue_replicate_zero (count : Nat) : digitsValue (List.replicate count '0') = 0 := by
  rw [digitsValue_eq, Nat.ofDigitChars_replicate_zero, Nat.mul_zero]

theorem digitsValue_toDigits (n : Nat) : digitsValue (Nat.toDigits 10 n) = n :=
  Nat.ofDigitChars_ten_toDigits

theorem isDigit_toDigits {n : Nat} {c : Char} (member : c ∈ Nat.toDigits 10 n) :
    c.isDigit = true :=
  Nat.isDigit_of_mem_toDigits (by decide) (by decide) member

/-- The digits of a number are its significant digits and zeros. -/
theorem toDigits_eq_significantDigits (n : Nat) :
    ∃ zeros, Nat.toDigits 10 n = significantDigits n ++ List.replicate zeros '0' := by
  let reversed := (Nat.toDigits 10 n).reverse
  refine ⟨(reversed.takeWhile (· == '0')).length, ?_⟩
  have split : reversed.takeWhile (· == '0') ++ reversed.dropWhile (· == '0') = reversed :=
    List.takeWhile_append_dropWhile
  have zeros : reversed.takeWhile (· == '0') =
      List.replicate (reversed.takeWhile (· == '0')).length '0' := by
    refine List.eq_replicate_iff.mpr ⟨rfl, fun c member => ?_⟩
    exact beq_iff_eq.mp (List.mem_takeWhile_imp (p := fun c => c == '0') member)
  have whole := congrArg List.reverse split
  rw [List.reverse_append, List.reverse_reverse, zeros, List.reverse_replicate] at whole
  exact whole.symm

theorem isDigit_of_mem_significantDigits {n : Nat} {c : Char}
    (member : c ∈ significantDigits n) : c.isDigit = true := by
  obtain ⟨zeros, whole⟩ := toDigits_eq_significantDigits n
  exact isDigit_toDigits (whole ▸ List.mem_append_left _ member)

/-! ## Decimals -/

/-- The value of significant digits with an exponent. -/
def Decimal.value (d : Decimal) : ℚ :=
  digitsValue d.digits * (10 : ℚ) ^ (d.exponent + 1 - d.digits.length)

theorem ten_zpow_add (a : Int) (n : Nat) : (10 : ℚ) ^ (a + n) = (10 : ℚ) ^ a * 10 ^ n := by
  rw [zpow_add₀ (by norm_num), zpow_natCast]

/-- Leaving zeros at the end out changes no value. -/
theorem value_significantDigits (n : Nat) (grid : Int) :
    Decimal.value ⟨significantDigits n, grid + ((Nat.toDigits 10 n).length : Int) - 1⟩ =
      n * (10 : ℚ) ^ grid := by
  obtain ⟨zeros, whole⟩ := toDigits_eq_significantDigits n
  have value := congrArg digitsValue whole
  rw [digitsValue_toDigits, digitsValue_append, digitsValue_replicate_zero, List.length_replicate,
    Nat.add_zero] at value
  have length := congrArg List.length whole
  rw [List.length_append, List.length_replicate] at length
  unfold Decimal.value
  simp only
  have exponent : grid + ((Nat.toDigits 10 n).length : Int) - 1 + 1 -
      ((significantDigits n).length : Int) = grid + zeros := by
    rw [length]
    push_cast
    ring
  rw [exponent, ten_zpow_add]
  conv_rhs => rw [value]
  push_cast
  ring

/-! ## Reading -/

/-- What a numeral without sign stands for: digits with at most one point among
them, and the exponent. -/
def numeralValue? (cs : List Char) : Option ℚ :=
  let whole := cs.takeWhile Char.isDigit
  let behind := cs.dropWhile Char.isDigit
  let fraction := if behind.head? = some '.' then behind.tail.takeWhile Char.isDigit else []
  let rest := if behind.head? = some '.' then behind.tail.dropWhile Char.isDigit else behind
  (readExponent? rest).map fun exponent : Int =>
    digitsValue (whole ++ fraction) * (10 : ℚ) ^ (exponent - fraction.length)

/-- No digit comes next. -/
def EndsDigits (behind : List Char) : Prop := Text.StopsAt (fun c => c.isDigit = true) behind

theorem takeWhile_digits {digits behind : List Char} (run : ∀ c ∈ digits, c.isDigit = true)
    (ends : EndsDigits behind) : (digits ++ behind).takeWhile Char.isDigit = digits := by
  rw [List.takeWhile_append_of_pos run]
  cases behind with
  | nil => simp
  | cons c rest =>
    rw [List.takeWhile_cons_of_neg (ends c rest rfl), List.append_nil]

theorem dropWhile_digits {digits behind : List Char} (run : ∀ c ∈ digits, c.isDigit = true)
    (ends : EndsDigits behind) : (digits ++ behind).dropWhile Char.isDigit = behind := by
  rw [List.dropWhile_append_of_pos run]
  cases behind with
  | nil => rfl
  | cons c rest => rw [List.dropWhile_cons_of_neg (ends c rest rfl)]

/-- A numeral with a point. -/
theorem numeralValue?_point {whole fraction rest : List Char}
    (wholeDigits : ∀ c ∈ whole, c.isDigit = true)
    (fractionDigits : ∀ c ∈ fraction, c.isDigit = true) (ends : EndsDigits rest) :
    numeralValue? (whole ++ '.' :: (fraction ++ rest)) =
      (readExponent? rest).map fun exponent : Int =>
        digitsValue (whole ++ fraction) * (10 : ℚ) ^ (exponent - fraction.length) := by
  have point : EndsDigits ('.' :: (fraction ++ rest)) := Text.stopsAt_cons (by decide)
  unfold numeralValue?
  rw [takeWhile_digits wholeDigits point, dropWhile_digits wholeDigits point]
  simp only [List.head?_cons, if_true, List.tail_cons]
  rw [takeWhile_digits fractionDigits ends, dropWhile_digits fractionDigits ends]

/-- A numeral without a point. -/
theorem numeralValue?_whole {whole rest : List Char} (wholeDigits : ∀ c ∈ whole, c.isDigit = true)
    (ends : EndsDigits rest) (noPoint : rest.head? ≠ some '.') :
    numeralValue? (whole ++ rest) =
      (readExponent? rest).map fun exponent : Int => digitsValue whole * (10 : ℚ) ^ exponent := by
  unfold numeralValue?
  rw [takeWhile_digits wholeDigits ends, dropWhile_digits wholeDigits ends]
  simp only [if_neg noPoint, List.append_nil, List.length_nil, Int.natCast_zero, Int.sub_zero]

/-! ## Texts of decimals -/

/-- Significant digits are digits, and there are some. -/
structure Decimal.Proper (d : Decimal) : Prop where
  digits : ∀ c ∈ d.digits, c.isDigit = true
  nonempty : d.digits ≠ []

theorem zeros_digits {count : Nat} : ∀ c ∈ List.replicate count '0', c.isDigit = true := by
  intro c member
  rw [List.eq_of_mem_replicate member]
  rfl

theorem zero_digits : ∀ c ∈ ['0'], c.isDigit = true := @zeros_digits 1

theorem digits_append {front back : List Char} (first : ∀ c ∈ front, c.isDigit = true)
    (second : ∀ c ∈ back, c.isDigit = true) : ∀ c ∈ front ++ back, c.isDigit = true := by
  intro c member
  rcases List.mem_append.mp member with early | late
  · exact first c early
  · exact second c late

/-- The digits of a decimal below one stand behind the point, after some zeros. -/
theorem numeralValue?_fractional {d : Decimal} (proper : d.Proper) (negative : d.exponent < 0) :
    numeralValue? (['0', '.'] ++ List.replicate ((-d.exponent).toNat - 1) '0' ++ d.digits) =
      some d.value := by
  have text : ['0', '.'] ++ List.replicate ((-d.exponent).toNat - 1) '0' ++ d.digits =
      ['0'] ++ '.' :: ((List.replicate ((-d.exponent).toNat - 1) '0' ++ d.digits) ++ []) := by
    simp
  rw [text, numeralValue?_point zero_digits (digits_append zeros_digits proper.digits)
    (Text.stopsAt_nil _)]
  simp only [readExponent?, Option.map_some, Option.some.injEq]
  unfold Decimal.value
  rw [digitsValue_append, digitsValue_append, digitsValue_replicate_zero]
  have zero : digitsValue ['0'] = 0 := rfl
  rw [zero, Nat.zero_mul, Nat.zero_mul, Nat.zero_add, Nat.zero_add, List.length_append,
    List.length_replicate]
  congr 2
  push_cast
  omega

/-- Those of a whole number stand in front of it, before some zeros. -/
theorem numeralValue?_padded {d : Decimal} (proper : d.Proper) (positive : ¬ d.exponent < 0)
    (short : d.digits.length ≤ d.exponent.toNat + 1) :
    numeralValue? (d.digits ++ List.replicate (d.exponent.toNat + 1 - d.digits.length) '0' ++
      ['.', '0']) = some d.value := by
  have text : d.digits ++ List.replicate (d.exponent.toNat + 1 - d.digits.length) '0' ++
      ['.', '0'] = (d.digits ++ List.replicate (d.exponent.toNat + 1 - d.digits.length) '0') ++
        '.' :: (['0'] ++ []) := rfl
  rw [text, numeralValue?_point (digits_append proper.digits zeros_digits) zero_digits
    (Text.stopsAt_nil _)]
  simp only [readExponent?, Option.map_some, Option.some.injEq]
  unfold Decimal.value
  rw [digitsValue_append, digitsValue_append, digitsValue_replicate_zero]
  have zero : digitsValue ['0'] = 0 := rfl
  rw [zero, Nat.add_zero, Nat.add_zero, List.length_replicate, List.length_singleton]
  have exponent : d.exponent + 1 - (d.digits.length : Int) =
      (d.exponent.toNat + 1 - d.digits.length : Nat) := by omega
  rw [exponent, zpow_natCast]
  push_cast
  simp only [zpow_neg, zpow_one]
  field_simp

/-- Of the others some stand in front of it and some behind it. -/
theorem numeralValue?_divided {d : Decimal} (proper : d.Proper) (positive : ¬ d.exponent < 0)
    (long : ¬ d.digits.length ≤ d.exponent.toNat + 1) :
    numeralValue? (d.digits.take (d.exponent.toNat + 1) ++ '.' ::
      d.digits.drop (d.exponent.toNat + 1)) = some d.value := by
  have text : d.digits.take (d.exponent.toNat + 1) ++ '.' ::
      d.digits.drop (d.exponent.toNat + 1) = d.digits.take (d.exponent.toNat + 1) ++ '.' ::
        (d.digits.drop (d.exponent.toNat + 1) ++ []) := by
    rw [List.append_nil]
  rw [text, numeralValue?_point
    (fun c member => proper.digits c (List.mem_of_mem_take member))
    (fun c member => proper.digits c (List.mem_of_mem_drop member)) (Text.stopsAt_nil _)]
  simp only [readExponent?, Option.map_some, Option.some.injEq]
  unfold Decimal.value
  rw [List.take_append_drop, List.length_drop]
  congr 2
  omega

theorem numeralValue?_positionalText {d : Decimal} (proper : d.Proper) :
    numeralValue? (positionalText ['.', '0'] d) = some d.value := by
  unfold positionalText
  split
  · next negative => exact numeralValue?_fractional proper negative
  · next positive =>
    simp only
    split
    · next short => exact numeralValue?_padded proper positive short
    · next long => exact numeralValue?_divided proper positive long

theorem isDigits_toDigits (n : Nat) : isDigits (Nat.toDigits 10 n) = true := by
  unfold isDigits
  rw [Bool.and_eq_true]
  refine ⟨?_, List.all_eq_true.mpr fun c member => isDigit_toDigits member⟩
  simp [Nat.toDigits_ne_nil]

/-- An exponent is read as it was written. -/
theorem readExponent?_integerText (exponent : Int) :
    readExponent? ('e' :: ((if exponent < 0 then [] else ['+']) ++ integerText exponent)) =
      some exponent := by
  have digits := isDigits_toDigits exponent.natAbs
  unfold integerText
  by_cases negative : exponent < 0
  · rw [if_pos negative, if_pos negative]
    simp only [readExponent?, splitSign, List.nil_append, digits, digitsValue_toDigits, beq_self_eq_true,
      Bool.true_or, if_true, Option.some.injEq]
    omega
  · rw [if_neg negative, if_neg negative]
    simp only [readExponent?, splitSign, List.singleton_append, digits, digitsValue_toDigits, beq_self_eq_true,
      Bool.true_or, if_true, Option.some.injEq, Bool.false_eq_true, if_false]
    omega

theorem numeralValue?_exponentText {d : Decimal} (proper : d.Proper) :
    numeralValue? (exponentText d) = some d.value := by
  let exponent := 'e' :: ((if d.exponent < 0 then [] else ['+']) ++ integerText d.exponent)
  have read : readExponent? exponent = some d.exponent := readExponent?_integerText d.exponent
  have ends : EndsDigits exponent := Text.stopsAt_cons (by decide)
  have length := List.length_pos_iff.mpr proper.nonempty
  have first : ∀ c ∈ d.digits.take 1, c.isDigit = true :=
    fun c member => proper.digits c (List.mem_of_mem_take member)
  by_cases single : d.digits.length ≤ 1
  · have text : exponentText d = d.digits.take 1 ++ exponent := by
      simp [exponentText, single, exponent]
    rw [text, numeralValue?_whole first ends (by simp [exponent]), read,
      List.take_of_length_le single]
    simp only [Option.map_some, Option.some.injEq]
    unfold Decimal.value
    congr 2
    omega
  · have text : exponentText d = d.digits.take 1 ++ '.' :: (d.digits.drop 1 ++ exponent) := by
      simp [exponentText, single, exponent]
    rw [text, numeralValue?_point first
      (fun c member => proper.digits c (List.mem_of_mem_drop member)) ends, read,
      List.take_append_drop, List.length_drop]
    simp only [Option.map_some, Option.some.injEq]
    unfold Decimal.value
    congr 2
    omega

/-- A positive number is written with an exponent or without one. -/
theorem magnitudeText_eq_or (style : Style) (units : Nat) :
    style.magnitudeText units = positionalText style.wholeMark (shortest style.ties units) ∨
      style.magnitudeText units = exponentText (shortest style.ties units) :=
  ite_eq_or_eq _ _ _

end Stencil.Numeric
