import Stencil.Proofs.Condition.Written
import Stencil.Proofs.Numeric.Distinct

namespace Stencil.Condition

open Numeric (integerText)

/-!
# Different conditions have different texts

Names have no points, different numbers are written differently, and a text stands
between apostrophes.  So conditions that look alike are the same, and so are lists
of them.
-/

theorem boundText_string_ne {s : String} {value : Value}
    (numeral : ∀ c ∈ boundText value, Value.isNumeralPart c = true) :
    boundText (.string s) ≠ boundText value := by
  intro same
  have part := numeral '\'' (same ▸ List.mem_cons_self)
  exact absurd part (by decide)

theorem boundText_string_injective {s t : String}
    (same : boundText (.string s) = boundText (.string t)) : s = t := by
  have inner := List.tail_eq_of_cons_eq same
  rw [List.append_left_inj] at inner
  exact String.toList_inj.mp inner

/-- Written bounds with the same text are the same. -/
theorem boundText_injective {bound other : Value} (written : bound.Written)
    (otherWritten : other.Written) (same : boundText bound = boundText other) : bound = other := by
  have integers : ∀ n : Int, boundText (.number (.integer n)) = integerText n := by
    intro n
    simp [boundText, Value.json, Number.json]
  have reals : ∀ x, boundText (.number (.real x)) = Value.jsonStyle.text x := by
    intro x
    simp [boundText, Value.json, Number.json]
  have integerParts : ∀ n : Int, ∀ c ∈ boundText (.number (.integer n)),
      Value.isNumeralPart c = true := by
    intro n c member
    rw [integers] at member
    exact Value.isNumeralPart_of_mem_integerText member
  have realParts : ∀ negative units, ∀ c ∈ boundText (.number (.real (.finite negative units))),
      Value.isNumeralPart c = true := by
    intro negative units c member
    rw [reals] at member
    exact Value.isNumeralPart_of_mem_jsonStyle member
  cases written with
  | text s =>
    cases otherWritten with
    | text t => rw [boundText_string_injective same]
    | integer n => exact absurd same (boundText_string_ne (integerParts n))
    | real negative units _ => exact absurd same (boundText_string_ne (realParts negative units))
  | integer n =>
    cases otherWritten with
    | text t => exact absurd same.symm (boundText_string_ne (integerParts n))
    | integer m =>
      rw [integers, integers] at same
      rw [Numeric.integerText_injective same]
    | real negative units _ =>
      rw [integers, reals] at same
      exact absurd same Numeric.integerText_ne_jsonStyle
  | real negative units representable =>
    cases otherWritten with
    | text t => exact absurd same.symm (boundText_string_ne (realParts negative units))
    | integer m =>
      rw [integers, reals] at same
      exact absurd same.symm Numeric.integerText_ne_jsonStyle
    | real otherNegative otherUnits otherRepresentable =>
      rw [reals, reals] at same
      obtain ⟨rfl, rfl⟩ :=
        Numeric.jsonStyle_text_injective representable otherRepresentable same
      rfl

theorem point_not_mem_of_isName {name : List Char} (named : isName name = true) : '.' ∉ name := by
  intro member
  exact absurd (isNamePart_of_isName named '.' member) (by decide)

/-- Paths of names with the same text are the same. -/
theorem operandText_injective {names others : List (List Char)} (nonempty : names ≠ [])
    (otherNonempty : others ≠ []) (named : ∀ name ∈ names, isName name = true)
    (otherNamed : ∀ name ∈ others, isName name = true)
    (same : (Operand.field (names.map String.ofList)).text =
      (Operand.field (others.map String.ofList)).text) : names = others := by
  have texts := congrArg String.toList same
  rw [toList_text_field, toList_text_field] at texts
  have parts := congrArg (List.splitOn '.') texts
  rwa [List.splitOn_intercalate '.' (fun name listed => point_not_mem_of_isName (named name listed))
      nonempty,
    List.splitOn_intercalate '.'
      (fun name listed => point_not_mem_of_isName (otherNamed name listed)) otherNonempty] at parts

theorem eq_of_alike {left right : Condition} (written : left.Written)
    (otherWritten : right.Written) (alike : Alike left right) : left = right := by
  obtain ⟨names, nonempty, named, operand⟩ := written.operand
  obtain ⟨others, otherNonempty, otherNamed, otherOperand⟩ := otherWritten.operand
  have operands := alike.operand
  rw [operand, otherOperand] at operands
  have paths := operandText_injective nonempty otherNonempty named otherNamed operands
  have bounds := boundText_injective written.bound otherWritten.bound alike.bound
  have comparisons := alike.comparison
  cases left
  cases right
  simp only at operand otherOperand bounds comparisons
  rw [operand, otherOperand, paths, comparisons, bounds]

theorem eq_of_forall₂_alike {left right : List Condition} (legible : Legible left)
    (otherLegible : Legible right) (alike : List.Forall₂ Alike left right) : left = right := by
  induction alike with
  | nil => rfl
  | cons first _ ih =>
    rw [eq_of_alike (legible.written _ (.head _)) (otherLegible.written _ (.head _)) first,
      ih legible.tail otherLegible.tail]

/-- Searches with the same text have the same conditions. -/
theorem listText_injective {left right : List Condition} (nonempty : left ≠ [])
    (otherNonempty : right ≠ []) (legible : Legible left) (otherLegible : Legible right)
    (same : listText left = listText right) : left = right := by
  have group : (listText left).toList ++ ']' :: [] = (listText right).toList ++ ']' :: [] := by
    rw [same]
  obtain ⟨alike, -⟩ := listText_split nonempty otherNonempty legible otherLegible group
  exact eq_of_forall₂_alike legible otherLegible alike

end Stencil.Condition
