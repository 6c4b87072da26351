import Stencil.Proofs.Condition.Distinct
import Stencil.Proofs.Text.Splitting

namespace Stencil.Condition

/-!
# Conditions are read as they are written

A path of names, a comparison and a bound, one behind the other, are read as just these
three: no name holds a point or the beginning of a comparison, and no comparison is the
beginning of a longer one that the text could be taken for.  What the bound stands for is
left to its own reader.
-/

/-! ## Bounds -/

theorem unquote?_quoted (quote : Char) (inner : List Char) :
    Text.unquote? quote (quote :: (inner ++ [quote])) = some inner := by
  simp [Text.unquote?, Text.dropLast?_concat]

theorem unquote?_eq_none {quote first : Char} {rest : List Char} (other : first ≠ quote) :
    Text.unquote? quote (first :: rest) = none := by
  simp [Text.unquote?, other]

/-- What does not begin with a quote is a word. -/
theorem readBound_word {first : Char} {rest : List Char} (unquoted : Text.isQuote first = false) :
    readBound (first :: rest) = .ofWord (first :: rest) := by
  have apostrophe : first ≠ '\'' := by
    rintro rfl
    cases unquoted
  have double : first ≠ '"' := by
    rintro rfl
    cases unquoted
  simp only [readBound, unquote?_eq_none apostrophe, unquote?_eq_none double]

/-! ## Comparisons -/

/-- A comparison is read behind a path. -/
theorem readComparison?_symbol (comparison : Comparison) (rest : List Char) :
    readComparison? (comparison.symbol.toList ++ rest) = some (comparison, rest) := by
  cases comparison <;> rfl

/-- The symbol of a comparison begins with a character of neither a path nor an iterator. -/
theorem symbol_eq_cons (comparison : Comparison) : ∃ first rest,
    comparison.symbol.toList = first :: rest ∧ isPathPart first = false ∧ first ≠ '+' := by
  cases comparison with
  | equal => exact ⟨'=', [], rfl, rfl, by decide⟩
  | unequal => exact ⟨'!', ['='], rfl, rfl, by decide⟩
  | greater => exact ⟨'>', [], rfl, rfl, by decide⟩
  | less => exact ⟨'<', [], rfl, rfl, by decide⟩

/-! ## Conditions -/

/-- What a path of names stands for: the place of the element if it is the iterator. -/
def operandOf (iterator : Option String) (names : List (List Char)) : Operand :=
  if iterator = some (String.ofList (['.'].intercalate names)) then
    .position (String.ofList (['.'].intercalate names))
  else .field (names.map String.ofList)

/-- A path, a comparison and a bound on one line are read as such. -/
theorem read?_written {names : List (List Char)} (nonempty : names ≠ [])
    (named : ∀ name ∈ names, isName name = true) (comparison : Comparison) {bound : List Char}
    (present : bound ≠ []) (line : '\n' ∉ bound) (iterator : Option String) :
    read? iterator (['.'].intercalate names ++ (comparison.symbol.toList ++ bound)) =
      some ⟨operandOf iterator names, comparison, readBound bound⟩ := by
  have run : ∀ c ∈ ['.'].intercalate names, isPathPart c = true := by
    intro c member
    rw [← toList_text_field] at member
    exact isPathPart_of_mem_text named member
  rcases symbol_eq_cons comparison with ⟨first, rest, symbol, stops, -⟩
  have path : (['.'].intercalate names ++ (comparison.symbol.toList ++ bound)).takeWhile
      (fun c => isNamePart c || c == '.') = ['.'].intercalate names := by
    rw [symbol]
    exact Text.takeWhile_of_stopsAt run (Text.stopsAt_of_eq_false stops)
  have parts : Text.splitAll '.' (['.'].intercalate names) = names := by
    rw [Text.splitAll_eq_splitOn]
    exact List.splitOn_intercalate '.'
      (fun name listed => point_not_mem_of_isName (named name listed)) nonempty
  have all : names.all isName = true := List.all_eq_true.mpr named
  have valid : (bound.isEmpty || bound.contains '\n') = false := by
    rw [Bool.or_eq_false_iff, List.isEmpty_eq_false_iff]
    refine ⟨present, ?_⟩
    rw [Bool.eq_false_iff, ne_eq, List.contains_iff_mem]
    exact line
  unfold read?
  simp only [path, parts, all, if_true, List.drop_left, readComparison?_symbol, valid,
    Bool.false_eq_true, if_false, operandOf]

end Stencil.Condition
