import Stencil.Access
import Stencil.Proofs.Condition.Reading
import Stencil.Proofs.Numeric.Nearest

namespace Stencil

open Numeric (Binary64 readInteger?)

/-!
# Conditions on integers

A condition with an integer for its bound compares the integer a path leads to with it.  Both
are taken for the numbers of the format nearest to them.  So the comparison is that of the
integers as long as these are told apart, and if they are not, they count as equal: a
condition asking for one integer then lets another pass, and a search binds it.
-/

/-- What a comparison says of two integers. -/
def Comparison.Relates : Comparison → Int → Int → Prop
  | equal, a, b => a = b
  | unequal, a, b => a ≠ b
  | greater, a, b => b < a
  | less, a, b => a < b

theorem Comparison.admits_compare (comparison : Comparison) (a b : Int) :
    comparison.admits (some (compare a b)) = true ↔ comparison.Relates a b := by
  cases comparison with
  | equal => simp [admits, Relates]
  | unequal => simp [admits, Relates]
  | greater => simp [admits, Relates, compare_gt_iff_gt]
  | less => simp [admits, Relates, compare_lt_iff_lt]

namespace Condition

open Numeric.Binary64 (Distinguished)

/-! ## Words that are integers -/

/-- A sign in front of a word is all that is split off it. -/
theorem splitSign_eq_or (word : List Char) :
    word = (Numeric.splitSign word).2 ∨
      ∃ sign, (sign = '-' ∨ sign = '+') ∧ word = sign :: (Numeric.splitSign word).2 := by
  unfold Numeric.splitSign
  split
  · exact .inr ⟨'-', .inl rfl, rfl⟩
  · exact .inr ⟨'+', .inr rfl, rfl⟩
  · exact .inl rfl

/-- Only digits and signs are read as an integer. -/
theorem isNumeralPart_of_readInteger? {word : List Char} {b : Int}
    (reads : readInteger? word = some b) :
    word ≠ [] ∧ ∀ c ∈ word, Value.isNumeralPart c = true := by
  have digits : Numeric.isDigits (Numeric.splitSign word).2 = true := by
    by_contra other
    simp only [readInteger?, other, if_false] at reads
    cases reads
  rcases Bool.and_eq_true_iff.mp digits with ⟨some, all⟩
  have parts : ∀ c ∈ (Numeric.splitSign word).2, Value.isNumeralPart c = true := by
    intro c member
    simp [Value.isNumeralPart, List.all_eq_true.mp all c member]
  rcases splitSign_eq_or word with same | ⟨sign, either, same⟩
  · rw [same]
    refine ⟨?_, parts⟩
    rintro none
    rw [none] at some
    cases some
  · rw [same]
    refine ⟨List.cons_ne_nil _ _, fun c member => ?_⟩
    rcases List.mem_cons.mp member with rfl | later
    · rcases either with rfl | rfl <;> rfl
    · exact parts c later

/-- A word that is read as an integer stands for it. -/
theorem readBound_of_readInteger? {word : List Char} {b : Int}
    (reads : readInteger? word = some b) : readBound word = .ofInt b := by
  rcases isNumeralPart_of_readInteger? reads with ⟨nonempty, parts⟩
  rcases List.exists_cons_of_ne_nil nonempty with ⟨first, rest, rfl⟩
  have unquoted : Text.isQuote first = false :=
    Text.isQuote_of_kind (parts first (.head _)) rfl rfl
  rw [readBound_word unquoted]
  simp only [Value.ofWord, reads, Value.ofInt]

/-! ## Comparing integers -/

theorem compareWith_ofInt (a b : Int) :
    compareWith (.ofInt a) (.ofInt b) =
      some (if Binary64.ofInt a = Binary64.ofInt b then .eq else compare a b) :=
  Binary64.compare?_ofInt a b

variable {condition : Condition} {path : List String} {element : Value} {a b : Int}

theorem holds_field (operand : condition.operand = .field path)
    (found : follow element path = some (.ofInt a)) (bound : condition.bound = .ofInt b)
    (index length : Nat) : condition.holds element index length =
      condition.comparison.admits
        (some (if Binary64.ofInt a = Binary64.ofInt b then .eq else compare a b)) := by
  unfold holds
  rw [operand, bound]
  simp only [found, ← compareWith_ofInt]
  rfl

/-- Integers that are told apart are compared as integers. -/
theorem holds_iff_relates (operand : condition.operand = .field path)
    (found : follow element path = some (.ofInt a)) (bound : condition.bound = .ofInt b)
    (apart : Distinguished a b) (index length : Nat) :
    condition.holds element index length = true ↔ condition.comparison.Relates a b := by
  rw [holds_field operand found bound, ← Comparison.admits_compare]
  rcases apart with rfl | differ
  · rw [if_pos rfl, compare_eq_iff_eq.mpr rfl]
  · rw [if_neg differ]

/-- Integers that become one number count as equal. -/
theorem holds_iff_relates_self (operand : condition.operand = .field path)
    (found : follow element path = some (.ofInt a)) (bound : condition.bound = .ofInt b)
    (confused : ¬ Distinguished a b) (index length : Nat) :
    condition.holds element index length = true ↔ condition.comparison.Relates b b := by
  have same : Binary64.ofInt a = Binary64.ofInt b := by
    by_contra differ
    exact confused (.inr differ)
  rw [holds_field operand found bound, if_pos same, ← Comparison.admits_compare,
    compare_eq_iff_eq.mpr rfl]

/-- What a search finds satisfies its conditions at the place where it stood. -/
theorem holds_of_reach {field : Option String} {conditions : List Condition}
    {parent : Option Value} (member : condition ∈ conditions)
    (found : (Access.search field conditions).reach parent = some element) :
    ∃ index length, condition.holds element index length = true := by
  have kept : ∃ items, (keep conditions items).head? = some element := by
    cases field with
    | none => exact ⟨_, found⟩
    | some name => exact ⟨_, found⟩
  rcases kept with ⟨items, first⟩
  rcases List.mem_map.mp (List.mem_of_mem_head? first) with ⟨item, listed, rfl⟩
  have all := (List.mem_filter.mp listed).2
  exact ⟨item.2, items.length, List.all_eq_true.mp all condition member⟩

/-! ## What a condition says of integers -/

/-- A condition on the integer that a path leads to, with `b` for its bound. -/
structure ComparesInteger (condition : Condition) (path : List String) (b : Int) : Prop where
  /-- One of them being small, the integers are compared. -/
  small : ∀ {element : Value} {a : Int}, follow element path = some (.ofInt a) →
    a.natAbs < 2 ^ 53 ∨ b.natAbs < 2 ^ 53 → ∀ index length,
      condition.holds element index length = true ↔ condition.comparison.Relates a b
  /-- So they are whenever they are told apart. -/
  apart : ∀ {element : Value} {a : Int}, follow element path = some (.ofInt a) →
    Distinguished a b → ∀ index length,
      condition.holds element index length = true ↔ condition.comparison.Relates a b
  /-- Otherwise they count as equal. -/
  confused : ∀ {element : Value} {a : Int}, follow element path = some (.ofInt a) →
    ¬ Distinguished a b → ∀ index length,
      condition.holds element index length = true ↔ condition.comparison.Relates b b
  /-- A search for the bound finds no other integer that can be told from it. -/
  searched : condition.comparison = .equal → ∀ {field : Option String}
    {conditions : List Condition} {parent : Option Value} {element : Value} {a : Int},
    condition ∈ conditions → (Access.search field conditions).reach parent = some element →
    follow element path = some (.ofInt a) → Distinguished a b → a = b

/-- A condition with an integer for its bound compares the integer its path leads to. -/
theorem integers_compared {names : List (List Char)} (nonempty : names ≠ [])
    (named : ∀ name ∈ names, isName name = true) {iterator : Option String}
    (further : iterator ≠ some (String.ofList (['.'].intercalate names)))
    (comparison : Comparison) {word : List Char} {b : Int} (reads : readInteger? word = some b) :
    ∃ condition, read? iterator (['.'].intercalate names ++ (comparison.symbol.toList ++ word)) =
        some condition ∧
      condition.comparison = comparison ∧
      condition.ComparesInteger (names.map String.ofList) b := by
  rcases isNumeralPart_of_readInteger? reads with ⟨present, parts⟩
  have line : '\n' ∉ word := by
    intro member
    exact absurd (parts '\n' member) (by decide)
  have operand : operandOf iterator names = .field (names.map String.ofList) := if_neg further
  refine ⟨_, read?_written nonempty named comparison present line iterator, rfl, ?_⟩
  rw [operand, readBound_of_readInteger? reads]
  exact
    { small := fun found small =>
        holds_iff_relates rfl found rfl (Binary64.distinguished_of_small small)
      apart := fun found apart => holds_iff_relates rfl found rfl apart
      confused := fun found confused => holds_iff_relates_self rfl found rfl confused
      searched := by
        intro equal field conditions parent element a member bound found apart
        rcases holds_of_reach member bound with ⟨index, length, holds⟩
        have related := (holds_iff_relates rfl found rfl apart index length).mp holds
        rw [equal] at related
        exact related }

/-- An element whose owner has this number. -/
def ownedBy (id : Int) : Value := .object [("owner", .object [("id", .ofInt id)])]

theorem integers_compared_plates :
    readInteger? "-9007199254740993".toList = some (-9007199254740993) ∧
      Distinguished (-9007199254740994) (-9007199254740993) ∧
      ∃ condition, read? (some "i") "owner.id<-9007199254740993".toList = some condition ∧
        ∀ index length, condition.holds (ownedBy (-9007199254740994)) index length = true := by
  have reads : readInteger? "-9007199254740993".toList = some (-9007199254740993) := by
    decide +kernel
  have apart : Distinguished (-9007199254740994) (-9007199254740993) := .inr (by decide +kernel)
  refine ⟨reads, apart, ?_⟩
  have names : ∀ name ∈ ["owner".toList, "id".toList], isName name = true := by decide
  rcases integers_compared (by decide) names (by decide +kernel : some "i" ≠ some _) .less reads with
    ⟨condition, read, less, compares⟩
  refine ⟨condition, read, fun index length => ?_⟩
  have related : Comparison.less.Relates (-9007199254740994) (-9007199254740993) := by
    show (-9007199254740994 : Int) < -9007199254740993
    decide
  rw [← less] at related
  exact (compares.apart rfl apart index length).mpr related

/-- The two elements become one number, so the first is bound for the second. -/
theorem integers_confused :
    ¬ Comparison.equal.Relates 9007199254740993 9007199254740992 ∧
      (read? none "owner.id=9007199254740992".toList).any (fun condition =>
        condition.holds (ownedBy 9007199254740993) 0 2 &&
          (((Access.search none [condition]).reach
            (some (.array [ownedBy 9007199254740993, ownedBy 9007199254740992]))).bind
              (follow · ["owner", "id"])).any
            fun found => found.text == "9007199254740993") = true := by
  refine ⟨?_, by decide +kernel⟩
  show ¬ (9007199254740993 : Int) = 9007199254740992
  decide

end Condition

end Stencil
