import Stencil.Proofs.Condition.Reading

namespace Stencil

/-!
# What equal and unequal leave over

A comparison is asked about the outcome of comparing, and there is always one, be it that the
two cannot be ordered.  So of two conditions that differ by equal and unequal just one holds
of an element, and a repetition with the one and a repetition with the other share the
elements out between them.

One case has no outcome: a place in an array is compared with numbers only.  A condition that
compares it with a text holds of no element, whichever comparison it asks for.
-/

/-! ## Comparisons of one outcome -/

theorem Comparison.admits_unequal (outcome : Option Ordering) :
    unequal.admits outcome = !equal.admits outcome := rfl

/-- Equal, greater and less exclude one another. -/
theorem Comparison.eq_of_admits {comparison other : Comparison} {outcome : Option Ordering}
    (definite : comparison ≠ unequal) (alsoDefinite : other ≠ unequal)
    (admitted : comparison.admits outcome = true) (alsoAdmitted : other.admits outcome = true) :
    comparison = other := by
  have single : ∀ {comparison : Comparison}, comparison ≠ unequal →
      comparison.admits outcome = true →
        ∃ order, outcome = some order ∧ comparison = match order with
          | .eq => equal
          | .gt => greater
          | .lt => less := by
    intro comparison definite admitted
    cases comparison with
    | equal => exact ⟨.eq, eq_of_beq admitted, rfl⟩
    | unequal => exact absurd rfl definite
    | greater => exact ⟨.gt, eq_of_beq admitted, rfl⟩
    | less => exact ⟨.lt, eq_of_beq admitted, rfl⟩
  rcases single definite admitted with ⟨order, found, rfl⟩
  rcases single alsoDefinite alsoAdmitted with ⟨otherOrder, alsoFound, rfl⟩
  cases Option.some.inj (found.symm.trans alsoFound)
  rfl

namespace Condition

variable {condition : Condition} {element : Value} {index length : Nat}

/-! ## The outcome of comparing -/

/-- The condition with another comparison. -/
def compared (condition : Condition) (comparison : Comparison) : Condition :=
  { condition with comparison }

/-- What comparing comes to; nothing where the two cannot be ordered. -/
def outcome (condition : Condition) (element : Value) (index length : Nat) : Option Ordering :=
  match condition.operand with
  | .position _ => (place? condition.bound length).bind (Numeric.Binary64.ofNat index).compare?
  | .field path =>
    match follow element path with
    | none | some .null => none
    | some found => compareWith found condition.bound

/-- The operand can be compared with the bound: a place only with a number. -/
def Comparable (condition : Condition) : Prop :=
  ∀ iterator, condition.operand = .position iterator → ∃ n, condition.bound = .number n

theorem place?_eq_none_iff {bound : Value} :
    place? bound length = none ↔ ∀ n, bound ≠ .number n := by
  cases bound <;> simp [place?]

/-- What can be compared satisfies the comparisons that its outcome admits. -/
theorem holds_eq_admits (comparable : condition.Comparable) (element : Value)
    (index length : Nat) :
    condition.holds element index length =
      condition.comparison.admits (condition.outcome element index length) := by
  unfold holds outcome
  cases operand : condition.operand with
  | position iterator =>
    rcases comparable iterator operand with ⟨n, bound⟩
    rcases Option.ne_none_iff_exists'.mp
      (fun none => place?_eq_none_iff.mp none n bound : place? condition.bound length ≠ none) with
      ⟨place, found⟩
    dsimp only
    rw [found, Option.bind_some]
  | field path =>
    dsimp only
    cases follow element path with
    | none => cases condition.comparison <;> rfl
    | some found =>
      cases found with
      | null => cases condition.comparison <;> rfl
      | _ => rfl

/-- What cannot be compared satisfies nothing. -/
theorem holds_eq_false (incomparable : ¬ condition.Comparable) (element : Value)
    (index length : Nat) : condition.holds element index length = false := by
  simp only [Comparable, not_forall, not_exists] at incomparable
  rcases incomparable with ⟨iterator, operand, bound⟩
  unfold holds
  rw [operand]
  simp only [place?_eq_none_iff.mpr bound]

/-! ## Equal and unequal -/

theorem comparable_compared {comparison : Comparison} :
    (condition.compared comparison).Comparable ↔ condition.Comparable := Iff.rfl

theorem holds_compared (comparable : condition.Comparable) (comparison : Comparison)
    (element : Value) (index length : Nat) :
    (condition.compared comparison).holds element index length =
      comparison.admits (condition.outcome element index length) :=
  holds_eq_admits (comparable_compared.mpr comparable) element index length

/-- Just one of equal and unequal holds, provided that there is something to compare. -/
theorem holds_unequal_iff : (∀ element index length,
    (condition.compared .unequal).holds element index length =
      !(condition.compared .equal).holds element index length) ↔ condition.Comparable := by
  constructor
  · intro complements
    by_contra incomparable
    have neither : ∀ comparison, (condition.compared comparison).holds .null 0 0 = false :=
      fun comparison => holds_eq_false (mt comparable_compared.mp incomparable) .null 0 0
    have both := complements .null 0 0
    rw [neither, neither] at both
    cases both
  · intro comparable element index length
    rw [holds_compared comparable, holds_compared comparable, Comparison.admits_unequal]

/-- Of equal, greater and less at most one holds. -/
theorem eq_of_holds {comparison other : Comparison} (definite : comparison ≠ .unequal)
    (alsoDefinite : other ≠ .unequal)
    (holds : (condition.compared comparison).holds element index length = true)
    (alsoHolds : (condition.compared other).holds element index length = true) :
    comparison = other := by
  by_cases comparable : condition.Comparable
  · rw [holds_compared comparable] at holds alsoHolds
    exact Comparison.eq_of_admits definite alsoDefinite holds alsoHolds
  · rw [holds_eq_false (mt comparable_compared.mp comparable)] at holds
    cases holds

/-! ## Repetitions with one and with the other -/

/-- The elements that satisfy one more condition are some of those that satisfy the others. -/
theorem keep_cons (condition : Condition) (more : List Condition) (items : List Value) :
    keep (condition :: more) items =
      ((items.zipIdx.filter fun item => allHold more item.1 item.2 items.length).filter
        fun item => condition.holds item.1 item.2 items.length).map (·.1) := by
  rw [List.filter_filter]
  rfl

/-- Two repetitions that differ by equal and unequal keep every element of the array once. -/
theorem keep_append_perm (comparable : condition.Comparable) (more : List Condition)
    (items : List Value) :
    (keep (condition.compared .equal :: more) items ++
      keep (condition.compared .unequal :: more) items).Perm (keep more items) := by
  have complements := holds_unequal_iff.mpr comparable
  rw [keep_cons, keep_cons, ← List.map_append]
  simp only [complements]
  exact (List.filter_append_perm _ _).map _

/-- The condition with equal and the one with unequal share the elements out. -/
structure SharesOut (condition : Condition) : Prop where
  /-- Just one of the two holds of an element. -/
  complements : ∀ element index length,
    (condition.compared .unequal).holds element index length =
      !(condition.compared .equal).holds element index length
  /-- So a repetition with the one and a repetition with the other, their other conditions being
  the same, keep each element once that satisfies the others. -/
  shares : ∀ more items,
    (keep (condition.compared .equal :: more) items ++
      keep (condition.compared .unequal :: more) items).Perm (keep more items)

theorem sharesOut_of_comparable (comparable : condition.Comparable) : condition.SharesOut where
  complements := holds_unequal_iff.mpr comparable
  shares := keep_append_perm comparable

/-! ## Conditions as they are written -/

/-- Of conditions that differ by their comparison, at most one of equal, greater and less holds,
and just one of equal and unequal.  Only a place compared with a text satisfies neither. -/
theorem equality_splits {names : List (List Char)} (nonempty : names ≠ [])
    (named : ∀ name ∈ names, isName name = true) (iterator : Option String) {word : List Char}
    (present : word ≠ []) (line : '\n' ∉ word) :
    ∃ condition : Condition,
      (∀ comparison : Comparison,
        read? iterator (['.'].intercalate names ++ (comparison.symbol.toList ++ word)) =
          some (condition.compared comparison)) ∧
      (∀ (comparison other : Comparison) element index length,
        comparison ≠ .unequal → other ≠ .unequal →
        (condition.compared comparison).holds element index length = true →
        (condition.compared other).holds element index length = true → comparison = other) ∧
      ((iterator = some (String.ofList (['.'].intercalate names)) →
        ∃ n, readBound word = .number n) → condition.SharesOut) ∧
      (iterator = some (String.ofList (['.'].intercalate names)) →
        (∀ n, readBound word ≠ .number n) → ∀ comparison element index length,
          (condition.compared comparison).holds element index length = false) := by
  refine ⟨⟨operandOf iterator names, .equal, readBound word⟩, ?_, ?_, ?_, ?_⟩
  · exact fun comparison => read?_written nonempty named comparison present line iterator
  · exact fun comparison other element index length definite alsoDefinite holds alsoHolds =>
      eq_of_holds definite alsoDefinite holds alsoHolds
  · intro numeral
    refine sharesOut_of_comparable fun place operand => numeral ?_
    by_contra further
    rw [operandOf, if_neg further] at operand
    cases operand
  · intro same text comparison element index length
    refine holds_eq_false (fun comparable => ?_) element index length
    rcases comparable _ (if_pos same) with ⟨n, bound⟩
    exact text n bound

/-- The last place of a queue and the others. -/
theorem equality_splits_queue :
    (∃ n, readBound "-1".toList = .number n) ∧
      ∃ last others : Condition, read? (some "i") "i=-1".toList = some last ∧
        read? (some "i") "i!=-1".toList = some others ∧
        ∀ items, (keep [last] items ++ keep [others] items).Perm (keep [] items) := by
  have numeral : ∃ n, readBound "-1".toList = .number n := ⟨.integer (-1), rfl⟩
  have named : ∀ name ∈ ["i".toList], isName name = true := by decide
  have present : "-1".toList ≠ [] := by decide
  refine ⟨numeral, ?_⟩
  rcases equality_splits (by decide) named (some "i") present (by decide) with
    ⟨condition, read, -, shares, -⟩
  exact ⟨_, _, read .equal, read .unequal, (shares fun _ => numeral).shares []⟩

/-- No place is the first one by name, and none is another one. -/
theorem place_compared_with_text :
    (read? (some "i") "i=first".toList).any (fun equal =>
      (read? (some "i") "i!=first".toList).any fun unequal =>
        !equal.holds .null 0 1 && !unequal.holds .null 0 1 &&
          (keep [equal] [.null] ++ keep [unequal] [.null]).isEmpty) = true := by
  decide +kernel

end Condition

end Stencil
