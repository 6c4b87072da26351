import Stencil.Marker.Reader
import Stencil.Proofs.Condition.Distinct
import Stencil.Proofs.Text.Splitting

namespace Stencil.Marker

open Text (Lexeme isBlank isQuote)
open Text.Lexeme (bareOf write)

/-!
# Paths as they are written

A path is written as segments with points between them, each a name and groups in brackets.
A group lists an iterator and conditions in any order, with commas between them.  The
forms of this module keep what the groups of a path forget: the order of the items and the
quotes around the texts.  Each of them stands for one part of a path, and is written in
lexemes; blanks may be put between these and nowhere else.
-/

/-! ## Forms -/

/-- An integer of 64 bits, or a text on one line between quotes that it does not hold. -/
inductive BoundForm where
  | integer (n : Int) (fits : Numeric.integerLeast ≤ n ∧ n ≤ Numeric.integerGreatest)
  | text (quote : Char) (inner : List Char) (quotes : isQuote quote = true)
      (closed : quote ∉ inner) (line : '\n' ∉ inner)

/-- A path of names with points between them, compared with a bound. -/
structure ConditionForm where
  names : List (List Char)
  nonempty : names ≠ []
  named : ∀ name ∈ names, Condition.isName name = true
  comparison : Comparison
  bound : BoundForm

/-- An iterator, one further if it terminates, or a condition. -/
inductive ItemForm where
  | iterator (name : List Char) (named : Condition.isName name = true) (terminates : Bool)
  | condition (form : ConditionForm)

/-- The iterator that an item is. -/
def ItemForm.iterator? : ItemForm → Option (String × Bool)
  | iterator name _ terminates => some (String.ofList name, terminates)
  | condition _ => none

/-- The condition that an item is. -/
def ItemForm.condition? : ItemForm → Option ConditionForm
  | iterator _ _ _ => none
  | condition form => some form

/-- Items, among them at most one iterator. -/
structure GroupForm where
  items : List ItemForm
  nonempty : items ≠ []
  single : (items.filterMap ItemForm.iterator?).length ≤ 1

/-- A name may hold all characters but blanks, points, colons and brackets. -/
def isSegmentPart (c : Char) : Bool :=
  !isBlank c && !(['.', ':', '[', ']'].contains c)

/-- A name and groups. -/
structure SegmentForm where
  name : List Char
  nonempty : name ≠ []
  plain : ∀ c ∈ name, isSegmentPart c = true
  groups : List GroupForm

/-- At least one segment. -/
structure PathForm where
  segments : List SegmentForm
  nonempty : segments ≠ []

/-! ## What they stand for -/

def BoundForm.value : BoundForm → Value
  | integer n _ => .number (.integer n)
  | text _ inner _ _ _ => .string (String.ofList inner)

/-- The names with points between them. -/
def ConditionForm.path (form : ConditionForm) : List Char := ['.'].intercalate form.names

/-- In a group whose iterator is the path itself, the place of the element is compared. -/
def ConditionForm.condition (form : ConditionForm) (iterator : Option String) : Condition where
  operand :=
    if iterator = some (String.ofList form.path) then .position (String.ofList form.path)
    else .field (form.names.map String.ofList)
  comparison := form.comparison
  bound := form.bound.value

def GroupForm.iterator? (form : GroupForm) : Option (String × Bool) :=
  (form.items.filterMap ItemForm.iterator?).head?

def GroupForm.group (form : GroupForm) : Group where
  iterator := form.iterator?.map Prod.fst
  terminates := (form.iterator?.map Prod.snd).getD false
  conditions := (form.items.filterMap ItemForm.condition?).map fun condition =>
    condition.condition (form.iterator?.map Prod.fst)

def SegmentForm.segment (form : SegmentForm) : Segment :=
  ⟨String.ofList form.name, form.groups.map GroupForm.group⟩

/-! ## How they are written -/

def BoundForm.lexemes : BoundForm → List Lexeme
  | integer n _ => bareOf (Numeric.integerText n)
  | text quote inner _ _ _ => [.quoted quote inner]

def ConditionForm.lexemes (form : ConditionForm) : List Lexeme :=
  bareOf (form.path ++ form.comparison.symbol.toList) ++ form.bound.lexemes

def ItemForm.lexemes : ItemForm → List Lexeme
  | iterator name _ terminates => bareOf (name ++ if terminates then ['+', '1'] else [])
  | condition form => form.lexemes

/-- What stands between the brackets of a group. -/
def GroupForm.content (form : GroupForm) : List Lexeme :=
  [Lexeme.bare ','].intercalate (form.items.map ItemForm.lexemes)

def GroupForm.lexemes (form : GroupForm) : List Lexeme :=
  .bare '[' :: (form.content ++ [.bare ']'])

def SegmentForm.lexemes (form : SegmentForm) : List Lexeme :=
  bareOf form.name ++ form.groups.flatMap GroupForm.lexemes

def PathForm.lexemes (form : PathForm) : List Lexeme :=
  [Lexeme.bare '.'].intercalate (form.segments.map SegmentForm.lexemes)

/-! ## The characters of items -/

/-- The characters of items outside of quotes. -/
def isItemPart (c : Char) : Bool :=
  Condition.isNamePart c || ['.', '+', '-', '=', '!', '<', '>'].contains c

theorem isQuote_of_isItemPart {c : Char} (part : isItemPart c = true) : isQuote c = false :=
  Text.isQuote_of_kind part rfl rfl

theorem isBlank_of_isNamePart {c : Char} (part : Condition.isNamePart c = true) :
    isBlank c = false := by
  have cases : ((c.isUpper || c.isLower) || c == '_' || c.isDigit) = true := part
  simp only [Bool.or_eq_true, beq_iff_eq] at cases
  have bounds : 32 < c.toNat ∧ c.toNat < 128 := by
    rcases cases with ((upper | lower) | rfl) | digit
    · have range : 'A'.val ≤ c.val ∧ c.val ≤ 'Z'.val := of_decide_eq_true upper
      exact ⟨Nat.lt_of_lt_of_le (by decide) range.1, Nat.lt_of_le_of_lt range.2 (by decide)⟩
    · have range := Bool.and_eq_true_iff.mp lower
      exact ⟨Nat.lt_of_lt_of_le (by decide) (of_decide_eq_true range.1),
        Nat.lt_of_le_of_lt (of_decide_eq_true range.2) (by decide)⟩
    · decide
    · have range := Bool.and_eq_true_iff.mp digit
      exact ⟨Nat.lt_of_lt_of_le (by decide) (of_decide_eq_true range.1),
        Nat.lt_of_le_of_lt (of_decide_eq_true range.2) (by decide)⟩
  simp only [isBlank, bounds.2, if_true, Bool.or_eq_false_iff, Bool.and_eq_false_iff,
    beq_eq_false_iff_ne, decide_eq_false_iff_not]
  omega

theorem isBlank_of_isItemPart {c : Char} (part : isItemPart c = true) : isBlank c = false := by
  unfold isItemPart at part
  rcases Bool.or_eq_true_iff.mp part with name | mark
  · exact isBlank_of_isNamePart name
  · simp only [List.contains_iff_mem, List.mem_cons, List.not_mem_nil, or_false] at mark
    rcases mark with rfl | rfl | rfl | rfl | rfl | rfl | rfl <;> rfl

theorem isItemPart_of_isNamePart {c : Char} (part : Condition.isNamePart c = true) :
    isItemPart c = true := by
  unfold isItemPart
  rw [part, Bool.true_or]

theorem isNamePart_of_isDigit {c : Char} (digit : c.isDigit = true) :
    Condition.isNamePart c = true := by
  unfold Condition.isNamePart
  rw [digit, Bool.or_true]

theorem isItemPart_of_mem_integerText {n : Int} {c : Char} (member : c ∈ Numeric.integerText n) :
    isItemPart c = true := by
  rcases Numeric.isDigit_or_sign member with digit | rfl
  · exact isItemPart_of_isNamePart (isNamePart_of_isDigit digit)
  · rfl

theorem ConditionForm.isPathPart_of_mem (form : ConditionForm) {c : Char} (member : c ∈ form.path) :
    Condition.isPathPart c = true := by
  rcases Condition.mem_intercalate member with point | ⟨name, listed, inside⟩
  · rw [List.mem_singleton.mp point]
    rfl
  · simp [Condition.isPathPart, Condition.isNamePart_of_isName (form.named name listed) c inside]

theorem isItemPart_of_isPathPart {c : Char} (part : Condition.isPathPart c = true) :
    isItemPart c = true := by
  rcases Bool.or_eq_true_iff.mp part with name | point
  · exact isItemPart_of_isNamePart name
  · rw [eq_of_beq point]
    rfl

theorem BoundForm.of_lexemes (form : BoundForm) :
    ∀ lexeme ∈ form.lexemes, lexeme.Of fun c => isItemPart c = true := by
  cases form with
  | integer n fits => exact Lexeme.of_bareOf fun c member => isItemPart_of_mem_integerText member
  | text quote inner quotes closed line =>
    intro lexeme listed
    rw [List.mem_singleton.mp listed]
    exact ⟨quotes, closed⟩

theorem ItemForm.of_lexemes (form : ItemForm) :
    ∀ lexeme ∈ form.lexemes, lexeme.Of fun c => isItemPart c = true := by
  cases form with
  | iterator name named terminates =>
    refine Lexeme.of_bareOf fun c member => ?_
    rcases List.mem_append.mp member with part | further
    · exact isItemPart_of_isNamePart (Condition.isNamePart_of_isName named c part)
    · cases terminates with
      | false => cases further
      | true =>
        rcases List.mem_pair.mp further with rfl | rfl <;> rfl
  | condition form =>
    intro lexeme listed
    rcases List.mem_append.mp listed with front | bound
    · refine Lexeme.of_bareOf (fun c member => ?_) lexeme front
      rcases List.mem_append.mp member with part | symbol
      · exact isItemPart_of_isPathPart (form.isPathPart_of_mem part)
      · cases comparison : form.comparison <;> rw [comparison] at symbol <;>
          simp [Comparison.symbol] at symbol <;> (rcases symbol with rfl | rfl) <;> rfl
    · exact form.bound.of_lexemes lexeme bound

end Stencil.Marker
