import Stencil.Value.Text

namespace Stencil

open Numeric

/-!
# Conditions on array elements

A repetition may keep only some elements of its array, and a search takes the
first that qualifies.  A condition compares either the place of the element in
its array or an attribute reached from it with a fixed value.

Numbers are compared as fractional numbers, everything else by its document
text.  An attribute that is absent or null differs from everything and is
neither greater nor less.
-/

/-- The four ways to compare. -/
inductive Comparison where
  | equal
  | unequal
  | greater
  | less
  deriving DecidableEq, Repr

/-- How a comparison is written. -/
def Comparison.symbol : Comparison → String
  | equal => "="
  | unequal => "!="
  | greater => ">"
  | less => "<"

/-- Whether an outcome satisfies the comparison.  Two things that cannot be
ordered are unequal and nothing else. -/
def Comparison.admits : Comparison → Option Ordering → Bool
  | equal, outcome => outcome == some .eq
  | unequal, outcome => outcome != some .eq
  | greater, outcome => outcome == some .gt
  | less, outcome => outcome == some .lt

/-- What is compared. -/
inductive Operand where
  /-- The place of the element, written as the iterator of its dimension. -/
  | position (iterator : String)
  /-- An attribute of the element, reached through attributes of attributes. -/
  | field (path : List String)
  deriving DecidableEq, Repr

/-- The operand as it is written. -/
def Operand.text : Operand → String
  | position iterator => iterator
  | field path => String.intercalate "." path

/-- One condition: the operand stands in the comparison to the bound. -/
structure Condition where
  operand : Operand
  comparison : Comparison
  bound : Value
  deriving Repr

namespace Condition

/-! ## Truth -/

/-- The order of a value and a bound: of the numbers if the bound is one and the
value can be read as one, of the texts otherwise. -/
def compareWith (found bound : Value) : Option Ordering :=
  match bound, found.toNumber? with
  | .number n, some x => x.compare? n.toBinary64
  | _, _ => some (compare found.text bound.text)

/-- The place a position is compared with.  A negative bound counts from the end
of the array; a bound that is not a number is no place. -/
def place? (bound : Value) (length : Nat) : Option Binary64 :=
  match bound with
  | .number n =>
    let place := n.toBinary64
    some (if place.isNegative then place.add (.ofNat length) else place)
  | _ => none

/-- The value an attribute path leads to. -/
def follow (element : Value) (path : List String) : Option Value :=
  path.foldlM (fun value name => value.field? name) element

/-- Whether the element at `index` of `length` satisfies the condition. -/
def holds (condition : Condition) (element : Value) (index length : Nat) : Bool :=
  match condition.operand with
  | .position _ =>
    match place? condition.bound length with
    | none => false
    | some place => condition.comparison.admits ((Binary64.ofNat index).compare? place)
  | .field path =>
    match follow element path with
    | none | some .null => condition.comparison == .unequal
    | some found => condition.comparison.admits (compareWith found condition.bound)

/-- Whether an element satisfies all conditions. -/
def allHold (conditions : List Condition) (element : Value) (index length : Nat) : Bool :=
  conditions.all fun condition => condition.holds element index length

/-- The elements that satisfy all conditions, in order.  The places are those in
the whole array. -/
def keep (conditions : List Condition) (items : List Value) : List Value :=
  let length := items.length
  (items.zipIdx.filter fun item => allHold conditions item.1 item.2 length).map (·.1)

/-- Equality of conditions; the bounds are compared as values. -/
def same (left right : Condition) : Bool :=
  left.operand == right.operand && left.comparison == right.comparison &&
    left.bound.same right.bound

/-! ## Texts -/

/-- The condition as it is written, a text bound between apostrophes. -/
def text (condition : Condition) : String :=
  condition.operand.text ++ condition.comparison.symbol ++
    match condition.bound with
    | .string s => "'" ++ s ++ "'"
    | other => other.json

/-- The conditions of one group, a comma between each two. -/
def listText (conditions : List Condition) : String :=
  String.intercalate "," (conditions.map text)

end Condition

end Stencil
