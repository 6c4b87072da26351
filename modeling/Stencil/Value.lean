import Stencil.Named
import Stencil.Numeric.Numeral
import Stencil.Numeric.Style
import Stencil.Text.Classes
import Stencil.Text.Quoted

namespace Stencil

open Numeric

/-!
# Payload values

A template is rendered against a tree of values: the shapes of a JSON document,
with integers kept apart from fractional numbers.  Objects are lists of fields
in ascending order of their names, each name once; `Value.ofFields` makes them
so.

Nothing here fails.  Looking up a field of something that is no object, or the
elements of something that is no array, finds nothing, and absence is the
caller's business.
-/

/-- A number is an integer when it was written as one and fits in 64 bits. -/
inductive Number where
  | integer (n : Int)
  | real (x : Binary64)
  deriving DecidableEq, Repr, Inhabited

/-- A payload or a part of one. -/
inductive Value where
  | null
  | bool (b : Bool)
  | number (n : Number)
  | string (s : String)
  | array (items : List Value)
  | object (fields : List (String × Value))
  deriving Repr, Inhabited

/-- The number as a fractional one, rounded if it is a large integer. -/
def Number.toBinary64 : Number → Binary64
  | .integer n => .ofInt n
  | .real x => x

/-- Equality of numbers of one kind; an integer never equals a fractional
number, and the two zeros are equal. -/
def Number.same : Number → Number → Bool
  | .integer m, .integer n => m == n
  | .real x, .real y => x.equals y
  | _, _ => false

namespace Value

/-! ## Objects -/

/-- The object with these fields; of two fields of one name the later counts. -/
def ofFields (fields : List (String × Value)) : Value :=
  .object (fields.foldl (fun made field => insertNamed field.1 field.2 made) [])

/-- An integer. -/
def ofInt (n : Int) : Value := .number (.integer n)

/-- A fractional number; what is not finite has no value but null. -/
def ofBinary64 (x : Binary64) : Value := if x.isFinite then .number (.real x) else .null

/-! ## Reading -/

/-- The field `name`.  The empty name designates the value itself. -/
def field? (value : Value) (name : String) : Option Value :=
  if name = "" then some value
  else
    match value with
    | .object fields => fields.lookup name
    | _ => none

/-- The elements a repetition runs over: none unless there is an array. -/
def elements : Option Value → List Value
  | some (.array items) => items
  | _ => []

/-- Whether nothing stands in the value: null, or an empty text, array or
object.  No number is empty but not-a-number. -/
def isEmpty : Value → Bool
  | .null => true
  | .bool _ => false
  | .number (.integer _) => false
  | .number (.real x) => x.isNaN
  | .string s => s.isEmpty
  | .array items => items.isEmpty
  | .object fields => fields.isEmpty

/-- The value as a number: texts are read as numerals, blanks around them
ignored, and truth counts one. -/
def toNumber? : Value → Option Binary64
  | .number n => some n.toBinary64
  | .string s => readBinary64? (Text.trim s.toList)
  | .bool b => some (.ofInt (if b then 1 else 0))
  | _ => none

/-! ## Equality -/

mutual

/-- Equality of values, numbers being compared as numbers of their kind. -/
def same : Value → Value → Bool
  | .null, .null => true
  | .bool a, .bool b => a == b
  | .number m, .number n => m.same n
  | .string s, .string t => s == t
  | .array items, .array others => sameItems items others
  | .object fields, .object others => sameFields fields others
  | _, _ => false

/-- Equality of arrays, element by element. -/
def sameItems : List Value → List Value → Bool
  | [], [] => true
  | a :: items, b :: others => same a b && sameItems items others
  | _, _ => false

/-- Equality of objects, field by field in order of the names. -/
def sameFields : List (String × Value) → List (String × Value) → Bool
  | [], [] => true
  | (name, a) :: fields, (other, b) :: others =>
    name == other && same a b && sameFields fields others
  | _, _ => false

end

/-! ## Size -/

mutual

/-- The number of values in the tree, the value itself included. -/
def weight : Value → Nat
  | .array items => weightItems items + 1
  | .object fields => weightFields fields + 1
  | _ => 1

/-- The weight of the elements of an array. -/
def weightItems : List Value → Nat
  | [] => 0
  | value :: items => weight value + weightItems items

/-- The weight of the fields of an object. -/
def weightFields : List (String × Value) → Nat
  | [] => 0
  | (_, value) :: fields => weight value + weightFields fields

end

/-! ## Literals -/

/-- The value of an unquoted word of a marker, where values are written without types: an
integer if it reads as one, else a fractional number if it reads as a finite one, else a
text. -/
def ofWord (word : List Char) : Value :=
  match readInteger? word with
  | some n => .number (.integer n)
  | none =>
    match readBinary64? word with
    | some x => if x.isFinite then .number (.real x) else .string (String.ofList word)
    | none => .string (String.ofList word)

end Value

end Stencil
