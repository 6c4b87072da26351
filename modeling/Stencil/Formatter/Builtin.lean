import Stencil.Formatter.Registry
import Stencil.Text.Casing
import Stencil.Value.Text

namespace Stencil.Formatter

open Numeric

/-!
# The formatters that are always there

Twelve formatters for texts, numbers and arrays.  Each passes on unchanged what
it is not made for: a text formatter leaves numbers alone, a number formatter
texts that are no numerals, an array formatter everything but arrays.  A missing
argument is replaced by a default, never an error.
-/

/-! ## Texts -/

/-- Apply a function to a text and to nothing else. -/
def onText (f : List Char → List Char) : Value → Value
  | .string s => .string (String.ofList (f s.toList))
  | other => other

/-- Upper case for the first character. -/
def capitalize : List Char → List Char
  | [] => []
  | c :: rest => Text.upperOf c ++ rest

/-- Upper case for each character after a blank, given whether one came before. -/
def capitalizeAfter (blankBefore : Bool) : List Char → List Char
  | [] => []
  | c :: rest =>
    let blank := Text.isBlank c
    (if blankBefore && !blank then Text.upperOf c else [c]) ++ capitalizeAfter blank rest

/-- Upper case for the first character of each word. -/
def capitalizeWords (cs : List Char) : List Char := capitalizeAfter true cs

/-- The first argument in place of the value, whatever that is. -/
def print (_ : Value) (arguments : List Value) : Value := arguments.headD .null

/-- The first argument in place of an empty value. -/
def ifEmpty (value : Value) (arguments : List Value) : Value :=
  if value.isEmpty then arguments.headD .null else value

/-! ## Numbers -/

/-- Cut off the fractional part; what exceeds 64 bits becomes the greatest or
least integer that fits. -/
def int (value : Value) : Value :=
  match value.toNumber?.bind Binary64.truncate? with
  | some n => .ofInt (max integerLeast (min n integerGreatest))
  | none => value

/-- The number of places asked for: whole, at most one hundred, and none for
anything that is no such number. -/
def placesOf (argument : Option Value) : Nat :=
  match argument.bind Value.toNumber? with
  | some x =>
    match x.truncate? with
    | some n => min n.toNat 100
    | none => 0
  | none => 0

/-- The number with fixed places, as a text. -/
def toFixed (value : Value) (arguments : List Value) : Value :=
  match value.toNumber? with
  | some x => .string (String.ofList (fixedText (placesOf arguments.head?) x))
  | none => value

/-- Exchange one decimal separator for another in the text of a scalar. -/
def changeSeparator (old new : Char) : Value → Value
  | .null => .null
  | .array items => .array items
  | .object fields => .object fields
  | scalar => .string (String.ofList (scalar.text.toList.map fun c => if c == old then new else c))

/-- A point as decimal separator. -/
def toEnglish : Value → Value := changeSeparator ',' '.'

/-- A comma as decimal separator. -/
def toFrench : Value → Value := changeSeparator '.' ','

/-! ## Arrays -/

/-- The text of an argument, or a default if it is missing or null. -/
def textArgument (arguments : List Value) (index : Nat) (default : String) : String :=
  match arguments[index]? with
  | none | some .null => default
  | some value => value.text

/-- The texts of the elements with a separator between them. -/
def arrayJoin (value : Value) (arguments : List Value) : Value :=
  match value with
  | .array items =>
    .string (String.intercalate (textArgument arguments 0 ", ") (items.map Value.text))
  | other => other

/-- Whether a value has no parts. -/
def isScalar : Value → Bool
  | .array _ => false
  | .object _ => false
  | _ => true

/-- The texts of one element: of the selected attributes, of all attributes that
are scalars if none is selected, or of the element itself if it is no object. -/
def attributeTexts (selected : List String) : Value → List String
  | .object fields =>
    if selected.isEmpty then (fields.map (·.2)).filter isScalar |>.map Value.text
    else selected.map fun name => ((fields.lookup name).map Value.text).getD ""
  | scalar => [scalar.text]

/-- One text of an array of objects: elements separated by the first argument,
attributes by the second, the others selecting attributes. -/
def arrayMap (value : Value) (arguments : List Value) : Value :=
  match value with
  | .array items =>
    let between := textArgument arguments 1 ":"
    let row (item : Value) : String :=
      String.intercalate between (attributeTexts ((arguments.drop 2).map Value.text) item)
    .string (String.intercalate (textArgument arguments 0 ", ") (items.map row))
  | other => other

/-! ## The registry -/

/-- The formatters of this module under the names used in markers. -/
def builtins : List (String × Function) :=
  [("lowerCase", fun value _ => onText Text.lowerCase value),
   ("upperCase", fun value _ => onText Text.upperCase value),
   ("ucFirst", fun value _ => onText capitalize value),
   ("ucWords", fun value _ => onText capitalizeWords value),
   ("print", print),
   ("ifEmpty", ifEmpty),
   ("int", fun value _ => int value),
   ("toFixed", toFixed),
   ("toEN", fun value _ => toEnglish value),
   ("toFR", fun value _ => toFrench value),
   ("arrayJoin", arrayJoin),
   ("arrayMap", arrayMap)]

end Stencil.Formatter

namespace Stencil

/-- A registry of all formatters that are always there. -/
def Registry.standard : Registry := Registry.empty.registerAll Formatter.builtins

end Stencil
