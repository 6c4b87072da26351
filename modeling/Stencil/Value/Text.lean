import Stencil.Value

namespace Stencil

open Numeric

/-!
# The texts of a value

A value has two texts.  The compact JSON text shows it exactly: a fractional
number keeps its point even when it is whole, and a text its quotes.  The
document text is what is inserted where a marker stood: texts as they are, whole
numbers without a point, nothing at all for null, and the JSON text for arrays
and objects, which no document can hold otherwise.
-/

/-! ## JSON -/

/-- Numbers from `1e-5` up to below `1e16` are written without an exponent.
What is not finite has no JSON form and is written as null. -/
def Value.jsonStyle : Style where
  ties := .even
  positional := some (-5, 15)
  wholeMark := ['.', '0']
  signedZero := true
  nanText := ['n', 'u', 'l', 'l']
  infinityText := ['n', 'u', 'l', 'l']
  negativeInfinityText := ['n', 'u', 'l', 'l']

/-- One character of a JSON string.  Only the quote, the backslash and the
control characters below the space are escaped. -/
def Value.jsonChar (c : Char) : List Char :=
  if c == '"' then ['\\', '"']
  else if c == '\\' then ['\\', '\\']
  else if c == '\n' then ['\\', 'n']
  else if c == '\r' then ['\\', 'r']
  else if c == '\t' then ['\\', 't']
  else if c.toNat == 8 then ['\\', 'b']
  else if c.toNat == 12 then ['\\', 'f']
  else if c.toNat < 32 then
    ['\\', 'u', '0', '0'] ++ (if c.toNat < 16 then ['0'] else []) ++ Nat.toDigits 16 c.toNat
  else [c]

/-- A text between quotes. -/
def Value.jsonString (text : String) : String :=
  String.ofList ('"' :: (text.toList.flatMap jsonChar ++ ['"']))

/-- The JSON text of a number. -/
def Number.json : Number → String
  | .integer n => String.ofList (integerText n)
  | .real x => String.ofList (Value.jsonStyle.text x)

namespace Value

mutual

/-- The compact JSON text of a value. -/
def json : Value → String
  | .null => "null"
  | .bool b => if b then "true" else "false"
  | .number n => n.json
  | .string s => jsonString s
  | .array items => "[" ++ String.intercalate "," (jsonItems items) ++ "]"
  | .object fields => "\x7b" ++ String.intercalate "," (jsonFields fields) ++ "\x7d"

/-- The texts of the elements of an array. -/
def jsonItems : List Value → List String
  | [] => []
  | value :: items => json value :: jsonItems items

/-- The texts of the fields of an object. -/
def jsonFields : List (String × Value) → List String
  | [] => []
  | (name, value) :: fields => (jsonString name ++ ":" ++ json value) :: jsonFields fields

end

/-! ## Document text -/

/-- In a document every number is written out in full, and no zero has a sign. -/
def documentStyle : Style where
  ties := .away
  positional := none
  wholeMark := []
  signedZero := false
  nanText := ['N', 'a', 'N']
  infinityText := ['i', 'n', 'f']
  negativeInfinityText := ['-', 'i', 'n', 'f']

/-- The text of a fractional number in a document. -/
def binary64Text (x : Binary64) : String := String.ofList (documentStyle.text x)

/-- The text inserted in the document. -/
def text : Value → String
  | .null => ""
  | .string s => s
  | .bool b => if b then "true" else "false"
  | .number (.integer n) => String.ofList (integerText n)
  | .number (.real x) => binary64Text x
  | .array items => json (.array items)
  | .object fields => json (.object fields)

end Value

end Stencil
