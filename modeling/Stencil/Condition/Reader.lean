import Stencil.Condition
import Stencil.Text.Splitting

namespace Stencil.Condition

/-!
# Reading a condition

A condition is an attribute path, a comparison and a bound, without blanks: the
caller has removed those outside quotes.  The path is the longest run of name
characters and points at the front, so no part of the text can be read in two
ways.  When the path is the iterator of the group, the condition is one on the
place of the element.
-/

/-- Letters of ASCII and the underscore. -/
def isNameStart (c : Char) : Bool := c.isAlpha || c == '_'

/-- Characters of a name after its first. -/
def isNamePart (c : Char) : Bool := isNameStart c || c.isDigit

/-- A name of ASCII letters, digits and underscores, not beginning with a digit. -/
def isName : List Char → Bool
  | [] => false
  | c :: rest => isNameStart c && rest.all isNamePart

/-- Split a comparison off the front; the longer of two is tried first. -/
def readComparison? : List Char → Option (Comparison × List Char)
  | '!' :: '=' :: rest => some (.unequal, rest)
  | '=' :: rest => some (.equal, rest)
  | '>' :: rest => some (.greater, rest)
  | '<' :: rest => some (.less, rest)
  | _ => none

/-- The value of a bound: the text between quotes, or a word. -/
def readBound (cs : List Char) : Value :=
  match Text.unquote? '\'' cs with
  | some inner => .string (String.ofList inner)
  | none =>
    match Text.unquote? '"' cs with
    | some inner => .string (String.ofList inner)
    | none => .ofWord cs

/-- Read a condition of a group with the given iterator.  The bound is not empty
and contains no line break. -/
def read? (iterator : Option String) (cs : List Char) : Option Condition :=
  let path := cs.takeWhile fun c => isNamePart c || c == '.'
  let names := Text.splitAll '.' path
  if names.all isName then
    match readComparison? (cs.drop path.length) with
    | some (comparison, bound) =>
      if bound.isEmpty || bound.contains '\n' then none
      else
        let operand : Operand :=
          if iterator = some (String.ofList path) then .position (String.ofList path)
          else .field (names.map String.ofList)
        some ⟨operand, comparison, readBound bound⟩
    | none => none
  else none

end Stencil.Condition
