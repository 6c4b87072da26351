import Stencil.Value.Text

namespace Stencil.Formatter

/-!
# Formatter calls

A marker may hand its value through formatters before it is inserted.  A call
names a formatter and its further arguments; an argument is fixed, or is a field
looked up when the template is rendered.
-/

/-- A further argument of a formatter. -/
inductive Argument where
  | literal (value : Value)
  /-- The field `name` of the scope that is `up` levels above the marker's own. -/
  | field (up : Nat) (name : String)
  deriving Repr

/-- A formatter by name with its further arguments. -/
structure Call where
  name : String
  arguments : List Argument
  deriving Repr

/-- The argument as it is written: a text between apostrophes, a field with one
point more than levels climbed. -/
def Argument.text : Argument → String
  | literal (.string s) => "'" ++ s ++ "'"
  | literal value => value.json
  | field up name => String.ofList (List.replicate (up + 1) '.') ++ name

end Stencil.Formatter
