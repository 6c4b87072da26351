import Stencil.Condition

namespace Stencil

/-!
# From the value of a scope to that of an inner one

A scope is bound to a value found from the value of the scope around it.  When
something on the way is missing the scope is bound to nothing; that is not an
error, and scopes inside it are bound to nothing in turn.
-/

/-- How the value of a scope is found from that of its parent. -/
inductive Access where
  /-- An attribute. -/
  | field (name : String)
  /-- The value itself: an inner dimension of an array, or an array at the top. -/
  | whole
  /-- The first element satisfying the conditions, of an attribute or of the
  value itself. -/
  | search (field : Option String) (conditions : List Condition)
  deriving Repr

/-- The value an access leads to. -/
def Access.reach : Access → Option Value → Option Value
  | field name, parent => parent.bind (·.field? name)
  | whole, parent => parent
  | search (some name) conditions, parent =>
    (Condition.keep conditions (Value.elements (parent.bind (·.field? name)))).head?
  | search none conditions, parent =>
    (Condition.keep conditions (Value.elements parent)).head?

/-- The access as listings show it, to be put after the parent. -/
def Access.text : Access → String
  | field name => "." ++ name
  | whole => "[]"
  | search (some name) conditions => "." ++ name ++ "[" ++ Condition.listText conditions ++ "]"
  | search none conditions => "[" ++ Condition.listText conditions ++ "]"

end Stencil
