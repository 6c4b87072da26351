import Stencil.Sorting

namespace Stencil

/-!
# Fragments and the document they make up

Rendering emits pieces of text in the order that suits the program, each with
its position in the document.  A position lists, from the outside in, the point
of every repetition around the piece and the number of the row, and last the
point of the piece itself.  Positions are ordered like words in a dictionary, so
ordering the fragments restores the document.
-/

/-- The points and row numbers that lead to a place in the document. -/
abbrev Position := List Nat

/-- The position as it is shown. -/
def Position.text (position : Position) : String :=
  "[" ++ String.intercalate ", " (position.map toString) ++ "]"

/-- The order of words in a dictionary: the first difference decides, and a
beginning comes before what goes on. -/
def Position.order : Position → Position → Ordering
  | [], [] => .eq
  | [], _ :: _ => .lt
  | _ :: _, [] => .gt
  | a :: left, b :: right => (compare a b).then (Position.order left right)

/-- Whether a position does not come after another. -/
def Position.atMost (left right : Position) : Bool := Position.order left right != .gt

/-- Text at a position. -/
structure Fragment where
  position : Position
  text : String
  deriving DecidableEq, Repr

/-- The texts of fragments in the order of their positions; of two at one
position the one emitted first comes first. -/
def Fragment.documentText (fragments : List Fragment) : String :=
  let ordered := orderBy (fun left right => left.position.atMost right.position) fragments
  String.join (ordered.map Fragment.text)

end Stencil
