import Stencil.Condition

namespace Stencil

/-!
# Markers and their paths

A marker stands at a byte offset of a document from which its own text has been
removed.  Its path says what to insert there: attributes to follow from the
payload, with groups in brackets where an array is to be repeated or searched.

A group with an iterator, `[i]`, repeats its array; the same group one further,
`[i+1]`, ends the part of the document that is repeated.  Conditions in such a
group select elements.  A group of conditions alone searches the array for one
element.
-/

/-- A path at a byte offset of a document. -/
structure Marker where
  offset : Nat
  path : String
  deriving DecidableEq, Repr

/-- A document without the text of its markers, and the markers. -/
structure Source where
  text : String
  markers : List Marker
  deriving DecidableEq, Repr

namespace Marker

/-- The contents of one pair of brackets. -/
structure Group where
  /-- The name of the dimension; without one the group is a search. -/
  iterator : Option String
  /-- Whether the group ends the repetition instead of being in it. -/
  terminates : Bool
  conditions : List Condition
  deriving Repr

/-- An attribute with the groups that follow it. -/
structure Segment where
  name : String
  groups : List Group
  deriving Repr

/-- A whole path: its segments, and the formatters written after them. -/
structure Path where
  segments : List Segment
  chain : Option (List Char)
  deriving Repr

/-- Whether a marker with this path ends a repetition.  Such a marker inserts
nothing itself. -/
def Path.terminates (path : Path) : Bool :=
  path.segments.any fun segment => segment.groups.any Group.terminates

end Marker

end Stencil
