import Stencil.Access
import Stencil.Formatter.Call
import Stencil.Sorting

namespace Stencil

/-!
# The outline of a document

Paths that begin alike speak about the same part of the payload.  The outline
gathers them: a tree of scopes, each an object or one dimension of an array, and
the slots where values are inserted.  Scopes are numbered in the order in which
the markers first mention them, so a parent has a smaller number than its
children, and number zero is the payload itself.

Markers may share an offset.  Every marker therefore has a point as well: its
rank, from one on, when markers are ordered by offset.  Points order what is
emitted for the document.
-/

abbrev ScopeId := Nat

abbrev SlotId := Nat

/-- A marker as a place in the document. -/
structure Place where
  offset : Nat
  point : Nat
  deriving DecidableEq, Repr

/-- What is known about one dimension of an array. -/
structure Dimension where
  /-- The name that brackets have to repeat to end the dimension. -/
  iterator : String
  /-- The first marker that ended it; without one the repetition has no end in
  the document. -/
  closing : Option Place
  /-- The greatest offset of a marker that ended it. -/
  skipEnd : Option Nat
  /-- Elements that fail one of these are left out. -/
  conditions : List Condition
  deriving Repr

/-- End a dimension at a place.  Only the first terminator is its end, but every
one moves the end of the skipped row. -/
def Dimension.terminate (place : Place) (dimension : Dimension) : Dimension :=
  { dimension with
    closing := dimension.closing.or (some place)
    skipEnd := some (max (dimension.skipEnd.getD 0) place.offset) }

/-- An object, or a dimension that is repeated. -/
inductive Kind where
  | object
  | array (dimension : Dimension)
  deriving Repr

/-- A part of the payload that markers speak about. -/
structure Scope where
  /-- The attribute it was reached by, for messages. -/
  name : String
  kind : Kind
  parent : Option ScopeId
  access : Access
  /-- The number of array dimensions around and including this scope. -/
  depth : Nat
  /-- The marker that mentioned it first. -/
  opened : Place
  /-- The slots bound to this scope itself. -/
  slots : List SlotId
  deriving Repr

/-- A place where a value is inserted. -/
structure Slot where
  scope : ScopeId
  /-- The field of the scope's value; the empty name is the value itself. -/
  field : String
  calls : List Formatter.Call
  place : Place
  path : String
  deriving Repr

/-- What one marker did. -/
structure Occurrence where
  offset : Nat
  path : String
  /-- The dimensions it mentioned first, outermost first. -/
  opens : List ScopeId
  /-- The dimensions it was the first to end, outermost first. -/
  closes : List ScopeId
  slot : Option SlotId
  terminates : Bool
  deriving Repr

/-- Scopes, slots and occurrences, each in the order of the document. -/
structure Outline where
  scopes : Array Scope
  slots : Array Slot
  occurrences : Array Occurrence
  deriving Repr

/-! ## Scopes -/

namespace Scope

/-- The dimension, if this is an array. -/
def dimension? (scope : Scope) : Option Dimension :=
  match scope.kind with
  | .object => none
  | .array dimension => some dimension

def isArray (scope : Scope) : Bool := scope.dimension?.isSome

/-- The first marker that ended the repetition. -/
def closing? (scope : Scope) : Option Place := scope.dimension?.bind Dimension.closing

/-- Whether the repetition has both ends in the document. -/
def hasEnd (scope : Scope) : Bool := scope.closing?.isSome

/-- The conditions on the elements of a repetition. -/
def conditions (scope : Scope) : List Condition :=
  (scope.dimension?.map Dimension.conditions).getD []

end Scope

/-! ## Outlines -/

namespace Outline

/-- The number of the payload's own scope. -/
def root : ScopeId := 0

/-- The scope bound to the payload. -/
def rootScope : Scope where
  name := "d0"
  kind := .object
  parent := none
  access := .whole
  depth := 0
  opened := ⟨0, 0⟩
  slots := []

/-- The outline of a document without markers. -/
def start : Outline := ⟨#[rootScope], #[], #[]⟩

/-- Whether a scope has a property; an unknown one has none. -/
def scopeIs (outline : Outline) (property : Scope → Bool) (id : ScopeId) : Bool :=
  (outline.scopes[id]?.map property).getD false

/-- The depth of a scope; an unknown one has depth zero. -/
def depthOf (outline : Outline) (id : ScopeId) : Nat :=
  (outline.scopes[id]?.map Scope.depth).getD 0

/-- A scope and those around it, innermost first.  Parents have smaller numbers,
so the number of scopes is fuel enough. -/
def climb (outline : Outline) : Nat → ScopeId → List ScopeId
  | 0, _ => []
  | fuel + 1, id =>
    match outline.scopes[id]? with
    | none => []
    | some scope =>
      id :: match scope.parent with
        | none => []
        | some parent => climb outline fuel parent

/-- A scope and those around it, outermost first. -/
def ancestry (outline : Outline) (id : ScopeId) : List ScopeId :=
  (outline.climb outline.scopes.size id).reverse

/-- The dimensions in the ancestry, outermost first. -/
def dimensionsAround (outline : Outline) (id : ScopeId) : List ScopeId :=
  (outline.ancestry id).filter (outline.scopeIs Scope.isArray)

/-- The dimensions in the ancestry with both ends in the document. -/
def repetitionsAround (outline : Outline) (id : ScopeId) : List ScopeId :=
  (outline.ancestry id).filter (outline.scopeIs Scope.hasEnd)

/-- The innermost dimension around a scope, itself included. -/
def dimensionAround? (outline : Outline) (id : ScopeId) : Option ScopeId :=
  (outline.dimensionsAround id).getLast?

/-- The marker that mentioned a dimension first. -/
def firstMention? (outline : Outline) (id : ScopeId) : Option Occurrence :=
  outline.occurrences.find? fun occurrence => occurrence.opens.contains id

/-- That marker as it is named in messages. -/
def mentionOf? (outline : Outline) (id : ScopeId) : Option (String × Nat) :=
  (outline.firstMention? id).map fun occurrence => (occurrence.path, occurrence.offset)

/-- The name of a scope in messages. -/
def nameOf (outline : Outline) (id : ScopeId) : String :=
  (outline.scopes[id]?.map Scope.name).getD "?"

/-- The point of the last marker; zero without markers. -/
def lastPoint (outline : Outline) : Nat := outline.occurrences.size

/-- The order in which scopes are compiled: by depth, shallow ones first, and within one
depth by their numbers.  A parent is never deeper than its children and has a smaller
number, so it comes before them. -/
def order (outline : Outline) : List ScopeId :=
  orderBy (fun left right => outline.depthOf left ≤ outline.depthOf right)
    (List.range outline.scopes.size)

end Outline

end Stencil
