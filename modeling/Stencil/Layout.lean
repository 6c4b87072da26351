import Stencil.Layout.Plan
import Stencil.Text.Bytes

namespace Stencil

/-!
# The literal text of a template

A layout holds every piece of text that is emitted as it is: before and after
the whole document, before each inserted value, before a repetition and between
its rows.  It is made by cutting a document as a plan says.  A layout can also be
bare, with text around the document only; every value is then emitted from the
innermost dimension around it.
-/

namespace Layout

/-- What a layout says about a slot. -/
structure SlotText where
  leading : String
  /-- The repetition it is emitted from; none is the top level. -/
  host : Option ScopeId
  /-- Whether it stands in a skipped row and is not emitted at all. -/
  dropped : Bool
  deriving DecidableEq, Repr

/-- What a layout says about a repetition. -/
structure RowText where
  opening : String
  separator : String
  deriving DecidableEq, Repr

end Layout

/-- The literal text of a template. -/
structure Layout where
  before : String
  after : String
  slots : Array Layout.SlotText
  rows : List (ScopeId × Layout.RowText)
  deriving Repr

namespace Layout

/-- Text around the document and nowhere else. -/
def surrounding (before after : String) : Layout := ⟨before, after, #[], []⟩

/-! ## Reading a layout -/

/-- The text before a slot. -/
def leading (layout : Layout) (slot : SlotId) : String :=
  (layout.slots[slot]?.map SlotText.leading).getD ""

/-- Whether a slot is not emitted. -/
def omits (layout : Layout) (slot : SlotId) : Bool :=
  (layout.slots[slot]?.map SlotText.dropped).getD false

/-- The text of a repetition. -/
def row? (layout : Layout) (scope : ScopeId) : Option RowText := layout.rows.lookup scope

/-- The repetition from which a slot is emitted.  A layout that does not mention
the slot leaves it to the dimensions of the outline. -/
def host (layout : Layout) (outline : Outline) (slot : SlotId) : Option ScopeId :=
  match layout.slots[slot]? with
  | some text => text.host
  | none => outline.slots[slot]?.bind fun slot => outline.dimensionAround? slot.scope

/-! ## Cutting a document -/

/-- The text of a role; empty if nothing plays it. -/
def cut (plan : Plan) (text : List Char) (role : Role) : String :=
  String.ofList (((plan.piece? role).bind fun piece =>
    Text.slice? piece.start piece.stop text).getD [])

/-- What a plan says about a slot. -/
def slotText (plan : Plan) (text : List Char) (slot : SlotId) : SlotText :=
  ⟨cut plan text (.leading slot), plan.host slot, plan.dropped.contains slot⟩

/-- What a plan says about the repetition of a piece that opens one. -/
def rowText? (plan : Plan) (text : List Char) (piece : Piece) : Option (ScopeId × RowText) :=
  match piece.role with
  | .opening scope =>
    some (scope, ⟨cut plan text (.opening scope), cut plan text (.separator scope)⟩)
  | _ => none

/-- Cut a document as a plan says. -/
def ofPlan (outline : Outline) (plan : Plan) (text : List Char) : Layout where
  before := cut plan text .before
  after := cut plan text .after
  slots := (Array.range outline.slots.size).map (slotText plan text)
  rows := plan.pieces.filterMap (rowText? plan text)

/-- The error for a marker whose offset is not a place in the text. -/
def offsetFault? (text : List Char) (occurrence : Occurrence) : Option Error :=
  if Text.byteSize text < occurrence.offset then
    some (.invalidMarker occurrence.path occurrence.offset (.offsetPastEnd (Text.byteSize text)))
  else if Text.isBoundary occurrence.offset text then none
  else some (.invalidMarker occurrence.path occurrence.offset .offsetInsideCharacter)

/-- Lay a document out around the markers of an outline.  All offsets are
checked before anything else. -/
def ofText (outline : Outline) (text : String) : Except Error Layout :=
  let cs := text.toList
  match outline.occurrences.toList.findSome? (offsetFault? cs) with
  | some error => .error error
  | none => (Plan.make outline (Text.byteSize cs)).map fun plan => ofPlan outline plan cs

end Layout

end Stencil
