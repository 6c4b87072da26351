import Stencil.Proofs.Outline.Bodies
import Stencil.Proofs.Outline.Carried
import Stencil.Proofs.Outline.Frame

namespace Stencil

/-!
# An outline inside another

In the outline of a longer document the scopes and slots of a part have other
numbers, and its markers other offsets and points.  Apart from that the part is the
same: scopes lie in the same scopes, are reached in the same way and repeat in the
same way.
-/

/-- A marker so many bytes further on. -/
def Marker.shift (size : Nat) (marker : Marker) : Marker := ⟨marker.offset + size, marker.path⟩

/-- How numbers, offsets and points of a part change in the whole. -/
structure Relocation where
  scope : Nat → Nat
  slot : Nat
  offset : Nat
  point : Nat

namespace Relocation

open Outline (Rooted Progress frame Frame)

/-- Everything stays as it is. -/
def stay : Relocation := ⟨id, 0, 0, 0⟩

variable (move : Relocation)

def marker : Marker → Marker := Marker.shift move.offset

def place (place : Place) : Place := ⟨place.offset + move.offset, place.point + move.point⟩

def dimension (dimension : Dimension) : Dimension where
  iterator := dimension.iterator
  closing := dimension.closing.map move.place
  skipEnd := dimension.skipEnd.map (· + move.offset)
  conditions := dimension.conditions

def slotAt (slot : Slot) : Slot where
  scope := move.scope slot.scope
  field := slot.field
  calls := slot.calls
  place := move.place slot.place
  path := slot.path

def occurrence (occurrence : Occurrence) : Occurrence where
  offset := occurrence.offset + move.offset
  path := occurrence.path
  opens := occurrence.opens.map move.scope
  closes := occurrence.closes.map move.scope
  slot := occurrence.slot.map (· + move.slot)
  terminates := occurrence.terminates

/-- A marker that has walked as far in the whole. -/
def progress (progress : Progress) : Progress where
  marker := move.marker progress.marker
  point := progress.point + move.point
  scope := move.scope progress.scope
  key := progress.key
  closing := progress.closing
  lost := progress.lost
  opens := progress.opens.map move.scope
  closes := progress.closes.map move.scope

theorem dimension_stay (dimension : Dimension) : stay.dimension dimension = dimension := by
  cases dimension with
  | mk iterator closing skipEnd conditions => cases closing <;> cases skipEnd <;> rfl

theorem occurrence_stay (occurrence : Occurrence) : stay.occurrence occurrence = occurrence := by
  cases occurrence with
  | mk offset path opens closes slot terminates => cases slot <;> simp [Relocation.occurrence, stay]

/-! ## Scopes -/

/-- A scope and what it is in the whole. -/
structure Image (scope image : Scope) : Prop where
  parent : image.parent = scope.parent.map move.scope
  access : image.access = scope.access
  dimension : image.dimension? = scope.dimension?.map move.dimension
  opened : scope.isArray = true → image.opened = move.place scope.opened

/-- A part of an outline. -/
structure Embeds (part whole : Outline) : Prop where
  injective : Function.Injective move.scope
  root : move.scope Outline.root = Outline.root
  scopes : ∀ (id : Nat) scope, part.scopes[id]? = some scope →
    ∃ image, whole.scopes[move.scope id]? = some image ∧ move.Image scope image
  slots : ∀ (id : Nat) slot, part.slots[id]? = some slot →
    whole.slots[id + move.slot]? = some (move.slotAt slot)

variable {move} {scope image : Scope}

theorem Image.isArray (same : move.Image scope image) : image.isArray = scope.isArray := by
  unfold Scope.isArray
  rw [same.dimension, Option.isSome_map]

theorem Image.closing? (same : move.Image scope image) :
    image.closing? = scope.closing?.map move.place := by
  unfold Scope.closing?
  rw [same.dimension]
  cases scope.dimension? <;> rfl

theorem Image.hasEnd (same : move.Image scope image) : image.hasEnd = scope.hasEnd := by
  unfold Scope.hasEnd
  rw [same.closing?, Option.isSome_map]

theorem Image.conditions (same : move.Image scope image) : image.conditions = scope.conditions := by
  unfold Scope.conditions
  rw [same.dimension]
  cases scope.dimension? <;> rfl

/-- Frames and dimensions make an image. -/
theorem Image.of_frame {later laterImage : Scope} (same : move.Image scope image)
    (frames : frame later = frame scope) (imageFrames : frame laterImage = frame image)
    (dimension : laterImage.dimension? = later.dimension?.map move.dimension) :
    move.Image later laterImage := by
  have array : later.isArray = scope.isArray := congrArg Frame.repeated frames
  have opened : later.opened = scope.opened := congrArg Frame.opened frames
  have parent : later.parent = scope.parent := congrArg Frame.parent frames
  have access : later.access = scope.access := congrArg Frame.access frames
  refine ⟨?_, ?_, dimension, fun kind => ?_⟩
  · rw [parent]
    exact (congrArg Frame.parent imageFrames).trans same.parent
  · rw [access]
    exact (congrArg Frame.access imageFrames).trans same.access
  · rw [opened]
    exact (congrArg Frame.opened imageFrames).trans (same.opened (array ▸ kind))

/-! ## Outlines -/

variable {part whole : Outline}

/-- A part is carried into the whole. -/
theorem Embeds.carries (embeds : move.Embeds part whole) :
    Outline.Carries move.scope part whole where
  injective := embeds.injective
  payload := embeds.root
  scopes id scope found := by
    rcases embeds.scopes id scope found with ⟨image, foundImage, same⟩
    exact ⟨image, foundImage, same.parent, same.access, same.isArray⟩

theorem Embeds.scopeIs_isArray (embeds : move.Embeds part whole) {id : Nat}
    (bound : id < part.scopes.size) :
    whole.scopeIs Scope.isArray (move.scope id) = part.scopeIs Scope.isArray id :=
  embeds.carries.scopeIs_isArray bound

theorem Embeds.dimensionAround? (embeds : move.Embeds part whole) (rooted : Rooted part)
    (wholeRooted : Rooted whole) {id : Nat} (bound : id < part.scopes.size) :
    whole.dimensionAround? (move.scope id) = (part.dimensionAround? id).map move.scope :=
  embeds.carries.dimensionAround? rooted wholeRooted bound

end Relocation

end Stencil
