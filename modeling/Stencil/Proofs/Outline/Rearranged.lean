import Stencil.Proofs.Outline.WellFormed
import Stencil.Template

namespace Stencil

/-!
# Markers in another order

Markers are put into the order of the document before anything else is done with
them, those at one offset staying as they were given.  So two lists that differ in
how markers of different offsets are mixed make the same outline or the same error,
and whatever is compiled from them is the same.  No other lists are confused: an
outline records its markers in the order of the document.
-/

/-- The same markers, those at one offset in the same order. -/
structure Rearranged (left right : List Marker) : Prop where
  perm : left.Perm right
  aligned : ∀ offset : Nat, left.filter (fun marker => marker.offset == offset) =
    right.filter fun marker => marker.offset == offset

namespace Outline

variable {left right : List Marker}

/-- Ordering by offsets forgets just how markers of different offsets are mixed. -/
theorem inDocumentOrder_eq_iff :
    inDocumentOrder left = inDocumentOrder right ↔ Rearranged left right := by
  constructor
  · intro same
    have perm : left.Perm right := by
      apply (perm_orderBy _ left).symm.trans
      rw [show orderBy _ left = orderBy _ right from same]
      exact perm_orderBy _ right
    exact ⟨perm, (orderBy_key_eq_iff Marker.offset).mp same⟩
  · intro rearranged
    exact (orderBy_key_eq_iff Marker.offset).mpr rearranged.aligned

instance (left right : List Marker) : Decidable (Rearranged left right) :=
  decidable_of_iff (inDocumentOrder left = inDocumentOrder right) inDocumentOrder_eq_iff

theorem ofMarkers_congr (same : inDocumentOrder left = inDocumentOrder right)
    (policy : Unterminated) : ofMarkers left policy = ofMarkers right policy := by
  unfold ofMarkers
  rw [same]

/-- An outline tells its markers in the order of the document. -/
theorem rearranged_of_ofMarkers {policy : Unterminated} {outline : Outline}
    (accepted : ofMarkers left policy = .ok outline)
    (alsoAccepted : ofMarkers right policy = .ok outline) : Rearranged left right := by
  have recorded := (wellFormed_of_ofMarkers accepted).register.recorded
  have alsoRecorded := (wellFormed_of_ofMarkers alsoAccepted).register.recorded
  exact inDocumentOrder_eq_iff.mp (recorded.symm.trans alsoRecorded)

end Outline

open Outline (ofMarkers)

/-- How markers of different offsets are mixed makes no difference to an outline, an
error or anything compiled, and every other difference makes another outline. -/
theorem order_of_markers_is_forgotten (left right : List Marker) :
    (Rearranged left right →
      (∀ policy, ofMarkers left policy = ofMarkers right policy) ∧
      (∀ text settings,
        Template.compile ⟨text, left⟩ settings = Template.compile ⟨text, right⟩ settings) ∧
      ∀ before after settings,
        compileMarkers left before after settings = compileMarkers right before after settings) ∧
    ∀ policy outline, ofMarkers left policy = .ok outline → ofMarkers right policy = .ok outline →
      Rearranged left right := by
  constructor
  · intro rearranged
    have same := Outline.ofMarkers_congr (Outline.inDocumentOrder_eq_iff.mpr rearranged)
    refine ⟨same, fun text settings => ?_, fun before after settings => ?_⟩
    · unfold Template.compile
      rw [same]
    · unfold compileMarkers
      rw [same]
  · intro policy outline accepted alsoAccepted
    exact Outline.rearranged_of_ofMarkers accepted alsoAccepted

/-- Markers of a street of houses, from its beginning to its end. -/
def streetMarkers : List Marker :=
  [⟨0, "d.houses[h].number"⟩, ⟨0, "d.houses[h].owner.name"⟩, ⟨6, "d.houses[h+1].number"⟩,
    ⟨9, "d.street"⟩]

/-- The same with the two at the first offset kept in order. -/
def streetMixed : List Marker :=
  [⟨9, "d.street"⟩, ⟨0, "d.houses[h].number"⟩, ⟨6, "d.houses[h+1].number"⟩,
    ⟨0, "d.houses[h].owner.name"⟩]

theorem order_of_markers_is_forgotten_street :
    Rearranged streetMarkers streetMixed ∧ streetMarkers ≠ streetMixed ∧
      (∃ outline, ofMarkers streetMarkers .strict = .ok outline ∧
        ofMarkers streetMixed .strict = .ok outline ∧ Rearranged streetMarkers streetMixed) ∧
      ∀ text settings, Template.compile ⟨text, streetMarkers⟩ settings =
        Template.compile ⟨text, streetMixed⟩ settings := by
  have rearranged : Rearranged streetMarkers streetMixed := by decide
  have same := (order_of_markers_is_forgotten streetMarkers streetMixed).1 rearranged
  rcases exists_of_isOk (by decide +kernel : (ofMarkers streetMarkers .strict).isOk = true) with
    ⟨outline, accepted⟩
  have alsoAccepted : ofMarkers streetMixed .strict = .ok outline := by
    rw [← same.1]
    exact accepted
  exact ⟨rearranged, by decide, ⟨outline, accepted, alsoAccepted,
    (order_of_markers_is_forgotten _ _).2 .strict outline accepted alsoAccepted⟩, same.2.1⟩

end Stencil
