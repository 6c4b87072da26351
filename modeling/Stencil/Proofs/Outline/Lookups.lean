import Stencil.Proofs.Marker.Names
import Stencil.Proofs.Outline.Coherent

namespace Stencil

/-!
# What is looked up while an outline is built

Wherever the construction of an outline has come to, even in the middle of a path that
turns out to be faulty, the scope it stands at exists, and so does every scope that a
key leads to.  What is refused is refused with an error about a marker, an attribute or
a repetition.
-/

/-- Only a text that ends before it begins is not reported as an error. -/
def Error.Reported : Error → Prop
  | .stopped _ _ => False
  | _ => True

/-- An error about a marker, an attribute or a repetition, which are what a document is
made of. -/
def Error.OfSource : Error → Prop
  | .invalidMarker _ _ _ | .conflictingUse _ _ | .brokenRepetition _ _ _ _ => True
  | .inconsistentScope _ _ | .missingFormatter _ _ _ | .stopped _ _ => False

theorem Error.OfSource.reported {error : Error} (source : error.OfSource) : error.Reported := by
  cases error with
  | stopped start stop => exact source
  | _ => exact trivial

namespace Outline

open Marker (Step)

variable {markers : List Marker} {walk : Walk} {error : Error}

/-! ## Scopes -/

/-- Every scope that is named by number is there, as are the scopes around it. -/
structure Enclosed (outline : Outline) : Prop where
  parents : ∀ (id : Nat) scope, outline.scopes[id]? = some scope → ∀ parent ∈ scope.parent,
    parent < outline.scopes.size
  around : ∀ id, ∀ other ∈ outline.ancestry id, other < outline.scopes.size
  slots : ∀ (id : Nat) slot, outline.slots[id]? = some slot → slot.scope < outline.scopes.size
  ordered : ∀ id ∈ outline.order, id < outline.scopes.size

theorem lt_size_of_mem_ancestry {outline : Outline} (rooted : Rooted outline) {id other : Nat}
    (member : other ∈ outline.ancestry id) : other < outline.scopes.size :=
  have bound := bound_of_mem_ancestry member
  (le_of_mem_ancestry rooted bound member).trans_lt bound

theorem Coherent.enclosed {outline : Outline} (coherent : Coherent outline) : Enclosed outline where
  parents _ _ found _ link :=
    (coherent.rooted.parent_lt found link).trans (lt_size_of_getElem? found)
  around _ _ member := lt_size_of_mem_ancestry coherent.rooted member
  slots := coherent.slotScope
  ordered _ member := List.mem_range.mp ((perm_orderBy _ _).mem_iff.mp member)

/-! ## Walks -/

/-- A walk somewhere on the way to an outline: markers were recorded, and some steps of
the path of the next were taken. -/
structure Underway (markers : List Marker) (walk : Walk) : Prop where
  reached : ∃ front marker growth read steps, front ++ [marker] <+: markers ∧
    front.foldlM grow Growth.start = .ok growth ∧ readMarker marker = .ok read ∧
    steps <+: read.path.steps.1 ∧
    steps.foldlM walkStep (growth, beginWalk growth marker) = .ok walk

theorem Underway.walking (underway : Underway markers walk) : Walking walk := by
  rcases underway.reached with ⟨front, marker, growth, read, steps, -, grown, -, -, walked⟩
  exact walking_run (walking_begin (sound_growth sound_start grown) marker) walked

/-- A path that is read has a segment. -/
theorem segments_ne_nil {cs : List Char} {path : Marker.Path}
    (run : Marker.readPath cs = .ok path) : path.segments ≠ [] :=
  (Marker.named_of_readPath run).segments

/-! ## Errors -/

/-- A marker that is not read is invalid. -/
theorem readMarker_eq_error {marker : Marker} (run : readMarker marker = .error error) :
    ∃ fault, error = .invalidMarker marker.path marker.offset fault := by
  unfold readMarker at run
  split at run
  · cases run
    exact ⟨_, rfl⟩
  · split at run
    · cases run
    · split at run
      · cases run
        exact ⟨_, rfl⟩
      · cases run

/-- An outline that is not settled has a repetition that is never ended. -/
theorem settle_eq_error {policy : Unterminated} {outline : Outline}
    (run : settle policy outline = .error error) :
    ∃ id scope dimension, error = neverClosed outline id scope dimension := by
  unfold settle at run
  split at run
  · cases run
  · split at run
    · next faulty =>
      cases run
      rcases List.exists_of_findSome?_eq_some faulty with ⟨item, -, refused⟩
      unfold unterminated? at refused
      split at refused
      · split at refused
        · cases refused
          exact ⟨_, _, _, rfl⟩
        · cases refused
      · cases refused
    · cases run

theorem ofSource_of_readMarker {marker : Marker} (run : readMarker marker = .error error) :
    error.OfSource := by
  rcases readMarker_eq_error run with ⟨fault, rfl⟩
  exact trivial

theorem ofSource_of_walkStep {step : Step} (run : walkStep walk step = .error error) :
    error.OfSource := by
  rcases (walkStep_eq_error run).2 with ⟨-, -, rfl⟩ | ⟨fault, counterpart, rfl⟩
  · exact trivial
  · exact trivial

theorem ofSource_of_grow {growth : Growth} {marker : Marker}
    (run : grow growth marker = .error error) : error.OfSource := by
  rcases bind_eq_error.mp run with fails | ⟨read, -, run⟩
  · exact ofSource_of_readMarker fails
  · rcases bind_eq_error.mp run with fails | ⟨walk, -, impossible⟩
    · rcases foldlM_eq_error fails with ⟨-, step, -, before, -, -, fails⟩
      exact ofSource_of_walkStep fails
    · cases impossible

theorem ofSource_of_settle {policy : Unterminated} {outline : Outline}
    (run : settle policy outline = .error error) : error.OfSource := by
  rcases settle_eq_error run with ⟨id, scope, dimension, rfl⟩
  exact trivial

/-- Markers that make no outline are refused with an error about them. -/
theorem ofSource_of_ofMarkers {policy : Unterminated}
    (run : ofMarkers markers policy = .error error) : error.OfSource := by
  rcases bind_eq_error.mp run with fails | ⟨growth, -, fails⟩
  · rcases foldlM_eq_error fails with ⟨-, marker, -, before, -, -, fails⟩
    exact ofSource_of_grow fails
  · exact ofSource_of_settle fails

theorem reported_of_ofMarkers {policy : Unterminated}
    (run : ofMarkers markers policy = .error error) : error.Reported :=
  (ofSource_of_ofMarkers run).reported

end Outline

end Stencil
