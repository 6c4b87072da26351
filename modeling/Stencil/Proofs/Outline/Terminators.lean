import Stencil.Proofs.Outline.Reached
import Stencil.Proofs.Outline.Register

namespace Stencil.Outline

open Marker (Step)

/-!
# The terminators of a dimension

A marker ends a dimension when one of its terminators leads there, be it for the
first time or not.  The end of a dimension is its first terminator; the skipped row
reaches up to the terminator that lies furthest behind.
-/

/-- A marker behind some others ends a dimension. -/
def Ends (earlier : List Marker) (marker : Marker) (id : ScopeId) : Prop :=
  ∃ count front step walk, trace earlier marker count = .ok (front ++ [step], walk) ∧
    terminates step = true ∧ walk.2.lost = false ∧ walk.2.scope = id

/-- The place of a marker, among some in the order of the document, that ends a
dimension. -/
def Terminator (markers : List Marker) (id : ScopeId) (place : Place) : Prop :=
  ∃ earlier marker later, markers = earlier ++ marker :: later ∧ Ends earlier marker id ∧
    place = ⟨marker.offset, earlier.length + 1⟩

/-- The first of some places, and the greatest of their offsets. -/
inductive Bounds (places : Place → Prop) : Option Place → Option Nat → Prop
  | never (empty : ∀ place, ¬ places place) : Bounds places none none
  | ended (first : Place) (last : Nat) (member : places first)
      (least : ∀ other, places other → first.point ≤ other.point)
      (reached : ∃ place, places place ∧ place.offset = last)
      (greatest : ∀ other, places other → other.offset ≤ last) :
      Bounds places (some first) (some last)

/-- A later place comes first only if there was none. -/
theorem Bounds.later {places : Place → Prop} {first : Option Place} {last : Option Nat}
    (bounds : Bounds places first last) {place : Place}
    (behind : ∀ other, places other → other.point ≤ place.point) :
    Bounds (fun other => places other ∨ other = place) (first.or (some place))
      (some (max (last.getD 0) place.offset)) := by
  cases bounds with
  | never empty =>
    apply Bounds.ended
    · exact .inr rfl
    · rintro other (earlier | rfl)
      · exact absurd earlier (empty other)
      · exact Nat.le_refl _
    · exact ⟨place, .inr rfl, by simp⟩
    · rintro other (earlier | rfl)
      · exact absurd earlier (empty other)
      · exact Nat.le_max_right _ _
  | ended first last member least reached greatest =>
    apply Bounds.ended
    · exact .inl member
    · rintro other (earlier | rfl)
      · exact least other earlier
      · exact behind first member
    · rcases reached with ⟨furthest, there, same⟩
      rcases max_choice last place.offset with old | new
      · exact ⟨furthest, .inl there, same.trans old.symm⟩
      · exact ⟨place, .inr rfl, new.symm⟩
    · rintro other (earlier | rfl)
      · exact (greatest other earlier).trans (Nat.le_max_left _ _)
      · exact Nat.le_max_right _ _

/-- Where something ends, its first end is not behind its last. -/
theorem Bounds.exists_last {places : Place → Prop} {first : Place} {last : Option Nat}
    (bounds : Bounds places (some first) last) :
    ∃ stop, last = some stop ∧ first.offset ≤ stop := by
  cases bounds with
  | ended _ _ member _ _ greatest => exact ⟨_, rfl, greatest first member⟩

theorem Bounds.congr {places others : Place → Prop} {first : Option Place} {last : Option Nat}
    (bounds : Bounds places first last) (same : ∀ place, others place ↔ places place) :
    Bounds others first last := by
  have equal : others = places := funext fun place => propext (same place)
  rw [equal]
  exact bounds

/-! ## Steps -/

variable {growth : Growth} {progress : Progress} {step : Step} {after : Walk}

/-- The first end of a dimension and the end of its skipped row. -/
def endsOf (outline : Outline) (id : ScopeId) : Option Place × Option Nat :=
  (outline.closingOf id, outline.told Dimension.skipEnd id)

/-- The ends of a dimension that is ended at a place. -/
def endAt (place : Place) (ends : Option Place × Option Nat) : Option Place × Option Nat :=
  (ends.1.or (some place), some (max (ends.2.getD 0) place.offset))

theorem endAt_endAt (place : Place) (ends : Option Place × Option Nat) :
    endAt place (endAt place ends) = endAt place ends := by
  rcases ends with ⟨first, last⟩
  simp [endAt]

/-- A step changes the ends of the dimension to which its terminator leads. -/
theorem Taken.endsOf (taking : Taken growth progress step after) (id : ScopeId) :
    (terminates step = true ∧ after.2.lost = false ∧ after.2.scope = id →
        after.1.outline.endsOf id = endAt progress.place (growth.outline.endsOf id)) ∧
      (¬ (terminates step = true ∧ after.2.lost = false ∧ after.2.scope = id) →
        after.1.outline.endsOf id = growth.outline.endsOf id) := by
  cases taking with
  | astray lost => exact ⟨fun ends => by simp [lost] at ends, fun _ => rfl⟩
  | missing => exact ⟨fun ends => by simp [Progress.lose] at ends, fun _ => rfl⟩
  | found other onTrack known goes => exact ⟨fun ends => by simp [goes] at ends, fun _ => rfl⟩
  | narrowed other name follows iterator conditions onTrack known use =>
    refine ⟨fun ends => by simp [use, terminates] at ends, fun _ => ?_⟩
    apply Prod.ext
    · exact told_narrowed (fun _ _ => rfl) growth other id conditions
    · exact told_narrowed (fun _ _ => rfl) growth other id conditions
  | made arrayKey onTrack unknown opening goes =>
    refine ⟨fun ends => by simp [goes] at ends, fun _ => ?_⟩
    apply Prod.ext
    · exact told_addScope (fun _ _ => rfl) goes _ arrayKey id
    · exact told_addScope (fun _ _ => rfl) goes _ arrayKey id
  | ended other name follows iterator onTrack known use same =>
    rcases exists_dimension_of_iterator same with ⟨dimension, found⟩
    constructor
    · rintro ⟨-, -, rfl⟩
      apply Prod.ext
      · exact (closingOf_ended found _ _).trans (if_pos rfl)
      · have before : growth.outline.told Dimension.skipEnd other = dimension.skipEnd := by
          simp [told, found]
        show _ = some (max ((growth.outline.told Dimension.skipEnd other).getD 0) _)
        rw [before]
        exact (told_ended found _ _).trans (if_pos rfl)
    · intro elsewhere
      have differs : id ≠ other := by
        intro here
        exact elsewhere ⟨by rw [use]; rfl, onTrack, here.symm⟩
      apply Prod.ext
      · exact (closingOf_ended found _ _).trans (if_neg differs)
      · exact (told_ended found _ _).trans (if_neg differs)

/-! ## Walks -/

/-- A terminator among these steps leads to the dimension. -/
def EndsAlong (begun : Walk) (steps : List Step) (id : ScopeId) : Prop :=
  ∃ front step back walk, steps = front ++ step :: back ∧
    (front ++ [step]).foldlM walkStep begun = .ok walk ∧
      terminates step = true ∧ walk.2.lost = false ∧ walk.2.scope = id

theorem endsAlong_append {begun : Walk} {taken : List Step}
    (run : (taken ++ [step]).foldlM walkStep begun = .ok after) (id : ScopeId) :
    EndsAlong begun (taken ++ [step]) id ↔ EndsAlong begun taken id ∨
      terminates step = true ∧ after.2.lost = false ∧ after.2.scope = id :=
  takesAlong_append (fun _ step walk => terminates step = true ∧ walk.2.lost = false ∧
    walk.2.scope = id) run

/-- Recording a marker leaves the ends of dimensions as they are. -/
theorem endsOf_record (walk : Walk) (read : ReadMarker) (field : String) (id : Nat) :
    (record walk read field).outline.endsOf id = walk.1.outline.endsOf id :=
  Prod.ext (told_of_sameDimension (dimension?_record walk read field id))
    (told_of_sameDimension (dimension?_record walk read field id))

/-- A walk changes the ends of the dimensions to which its terminators lead. -/
theorem endsOf_run {steps : List Step} {begun : Walk}
    (run : steps.foldlM walkStep begun = .ok after) (id : ScopeId) :
    (EndsAlong begun steps id →
        after.1.outline.endsOf id = endAt begun.2.place (begun.1.outline.endsOf id)) ∧
      (¬ EndsAlong begun steps id → after.1.outline.endsOf id = begun.1.outline.endsOf id) := by
  refine foldlM_induction_along (motive := fun taken walk =>
    (EndsAlong begun taken id →
        walk.1.outline.endsOf id = endAt begun.2.place (begun.1.outline.endsOf id)) ∧
      (¬ EndsAlong begun taken id → walk.1.outline.endsOf id = begun.1.outline.endsOf id))
    (fun taken step before after _ ran holds taking => ?_) ⟨?_, fun _ => rfl⟩ run
  · rcases holds with ⟨ended, kept⟩
    have moves := taken_of_walkStep taking
    have split := endsAlong_append (foldlM_concat_eq_ok.mpr ⟨before, ran, taking⟩) id
    rw [← place_run ran] at ended ⊢
    constructor
    · intro ends
      by_cases here : terminates step = true ∧ after.2.lost = false ∧ after.2.scope = id
      · rw [(moves.endsOf id).1 here]
        by_cases earlier : EndsAlong begun taken id
        · rw [ended earlier]
          exact endAt_endAt _ _
        · rw [kept earlier]
      · rw [(moves.endsOf id).2 here]
        exact ended ((split.mp ends).resolve_right here)
    · intro passes
      rw [(moves.endsOf id).2 fun here => passes (split.mpr (.inr here))]
      exact kept fun earlier => passes (split.mpr (.inl earlier))
  · rintro ⟨front, step, back, walk, impossible, -⟩
    simp at impossible

/-- The terminators along the path of a marker are those of the marker. -/
theorem ends_iff_endsAlong {earlier : List Marker} {marker : Marker} {read : ReadMarker}
    (grown : earlier.foldlM grow Growth.start = .ok growth)
    (reading : readMarker marker = .ok read) (id : ScopeId) :
    Ends earlier marker id ↔ EndsAlong (growth, beginWalk growth marker) read.path.steps.1 id :=
  takes_iff_takesAlong (fun _ step walk => terminates step = true ∧ walk.2.lost = false ∧
    walk.2.scope = id) grown reading

/-! ## Documents -/

theorem terminator_append (taken : List Marker) (marker : Marker) (id : ScopeId) (place : Place) :
    Terminator (taken ++ [marker]) id place ↔ Terminator taken id place ∨
      Ends taken marker id ∧ place = ⟨marker.offset, taken.length + 1⟩ :=
  exists_split_concat (fun earlier marker => Ends earlier marker id ∧
    place = ⟨marker.offset, earlier.length + 1⟩) taken marker

theorem Terminator.point_le {markers : List Marker} {id : ScopeId} {place : Place}
    (terminator : Terminator markers id place) : place.point ≤ markers.length := by
  rcases terminator with ⟨earlier, marker, later, rfl, -, rfl⟩
  simp

/-- The end of a dimension is its first terminator, and its skipped row reaches up to
the last. -/
theorem bounds_of_growth {markers : List Marker}
    (run : markers.foldlM grow Growth.start = .ok growth) (id : ScopeId) :
    Bounds (Terminator markers id) (growth.outline.closingOf id)
      (growth.outline.told Dimension.skipEnd id) := by
  refine foldlM_induction_along (motive := fun taken growth =>
    Bounds (Terminator taken id) (growth.outline.endsOf id).1 (growth.outline.endsOf id).2)
    (fun taken marker before after _ ran bounds grown => ?_) ?_ run
  · rcases grow_eq_ok.mp grown with ⟨read, walk, reading, steps, rfl⟩
    have split := terminator_append taken marker id
    have along := endsOf_run steps id
    have place : (beginWalk before marker).place = ⟨marker.offset, taken.length + 1⟩ := by
      rw [← (registered_of_growth ran).size_occurrences]
      rfl
    rw [endsOf_record]
    by_cases ends : Ends taken marker id
    · rw [along.1 ((ends_iff_endsAlong ran reading id).mp ends), place]
      apply (bounds.later _).congr
      · intro other
        rw [split other]
        simp [ends]
      · intro other earlier
        exact earlier.point_le.trans (Nat.le_succ _)
    · rw [along.2 fun there => ends ((ends_iff_endsAlong ran reading id).mpr there)]
      apply bounds.congr
      intro other
      rw [split other]
      simp [ends]
  · have endless : Growth.start.outline.endsOf id = (none, none) := by
      cases id with
      | zero => rfl
      | succ => rfl
    rw [endless]
    apply Bounds.never
    rintro place ⟨earlier, marker, later, impossible, -⟩
    simp at impossible

end Stencil.Outline
