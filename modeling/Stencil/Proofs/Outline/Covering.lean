import Stencil.Proofs.Outline.Abreast
import Stencil.Proofs.Outline.Exclusive

namespace Stencil.Outline

open Marker (Step)

/-!
# Markers behind a further one

Markers behind the further one are recorded in both outlines, with slots and points one
further on, and keep the outlines related.
-/

variable {move : Omission} {base wholeBase part whole : Growth}

/-! ## One marker -/

theorem WalksAbreast.run {after afterWhole : Walk} {steps : List Step} :
    ∀ {taken : List Step} {before beforeWhole : Walk},
      WalksAbreast move base wholeBase before beforeWhole → AtTrail before taken →
      AtTrail beforeWhole taken → Walkable (taken ++ steps) →
      steps.foldlM walkStep before = .ok after →
      steps.foldlM walkStep beforeWhole = .ok afterWhole →
      Aside move base.outline.scopes.size wholeBase.outline.scopes.size after.1.outline
        afterWhole.1.outline →
      WalksAbreast move base wholeBase after afterWhole := by
  induction steps with
  | nil =>
    intro taken before beforeWhole abreast _ _ _ run runWhole _
    rw [← foldlM_nil_eq_ok.mp run, ← foldlM_nil_eq_ok.mp runWhole]
    exact abreast
  | cons step steps ih =>
    intro taken before beforeWhole abreast walked walkedWhole walkable run runWhole aside
    rcases foldlM_cons_eq_ok.mp run with ⟨between, first, rest⟩
    rcases foldlM_cons_eq_ok.mp runWhole with ⟨betweenWhole, firstWhole, restWhole⟩
    rcases walkable.next with ⟨readable, written, plain, walkable⟩
    have further := walked.onward readable written plain (taken_of_walkStep first)
    have furtherWhole := walkedWhole.onward readable written plain (taken_of_walkStep firstWhole)
    have last := further.run walkable rest
    have lastWhole := furtherWhole.run walkable restWhole
    have here := aside.of_extends (extends_run rest) (extends_run restWhole) further.keyed.rooted
      last.keyed.rooted furtherWhole.keyed.rooted lastWhole.keyed.rooted
    exact ih (abreast.onward walked walkedWhole readable written plain (taken_of_walkStep first)
      (taken_of_walkStep firstWhole) here) further furtherWhole walkable rest restWhole aside

/-- What the further marker adds besides scopes. -/
structure Counted (move : Omission) (base wholeBase : Outline) : Prop where
  slot : move.slot = base.slots.size
  slots : wholeBase.slots.size = base.slots.size + 1
  point : move.point = base.occurrences.size
  points : wholeBase.occurrences.size = base.occurrences.size + 1

/-- The next slot has the next number in both outlines. -/
theorem Covers.slotNumber_size (covers : Covers move base wholeBase part whole)
    (counted : Counted move base.outline wholeBase.outline) :
    move.slotNumber part.outline.slots.size = whole.outline.slots.size := by
  rcases covers.slots with ⟨more, slots, slotsWhole⟩
  have own := congrArg List.length slots
  have all := congrArg List.length slotsWhole
  simp only [Array.length_toList, List.length_append, List.length_map] at own all
  have behind : ¬ part.outline.slots.size < move.slot := by
    have first := counted.slot
    omega
  have more := counted.slots
  unfold Omission.slotNumber
  rw [if_neg behind]
  omega

/-- The next marker has the next point in both outlines. -/
theorem Covers.pointNumber_size (covers : Covers move base wholeBase part whole)
    (counted : Counted move base.outline wholeBase.outline) :
    move.pointNumber (part.outline.occurrences.size + 1) =
      whole.outline.occurrences.size + 1 := by
  rcases covers.occurrences with ⟨more, occurrences, occurrencesWhole⟩
  have own := congrArg List.length occurrences
  have all := congrArg List.length occurrencesWhole
  simp only [Array.length_toList, List.length_append, List.length_map] at own all
  have behind : ¬ part.outline.occurrences.size + 1 ≤ move.point := by
    have first := counted.point
    omega
  have more := counted.points
  unfold Omission.pointNumber
  rw [if_neg behind]
  omega

/-- A walk that ends no dimension is not astray. -/
theorem Abreast.together_of_open {part : Outline} {own image : Progress}
    (abreast : Abreast move part own image) (goes : own.closing = false) :
    image = move.progress own := by
  cases abreast with
  | together same => exact same
  | astray _ closing =>
    rw [goes] at closing
    cases closing

/-- Astray or not, the same dimensions are opened and closed. -/
theorem Abreast.marks {part : Outline} {own image : Progress}
    (abreast : Abreast move part own image) :
    image.opens = own.opens.map move.scope ∧ image.closes = own.closes.map move.scope := by
  cases abreast with
  | together same =>
    rw [same]
    exact ⟨rfl, rfl⟩
  | astray _ _ _ _ _ same =>
    rw [same]
    exact ⟨rfl, rfl⟩

theorem WalksAbreast.occurrenceOf {walk walkWhole : Walk}
    (abreast : WalksAbreast move base wholeBase walk walkWhole)
    (counted : Counted move base.outline wholeBase.outline) (read : ReadMarker) :
    occurrenceOf walkWhole read = move.occurrence (occurrenceOf walk read) := by
  have count := abreast.covers.slotNumber_size counted
  have marks := abreast.progress.marks
  unfold Outline.occurrenceOf Omission.occurrence
  rw [marks.1, marks.2, ← count]
  cases read.path.terminates <;> rfl

/-- Both record the marker. -/
theorem WalksAbreast.record {walk walkWhole : Walk}
    (abreast : WalksAbreast move base wholeBase walk walkWhole)
    (counted : Counted move base.outline wholeBase.outline) {read : ReadMarker}
    (opening : read.path.terminates = false → walk.2.closing = false) (field : String) :
    Covers move base wholeBase (Outline.record walk read field)
      (Outline.record walkWhole read field) := by
  have covers := abreast.covers
  have ends : ∀ id : Nat, id < walk.1.outline.scopes.size →
      (Outline.record walkWhole read field).outline.endsOf (move.scope id) =
        move.ends ((Outline.record walk read field).outline.endsOf id) := by
    intro id bound
    rw [endsOf_record, endsOf_record]
    exact covers.ends id bound
  apply covers.of_sameFrames (sameFrames_record walk read field) rfl
    (sameFrames_record walkWhole read field) rfl ends
  · rcases covers.slots with ⟨more, slots, slotsWhole⟩
    rw [slots_record, slots_record]
    cases terminated : read.path.terminates with
    | true => exact ⟨more, slots, slotsWhole⟩
    | false =>
      have same := abreast.progress.together_of_open (opening terminated)
      simp only [Bool.false_eq_true, if_false, Array.toList_push, slots, slotsWhole, same,
        List.append_assoc]
      exact ⟨_, rfl, by rw [List.map_append]; rfl⟩
  · rcases covers.occurrences with ⟨more, occurrences, occurrencesWhole⟩
    rw [occurrences_record, occurrences_record, Array.toList_push, Array.toList_push, occurrences,
      occurrencesWhole, abreast.occurrenceOf counted read, List.append_assoc, List.append_assoc]
    exact ⟨_, rfl, by rw [List.map_append]; rfl⟩

/-- A marker keeps the outlines related. -/
theorem Covers.grow (covers : Covers move base wholeBase part whole)
    (counted : Counted move base.outline wholeBase.outline) {marker : Marker}
    (plain : ∀ path, Marker.readPath marker.path.toList = .ok path → path.Plain)
    {after afterWhole : Growth} (grown : Outline.grow part marker = .ok after)
    (grownWhole : Outline.grow whole marker = .ok afterWhole)
    (aside : Aside move base.outline.scopes.size wholeBase.outline.scopes.size after.outline
      afterWhole.outline) : Covers move base wholeBase after afterWhole := by
  rcases grow_eq_ok.mp grown with ⟨read, walk, reading, run, rfl⟩
  rcases grow_eq_ok.mp grownWhole with ⟨again, walkWhole, readingWhole, runWhole, rfl⟩
  cases reading.symm.trans readingWhole
  rcases readMarker_eq_ok reading with ⟨-, path⟩
  have walkable := walkable_steps path (plain _ path)
  have begins := atTrail_begin covers.keyed marker
  have beginsWhole := atTrail_begin covers.keyedWhole marker
  have last := begins.run walkable run
  have lastWhole := beginsWhole.run walkable runWhole
  have same := sameFrames_record walk read read.path.steps.2
  have sameWhole := sameFrames_record walkWhole read read.path.steps.2
  have abreast : WalksAbreast move base wholeBase (part, beginWalk part marker)
      (whole, beginWalk whole marker) := by
    refine ⟨covers, .together ?_⟩
    unfold beginWalk
    rw [← covers.pointNumber_size counted]
    simp [Omission.progress, covers.payload]
  have ended := abreast.run begins beginsWhole walkable run runWhole
    (aside.of_extends (extends_record walk read _) (extends_record walkWhole read _)
      last.keyed.rooted (same.rooted last.keyed.rooted) lastWhole.keyed.rooted
      (sameWhole.rooted lastWhole.keyed.rooted))
  apply ended.record counted
  intro goes
  by_contra closing
  rcases exists_terminates_of_ended run (.inl (Bool.of_not_eq_false closing)) with
    ⟨step, listed, ends⟩
  rw [Marker.terminates_of_mem_steps ends listed] at goes
  cases goes

theorem Covers.growth {markers : List Marker}
    (counted : Counted move base.outline wholeBase.outline) {after afterWhole : Growth} :
    ∀ {part whole : Growth}, Covers move base wholeBase part whole → PlainMarkers markers →
      markers.foldlM Outline.grow part = .ok after →
      markers.foldlM Outline.grow whole = .ok afterWhole →
      Aside move base.outline.scopes.size wholeBase.outline.scopes.size after.outline
        afterWhole.outline →
      Covers move base wholeBase after afterWhole := by
  induction markers with
  | nil =>
    intro part whole covers _ grown grownWhole _
    rw [← foldlM_nil_eq_ok.mp grown, ← foldlM_nil_eq_ok.mp grownWhole]
    exact covers
  | cons marker markers ih =>
    intro part whole covers plain grown grownWhole aside
    rcases foldlM_cons_eq_ok.mp grown with ⟨between, first, rest⟩
    rcases foldlM_cons_eq_ok.mp grownWhole with ⟨betweenWhole, firstWhole, restWhole⟩
    have plainRest : PlainMarkers markers := fun other member => plain other (.tail _ member)
    have keyed := keyed_grow covers.keyed (plain marker (.head _)) first
    have keyedWhole := keyed_grow covers.keyedWhole (plain marker (.head _)) firstWhole
    have here := aside.of_extends (extends_growth rest) (extends_growth restWhole) keyed.rooted
      (keyed_growth keyed plainRest rest).rooted keyedWhole.rooted
      (keyed_growth keyedWhole plainRest restWhole).rooted
    exact ih (covers.grow counted (plain marker (.head _)) first firstWhole here) plainRest rest
      restWhole aside

end Stencil.Outline
