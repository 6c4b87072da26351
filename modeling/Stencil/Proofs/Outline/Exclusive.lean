import Stencil.Proofs.Outline.Register

namespace Stencil

/-!
# Markers that end repetitions

A marker that ends a repetition inserts nothing.  Nor does it begin one: the scopes
that a walk made lie one inside the other, so behind the first of them every step
leads to a scope that was not there before, and there is nothing to end.  This needs
that scopes are found by the steps that lead to them.
-/

namespace Marker

theorem use_of_terminates {name : String} {follows : Bool} {group : Group}
    (ends : Outline.terminates (.group name follows group.use) = true) :
    group.terminates = true := by
  unfold Group.use at ends
  cases iterator : group.iterator with
  | none =>
    rw [iterator] at ends
    cases ends
  | some name =>
    rw [iterator] at ends
    cases terminates : group.terminates with
    | true => rfl
    | false =>
      rw [terminates] at ends
      cases ends

/-- A path with a step that ends a repetition is a terminator. -/
theorem terminates_of_mem_steps {path : Path} {step : Step}
    (ends : Outline.terminates step = true) (member : step ∈ path.steps.1) :
    path.terminates = true := by
  rcases source_of_mem_steps member with ⟨segment, listed, rfl | ⟨group, inside, follows, rfl⟩⟩
  · cases ends
  · refine List.any_eq_true.mpr ⟨segment, listed, ?_⟩
    exact List.any_eq_true.mpr ⟨group, inside, use_of_terminates ends⟩

end Marker

namespace Outline

open Marker (Step)

variable {growth : Growth} {progress : Progress} {taken : List Step} {step : Step} {after : Walk}

/-! ## Ends and values -/

/-- What a walk ends it ends by a terminator, and only behind one it makes no scopes. -/
theorem exists_terminates_of_ended {steps : List Step} {marker : Marker}
    (run : steps.foldlM walkStep (growth, beginWalk growth marker) = .ok after)
    (ended : after.2.closing = true ∨ after.2.closes ≠ []) :
    ∃ step ∈ steps, terminates step = true := by
  refine foldlM_induction_from_nil
    (motive := fun taken walk => walk.2.closing = true ∨ walk.2.closes ≠ [] →
      ∃ step ∈ taken, terminates step = true)
    (fun taken step before after holds run ended => ?_) steps
    (fun impossible => by simp [beginWalk] at impossible) run ended
  have earlier : before.2.closing = true ∨ before.2.closes ≠ [] →
      ∃ other ∈ taken ++ [step], terminates other = true := by
    intro before
    rcases holds before with ⟨other, member, ends⟩
    exact ⟨other, List.mem_append_left _ member, ends⟩
  cases taken_of_walkStep run with
  | astray | missing | found | narrowed | made => exact earlier ended
  | ended id name follows iterator onTrack known use =>
    exact ⟨step, List.mem_append_right _ (.head _), by rw [use]; rfl⟩

/-- A marker that ends a repetition inserts nothing. -/
theorem slot_eq_none_of_closes {markers : List Marker}
    (run : markers.foldlM grow Growth.start = .ok growth) :
    ∀ occurrence ∈ growth.outline.occurrences.toList, occurrence.closes ≠ [] →
      occurrence.slot = none := by
  refine foldlM_induction (motive := fun growth => ∀ occurrence ∈
    growth.outline.occurrences.toList, occurrence.closes ≠ [] → occurrence.slot = none) ?_
    (fun _ impossible => by cases impossible) run
  intro before marker after _ holds run occurrence member closes
  rcases grow_eq_ok.mp run with ⟨read, walk, reading, steps, rfl⟩
  rw [occurrences_record, occurrences_run steps, Array.toList_push, List.mem_append,
    List.mem_singleton] at member
  rcases member with old | rfl
  · exact holds occurrence old closes
  · rcases exists_terminates_of_ended steps (.inr closes) with ⟨step, listed, ends⟩
    simp [occurrenceOf, Marker.terminates_of_mem_steps ends listed]

/-! ## Ends and beginnings -/

/-- A walk that made a dimension stands inside it, and has ended nothing. -/
structure Exclusive (begun : Outline) (walk : Walk) : Prop where
  closing : walk.2.closes ≠ [] → walk.2.closing = true
  apart : walk.2.opens ≠ [] → walk.2.closes = [] ∧
    (walk.2.lost = false → begun.scopes.size ≤ walk.2.scope)

theorem Exclusive.onward {begun : Growth} (exclusive : Exclusive begun.outline (growth, progress))
    (tracks : Tracks begun (growth, progress)) (walked : AtTrail (growth, progress) taken)
    (readable : Marker.Readable (trail (taken ++ [step])))
    (taking : Taken growth progress step after) : Exclusive begun.outline after := by
  -- From a new scope a step only finds new ones.
  have further : progress.lost = false → ∀ {id : Nat},
      growth.find? (progress.keyAt step) = some id → progress.opens ≠ [] →
        begun.outline.scopes.size ≤ id := by
    intro onTrack id known opens
    rcases parent_of_find? walked readable onTrack known with ⟨scope, found, link⟩
    have inside := walked.keyed.rooted.parent_lt found link
    exact ((exclusive.apart opens).2 onTrack).trans (Nat.le_of_lt inside)
  cases taking with
  | astray lost => exact exclusive
  | missing =>
    exact ⟨exclusive.closing, fun opens => ⟨(exclusive.apart opens).1, fun onTrack => nomatch onTrack⟩⟩
  | found id onTrack known | narrowed id name follows iterator conditions onTrack known =>
    exact ⟨exclusive.closing, fun opens =>
      ⟨(exclusive.apart opens).1, fun _ => further onTrack known opens⟩⟩
  | made arrayKey onTrack unknown opening goes =>
    refine ⟨exclusive.closing, fun _ => ⟨?_, fun _ => tracks.keeps.size_le⟩⟩
    by_contra closes
    rw [exclusive.closing closes] at opening
    cases opening
  | ended id name follows iterator onTrack known use =>
    refine ⟨fun _ => rfl, fun opens => ?_⟩
    have ends : terminates step = true := by rw [use]; rfl
    have old := tracks.old_of_terminates onTrack ends known
    exact absurd old (Nat.not_lt_of_le (further onTrack known opens))

/-- No marker both begins a repetition and ends one. -/
theorem opens_or_closes_of_growth {markers : List Marker} (plain : PlainMarkers markers)
    (run : markers.foldlM grow Growth.start = .ok growth) :
    ∀ occurrence ∈ growth.outline.occurrences.toList,
      occurrence.opens = [] ∨ occurrence.closes = [] := by
  refine (foldlM_induction (motive := fun growth => (Keyed growth ∧ Sound growth) ∧
    ∀ occurrence ∈ growth.outline.occurrences.toList,
      occurrence.opens = [] ∨ occurrence.closes = []) ?_
    ⟨⟨keyed_start, sound_start⟩, fun _ impossible => by cases impossible⟩ run).2
  intro before marker after listed holds run
  rcases holds with ⟨⟨keyed, sound⟩, apart⟩
  refine ⟨⟨keyed_grow keyed (plain marker listed) run, sound_grow sound run⟩, ?_⟩
  rcases grow_eq_ok.mp run with ⟨read, walk, reading, steps, rfl⟩
  rcases readMarker_eq_ok reading with ⟨-, path⟩
  have walks := foldlM_induction_from_nil
    (motive := fun taken walk => Walkable taken → AtTrail walk taken ∧
      Tracks before walk ∧ Exclusive before.outline walk)
    (fun taken step between after holds run walkable => by
      rcases holds walkable.left with ⟨walked, tracks, exclusive⟩
      have taking := taken_of_walkStep run
      exact ⟨walked.onward walkable.readable (walkable.written step (by simp))
        (walkable.plain step (by simp)) taking, tracks.onward taking,
        exclusive.onward tracks walked walkable.readable taking⟩)
    read.path.steps.1
    (fun _ => ⟨atTrail_begin keyed marker, tracks_begin sound marker,
      fun impossible => absurd rfl impossible, fun impossible => absurd rfl impossible⟩)
    steps (walkable_steps path (plain marker listed _ path))
  intro occurrence member
  rw [occurrences_record, occurrences_run steps, Array.toList_push, List.mem_append,
    List.mem_singleton] at member
  rcases member with old | rfl
  · exact apart occurrence old
  · by_cases opens : walk.2.opens = []
    · exact .inl opens
    · exact .inr (walks.2.2.apart opens).1

end Outline

end Stencil
