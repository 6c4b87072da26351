import Stencil.Proofs.Outline.Alongside

namespace Stencil.Outline

open Marker (Step)

/-!
# The outline of two documents, one behind the other

The markers of the second document follow those of the first.  So the outline of
both begins with that of the first and goes on beside that of the second alone.
-/

variable {move : Relocation} {base alone whole : Growth}

/-! ## Markers -/

theorem PlainMarkers.map_shift {markers : List Marker} (plain : PlainMarkers markers) (size : Nat) :
    PlainMarkers (markers.map (Marker.shift size)) := by
  intro marker member
  rcases List.mem_map.mp member with ⟨origin, among, rfl⟩
  exact plain origin among

theorem Alongside.run {after afterWhole : Walk} {steps : List Step} :
    ∀ {taken : List Step} {before beforeWhole : Walk},
      Alongside move base before beforeWhole → AtTrail before taken →
      AtTrail beforeWhole taken → Walkable (taken ++ steps) →
      steps.foldlM walkStep before = .ok after →
      steps.foldlM walkStep beforeWhole = .ok afterWhole →
      (∀ count walk, (steps.take count).foldlM walkStep beforeWhole = .ok walk →
        Fresh base walk) →
      Places move after.1.outline afterWhole.1.outline →
      Alongside move base after afterWhole := by
  induction steps with
  | nil =>
    intro taken before beforeWhole along _ _ _ run runWhole _ _
    rw [← foldlM_nil_eq_ok.mp run, ← foldlM_nil_eq_ok.mp runWhole]
    exact along
  | cons step steps ih =>
    intro taken before beforeWhole along walked walkedWhole walkable run runWhole fresh places
    rcases foldlM_cons_eq_ok.mp run with ⟨between, first, rest⟩
    rcases foldlM_cons_eq_ok.mp runWhole with ⟨betweenWhole, firstWhole, restWhole⟩
    rcases walkable.next with ⟨readable, written, plain, walkable⟩
    have further := walked.onward readable written plain (taken_of_walkStep first)
    have furtherWhole := walkedWhole.onward readable written plain (taken_of_walkStep firstWhole)
    have last := further.run walkable rest
    have lastWhole := furtherWhole.run walkable restWhole
    have here : Places move between.1.outline betweenWhole.1.outline :=
      places.of_keeps (keeps_run rest) (keeps_run restWhole) further.keyed.rooted
        last.keyed.rooted furtherWhole.keyed.rooted lastWhole.keyed.rooted
    have newWhole : Fresh base betweenWhole := by
      apply fresh 1
      rw [List.take_succ_cons, List.take_zero]
      exact foldlM_cons_eq_ok.mpr ⟨betweenWhole, firstWhole, foldlM_nil_eq_ok.mpr rfl⟩
    have onward : Alongside move base between betweenWhole := by
      rcases before with ⟨alone, progress⟩
      rcases beforeWhole with ⟨whole, moved⟩
      obtain rfl : moved = move.progress progress := along.progress
      exact along.onward walked walkedWhole readable written plain (taken_of_walkStep first)
        (taken_of_walkStep firstWhole) newWhole here
    apply ih onward further furtherWhole walkable rest restWhole _ places
    intro count walk walks
    apply fresh (count + 1)
    rw [List.take_succ_cons]
    exact foldlM_cons_eq_ok.mpr ⟨betweenWhole, firstWhole, walks⟩

/-- A marker of the second document as it was read. -/
def moved (move : Relocation) (read : ReadMarker) : ReadMarker :=
  ⟨move.marker read.marker, read.path, read.calls⟩

theorem readMarker_marker (move : Relocation) {marker : Marker} {read : ReadMarker}
    (reading : readMarker marker = .ok read) :
    readMarker (move.marker marker) = .ok (moved move read) := by
  unfold readMarker at reading ⊢
  have path : (move.marker marker).path = marker.path := rfl
  rw [path]
  cases segments : Marker.readPath marker.path.toList with
  | error fault =>
    rw [segments] at reading
    cases reading
  | ok path =>
    rw [segments] at reading
    simp only at reading ⊢
    split at reading
    · cases reading
      rfl
    · split at reading
      · cases reading
      · cases reading
        rfl

/-- Both record the marker. -/
theorem Alongside.record {walk walkWhole : Walk} (along : Alongside move base walk walkWhole)
    (slots : move.slot = base.outline.slots.size) (read : ReadMarker) (field : String) :
    Beside move base (record walk read field) (record walkWhole (moved move read) field) := by
  have beside := along.beside
  have same := sameFrames_record walk read field
  have sameWhole := sameFrames_record walkWhole (moved move read) field
  have count : walkWhole.1.outline.slots.size = walk.1.outline.slots.size + move.slot := by
    rw [beside.slots, Array.size_append, Array.size_map, slots, Nat.add_comm]
  apply beside.of_sameFrames same rfl sameWhole rfl
  · intro id _
    rw [dimension?_record]
  · intro id idBound
    rw [dimension?_record, dimension?_record, beside.dimension? idBound]
  · unfold Outline.record
    cases ends : read.path.terminates with
    | true => simpa [moved, ends] using beside.slots
    | false =>
      simp only [moved, ends, addSlot, Bool.false_eq_true, if_false]
      rw [beside.slots, along.progress, Array.map_push, Array.append_push]
      rfl
  · unfold Outline.record
    cases ends : read.path.terminates with
    | true =>
      simp only [moved, ends, if_true]
      rw [beside.occurrences, along.progress, Array.map_push, Array.append_push]
      rfl
    | false =>
      simp only [moved, ends, addSlot, Bool.false_eq_true, if_false]
      rw [beside.occurrences, along.progress, Array.map_push, Array.append_push, count]
      rfl

/-- The walks of a marker among some others do not stand at dimensions of the base. -/
def FreshMarker (base whole : Growth) (marker : Marker) : Prop :=
  ∀ read count walk, readMarker marker = .ok read →
    (read.path.steps.1.take count).foldlM walkStep (whole, beginWalk whole marker) = .ok walk →
    Fresh base walk

/-- A marker keeps growths beside each other. -/
theorem Beside.grow (beside : Beside move base alone whole) {marker : Marker}
    (plain : ∀ path, Marker.readPath marker.path.toList = .ok path → path.Plain)
    (slots : move.slot = base.outline.slots.size)
    (points : move.point = base.outline.occurrences.size) {after afterWhole : Growth}
    (grown : Outline.grow alone marker = .ok after)
    (grownWhole : Outline.grow whole (move.marker marker) = .ok afterWhole)
    (fresh : FreshMarker base whole (move.marker marker))
    (places : Places move after.outline afterWhole.outline) :
    Beside move base after afterWhole := by
  rcases grow_eq_ok.mp grown with ⟨read, walk, reading, run, rfl⟩
  rcases grow_eq_ok.mp grownWhole with ⟨readWhole, walkWhole, readingWhole, runWhole, rfl⟩
  have sameRead := readMarker_marker move reading
  rw [readingWhole] at sameRead
  cases sameRead
  rcases readMarker_eq_ok reading with ⟨-, path⟩
  have walkable := walkable_steps path (plain _ path)
  have begins := atTrail_begin beside.keyed marker
  have beginsWhole := atTrail_begin beside.keyedWhole (move.marker marker)
  have last := begins.run walkable run
  have lastWhole := beginsWhole.run walkable runWhole
  have same := sameFrames_record walk read read.path.steps.2
  have sameWhole := sameFrames_record walkWhole (moved move read) read.path.steps.2
  have count : whole.outline.occurrences.size = alone.outline.occurrences.size + move.point := by
    rw [beside.occurrences, Array.size_append, Array.size_map, points, Nat.add_comm]
  have along : Alongside move base (alone, beginWalk alone marker)
      (whole, beginWalk whole (move.marker marker)) := by
    refine ⟨beside, ?_, fun impossible => (by cases impossible)⟩
    unfold beginWalk
    rw [count]
    simp [Relocation.progress, beside.payload, Nat.add_right_comm]
  have ended := along.run begins beginsWhole walkable run runWhole
    (fun count walk walks => fresh _ count walk readingWhole walks)
    (places.of_keeps same.keeps sameWhole.keeps last.keyed.rooted
      (same.rooted last.keyed.rooted) lastWhole.keyed.rooted
      (sameWhole.rooted lastWhole.keyed.rooted))
  exact ended.record slots read _

theorem Beside.growth {markers : List Marker} (slots : move.slot = base.outline.slots.size)
    (points : move.point = base.outline.occurrences.size) {after afterWhole : Growth} :
    ∀ {alone whole : Growth}, Beside move base alone whole → PlainMarkers markers →
      markers.foldlM Outline.grow alone = .ok after →
      (markers.map move.marker).foldlM Outline.grow whole = .ok afterWhole →
      (∀ front marker back between, markers = front ++ marker :: back →
        (front.map move.marker).foldlM Outline.grow whole = .ok between →
        FreshMarker base between (move.marker marker)) →
      Places move after.outline afterWhole.outline →
      Beside move base after afterWhole := by
  induction markers with
  | nil =>
    intro alone whole beside _ grown grownWhole _ _
    rw [← foldlM_nil_eq_ok.mp grown, ← foldlM_nil_eq_ok.mp grownWhole]
    exact beside
  | cons marker markers ih =>
    intro alone whole beside plain grown grownWhole fresh places
    rcases foldlM_cons_eq_ok.mp grown with ⟨between, first, rest⟩
    rcases foldlM_cons_eq_ok.mp grownWhole with ⟨betweenWhole, firstWhole, restWhole⟩
    have plainRest : PlainMarkers markers := fun other member => plain other (.tail _ member)
    have plainMoved : PlainMarkers (markers.map move.marker) := plainRest.map_shift move.offset
    have keyed := keyed_grow beside.keyed (plain marker (.head _)) first
    have plainWhole : ∀ path, Marker.readPath (move.marker marker).path.toList = .ok path →
        path.Plain := plain marker (.head _)
    have keyedWhole := keyed_grow beside.keyedWhole plainWhole firstWhole
    have onward := beside.grow (plain marker (.head _)) slots points first firstWhole
      (fresh [] marker markers whole rfl (foldlM_nil_eq_ok.mpr rfl))
      (places.of_keeps (keeps_growth rest) (keeps_growth restWhole) keyed.rooted
        (keyed_growth keyed plainRest rest).rooted keyedWhole.rooted
        (keyed_growth keyedWhole plainMoved restWhole).rooted)
    apply ih onward plainRest rest restWhole _ places
    intro front other back later split grownFront
    apply fresh (marker :: front) other back later (by rw [split]; rfl)
    exact foldlM_cons_eq_ok.mpr ⟨betweenWhole, firstWhole, grownFront⟩

/-- Nothing alone beside the base itself. -/
theorem beside_start (keyed : Keyed base) (keeps : Keeps Growth.start.outline base.outline)
    (payload : move.scope root = root) : Beside move base Growth.start base := by
  refine
    { keyed := keyed_start
      keyedWhole := keyed
      kept := .refl _
      still := fun _ _ => rfl
      payload := payload
      images := ?_
      beyond := ?_
      onto := fun image beyond bound => absurd bound (Nat.not_lt_of_le beyond)
      rising := ?_
      slots := by simp [Growth.start, start]
      occurrences := by simp [Growth.start, start] }
  · intro id scope found
    rcases eq_rootScope_of_start found with ⟨rfl, rfl⟩
    rcases keeps root rootScope found with ⟨image, foundImage, same⟩
    have object : image.isArray = false := congrArg Frame.repeated same
    refine ⟨image, by rw [payload]; exact foundImage,
      congrArg Frame.parent same, congrArg Frame.access same, ?_, ?_⟩
    · unfold Scope.isArray at object
      rw [Option.isSome_eq_false_iff, Option.isNone_iff_eq_none] at object
      rw [object]
      rfl
    · intro impossible
      cases impossible
  · intro id array
    rcases scopeIs_eq_true.mp array with ⟨scope, found, kind⟩
    rw [(eq_rootScope_of_start found).2] at kind
    cases kind
  · intro left right less bound
    rw [Nat.lt_one_iff.mp bound] at less
    exact absurd less (Nat.not_lt_zero _)

end Stencil.Outline
