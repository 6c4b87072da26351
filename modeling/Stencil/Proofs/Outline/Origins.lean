import Stencil.Proofs.Marker.Names
import Stencil.Proofs.Outline.Exclusive
import Stencil.Proofs.Outline.Reached

namespace Stencil.Outline

open Marker (Step)

/-!
# Where scopes and slots come from

Every scope was made by a step of some marker, which says how it is reached.  A marker
that ends no repetition comes to all scopes of its path, so its slot inserts what the
path names: the attribute behind the last step, handed through the formatters behind
the colon.  Only a path without steps stays at the payload, since every step leads to a
scope of its own.
-/

theorem mem_inDocumentOrder {markers : List Marker} {marker : Marker} :
    marker ∈ inDocumentOrder markers ↔ marker ∈ markers :=
  (perm_orderBy _ markers).mem_iff

variable {growth : Growth} {progress : Progress} {step : Step} {after : Walk}

/-! ## Scopes -/

/-- A step of one of some markers made this scope. -/
def MadeBy (markers : List Marker) (scope : Scope) : Prop :=
  ∃ marker ∈ markers, ∃ read, readMarker marker = .ok read ∧
    ∃ step ∈ read.path.steps.1, terminates step = false ∧
      scope.isArray = repeats step ∧ scope.access = accessMade step

theorem MadeBy.of_frame {markers : List Marker} {scope later : Scope}
    (made : MadeBy markers scope) (same : frame later = frame scope) : MadeBy markers later := by
  rcases made with ⟨marker, member, read, reading, step, listed, goes, kind, access⟩
  exact ⟨marker, member, read, reading, step, listed, goes,
    (congrArg Frame.repeated same).trans kind, (congrArg Frame.access same).trans access⟩

/-- Every scope but that of the payload was made by some marker. -/
def Made (markers : List Marker) (outline : Outline) : Prop :=
  ∀ (id : Nat) scope, outline.scopes[id]? = some scope → id ≠ root → MadeBy markers scope

theorem Made.of_sameFrames {markers : List Marker} {before after : Outline}
    (made : Made markers before) (same : SameFrames before after) : Made markers after := by
  intro id scope found elsewhere
  rcases same.symm.keeps id scope found with ⟨old, foundOld, frames⟩
  exact (made id old foundOld elsewhere).of_frame frames.symm

theorem Taken.makes {markers : List Marker} (taking : Taken growth progress step after)
    (made : Made markers growth.outline) {marker : Marker} (member : marker ∈ markers)
    {read : ReadMarker} (reading : readMarker marker = .ok read)
    (listed : step ∈ read.path.steps.1) : Made markers after.1.outline := by
  cases taking with
  | astray | missing | found => exact made
  | narrowed | ended => exact made.of_sameFrames (sameFrames_modifyDimension growth _ _)
  | made arrayKey onTrack unknown opening goes =>
    intro id scope found elsewhere
    rcases old_or_new found with old | ⟨-, rfl⟩
    · exact made id scope old elsewhere
    · exact ⟨marker, member, read, reading, step, listed, goes,
        isArray_scopeMade growth progress goes, rfl⟩

theorem made_of_growth {markers : List Marker}
    (run : markers.foldlM grow Growth.start = .ok growth) : Made markers growth.outline := by
  refine foldlM_induction (motive := fun growth => Made markers growth.outline) ?_ ?_ run
  · intro before marker after member made grown
    rcases grow_eq_ok.mp grown with ⟨read, walk, reading, steps, rfl⟩
    refine Made.of_sameFrames ?_ (sameFrames_record walk read read.path.steps.2)
    exact foldlM_induction (motive := fun walk : Walk => Made markers walk.1.outline)
      (fun _ step _ listed made run => (taken_of_walkStep run).makes made member reading listed)
      made steps
  · intro id scope found elsewhere
    exact absurd (eq_rootScope_of_start found).1 elsewhere

/-! ## Walks without terminators -/

/-- No key leads to the scope of the payload. -/
def KeysInside (growth : Growth) : Prop := ∀ key, growth.find? key ≠ some root

theorem keysInside_start : KeysInside Growth.start := by
  intro key impossible
  cases impossible

/-- A step makes scopes behind that of the payload. -/
theorem Taken.keysInside (taking : Taken growth progress step after)
    (rooted : Rooted growth.outline) (inside : KeysInside growth) : KeysInside after.1 := by
  cases taking with
  | astray | missing | found | narrowed | ended => exact inside
  | made =>
    intro key
    rw [find?_addScope]
    split
    · intro same
      exact absurd (Option.some.inj same) (Nat.ne_of_gt (size_pos rooted))
    · exact inside key

/-- A walk that passed no terminator is at the payload just if it has taken no step. -/
structure Straight (walk : Walk) (taken : List Step) : Prop where
  walking : Walking walk
  keys : KeysInside walk.1
  onTrack : walk.2.lost = false
  opening : walk.2.closing = false
  atPayload : walk.2.scope = root ↔ taken = []

theorem straight_begin (sound : Sound growth) (keys : KeysInside growth) (marker : Marker) :
    Straight (growth, beginWalk growth marker) [] where
  walking := walking_begin sound marker
  keys := keys
  onTrack := rfl
  opening := rfl
  atPayload := ⟨fun _ => rfl, fun _ => rfl⟩

theorem Straight.onward {taken : List Step} (straight : Straight (growth, progress) taken)
    (goes : terminates step = false) (taking : Taken growth progress step after) :
    Straight after (taken ++ [step]) := by
  have rooted := straight.walking.1.coherent.rooted
  have walking : Walking after := ⟨taking.sound straight.walking.1 straight.walking.2,
    taking.scope_lt straight.walking.1 straight.walking.2⟩
  have keys := taking.keysInside rooted straight.keys
  have reached : ∀ {id : Nat}, growth.find? (progress.keyAt step) = some id →
      (id = root ↔ taken ++ [step] = []) := by
    intro id known
    have elsewhere : id ≠ root := by
      rintro rfl
      exact straight.keys _ known
    simp [elsewhere]
  cases taking with
  | astray lost => exact absurd (lost.symm.trans straight.onTrack) (by decide)
  | missing _ _ closing => exact absurd (closing.symm.trans straight.opening) (by decide)
  | found id onTrack known => exact ⟨walking, keys, onTrack, straight.opening, reached known⟩
  | narrowed id name follows iterator conditions onTrack known =>
    exact ⟨walking, keys, onTrack, straight.opening, reached known⟩
  | made arrayKey onTrack unknown opening =>
    refine ⟨walking, keys, onTrack, opening, ?_⟩
    have new : growth.outline.scopes.size ≠ root := Nat.ne_of_gt (size_pos rooted)
    exact ⟨fun same => absurd same new, fun impossible => by simp at impossible⟩
  | ended id name follows iterator onTrack known use =>
    rw [use] at goes
    cases goes

theorem Straight.run {steps : List Step} {begun : Walk} (straight : Straight begun [])
    (goes : ∀ step ∈ steps, terminates step = false)
    (run : steps.foldlM walkStep begun = .ok after) : Straight after steps := by
  refine foldlM_induction_from_nil
    (motive := fun taken walk => (∀ step ∈ taken, terminates step = false) → Straight walk taken)
    (fun taken step before after holds run goes => ?_) steps (fun _ => straight) run goes
  exact (holds fun other member => goes other (List.mem_append_left _ member)).onward
    (goes step (List.mem_append_right _ (.head _))) (taken_of_walkStep run)

theorem keysInside_run {steps : List Step} {before after : Walk} (walking : Walking before)
    (inside : KeysInside before.1) (run : steps.foldlM walkStep before = .ok after) :
    KeysInside after.1 := by
  refine (foldlM_induction (motive := fun walk => Walking walk ∧ KeysInside walk.1)
    (fun before step after _ holds run => ?_) ⟨walking, inside⟩ run).2
  have taking := taken_of_walkStep run
  exact ⟨⟨taking.sound holds.1.1 holds.1.2, taking.scope_lt holds.1.1 holds.1.2⟩,
    taking.keysInside holds.1.1.coherent.rooted holds.2⟩

theorem keysInside_grow {marker : Marker} {grown : Growth} (sound : Sound growth)
    (inside : KeysInside growth) (run : grow growth marker = .ok grown) : KeysInside grown := by
  rcases grow_eq_ok.mp run with ⟨read, walk, -, steps, rfl⟩
  exact keysInside_run (walking_begin sound marker) inside steps

theorem keysInside_of_growth {markers : List Marker}
    (run : markers.foldlM grow Growth.start = .ok growth) : KeysInside growth :=
  (foldlM_induction (motive := fun growth => Sound growth ∧ KeysInside growth)
    (fun _ _ _ _ holds run => ⟨sound_grow holds.1 run, keysInside_grow holds.1 holds.2 run⟩)
    ⟨sound_start, keysInside_start⟩ run).2

/-! ## Slots -/

/-- A slot inserts what its marker names, from the scope that the path leads to. -/
structure Inserts (markers : List Marker) (slot : Slot) (read : ReadMarker) : Prop where
  listed : ⟨slot.place.offset, slot.path⟩ ∈ markers
  reading : readMarker ⟨slot.place.offset, slot.path⟩ = .ok read
  goes : read.path.terminates = false
  field : slot.field = read.path.steps.2
  calls : slot.calls = read.calls
  leads : Leads markers read.path.steps.1 slot.scope
  atPayload : slot.scope = root ↔ read.path.steps.1 = []

/-- One of some markers, which ends nothing, left this slot behind. -/
def Slotted (markers : List Marker) (slot : Slot) : Prop :=
  ∃ earlier marker later begun read walk, markers = earlier ++ marker :: later ∧
    earlier.foldlM grow Growth.start = .ok begun ∧ readMarker marker = .ok read ∧
    read.path.steps.1.foldlM walkStep (begun, beginWalk begun marker) = .ok walk ∧
    read.path.terminates = false ∧
    slot = ⟨walk.2.scope, read.path.steps.2, read.calls, walk.2.place, read.marker.path⟩

theorem Slotted.further {markers : List Marker} {slot : Slot} (slotted : Slotted markers slot)
    (marker : Marker) : Slotted (markers ++ [marker]) slot := by
  rcases slotted with ⟨earlier, other, later, begun, read, walk, split, rest⟩
  exact ⟨earlier, other, later ++ [marker], begun, read, walk, by simp [split], rest⟩

/-- Every slot was left behind by a marker. -/
theorem slotted_of_growth {markers : List Marker}
    (run : markers.foldlM grow Growth.start = .ok growth) :
    ∀ (id : Nat) slot, growth.outline.slots[id]? = some slot → Slotted markers slot := by
  refine foldlM_induction_along (motive := fun taken growth => ∀ (id : Nat) slot,
    growth.outline.slots[id]? = some slot → Slotted taken slot) ?_
    (fun id slot impossible => by cases impossible) run
  intro taken marker before after _ ran slotted grown id slot found
  rcases grow_eq_ok.mp grown with ⟨read, walk, reading, steps, rfl⟩
  rw [slots_record, slots_run steps] at found
  split at found
  · exact (slotted id slot found).further marker
  · next goes =>
    rw [Array.getElem?_push] at found
    split at found
    · cases found
      exact ⟨taken, marker, [], before, read, walk, rfl, ran, reading, steps, by simpa using goes,
        rfl⟩
    · exact (slotted id slot found).further marker

theorem inserts_of_ofMarkers {markers : List Marker} {policy : Unterminated} {outline : Outline}
    (accepted : ofMarkers markers policy = .ok outline) {id : Nat} {slot : Slot}
    (found : outline.slots[id]? = some slot) : ∃ read, Inserts markers slot read := by
  rcases ofMarkers_eq_ok accepted with ⟨growth, grown, rfl⟩
  rcases slotted_of_growth grown id slot found with
    ⟨earlier, marker, later, begun, read, walk, order, ran, reading, steps, goes, rfl⟩
  have straight := (straight_begin (sound_growth sound_start ran) (keysInside_of_growth ran)
    marker).run (fun step member => by
      by_contra ends
      have terminator := Marker.terminates_of_mem_steps (by simpa using ends) member
      rw [goes] at terminator
      cases terminator) steps
  have place : walk.2.marker = marker := marker_run steps
  have itself : (⟨walk.2.place.offset, read.marker.path⟩ : Marker) = marker := by
    show (⟨walk.2.marker.offset, read.marker.path⟩ : Marker) = marker
    rw [place, (readMarker_eq_ok reading).1]
  refine ⟨read, ?_, (congrArg readMarker itself).trans reading, goes, rfl, rfl, ?_,
    straight.atPayload⟩
  · have listed : marker ∈ inDocumentOrder markers := by
      rw [order]
      exact List.mem_append_right _ (.head _)
    rw [itself]
    exact mem_inDocumentOrder.mp listed
  · refine ⟨earlier, marker, later, read.path.steps.1.length, walk, order, ?_, straight.onTrack, rfl⟩
    have whole : read.path.steps.1.take read.path.steps.1.length = read.path.steps.1 :=
      List.take_length
    rw [trace_of_run ran reading (by rw [whole]; exact steps), whole]

end Stencil.Outline
