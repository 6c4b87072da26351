import Stencil.Proofs.Outline.Frame
import Stencil.Proofs.Outline.Taken

namespace Stencil.Outline

open Marker (Step)

/-!
# Outlines built from markers are coherent

Whatever markers an outline is made of, it is a tree of scopes, its slots belong
to scopes it has, and its occurrences list the slots one after the other.  The
proof follows the construction: what one step of a walk keeps, what recording a
marker keeps, and so what the whole list of markers keeps.
-/

/-- A tree of scopes with slots in them, listed by the occurrences. -/
structure Coherent (outline : Outline) : Prop where
  rooted : Rooted outline
  slotScope : ∀ (id : Nat) slot, outline.slots[id]? = some slot →
    slot.scope < outline.scopes.size
  listed : outline.occurrences.toList.filterMap Occurrence.slot = List.range outline.slots.size

/-- A coherent outline whose keys lead to its scopes, never to the payload's
own. -/
structure Sound (growth : Growth) : Prop where
  coherent : Coherent growth.outline
  known : ∀ key (id : Nat), growth.find? key = some id → id < growth.outline.scopes.size

/-- At the start there is nothing but the payload. -/
theorem eq_rootScope_of_start {id : Nat} {scope : Scope}
    (found : Growth.start.outline.scopes[id]? = some scope) : id = root ∧ scope = rootScope := by
  have atRoot : id = root := Nat.lt_one_iff.mp (lt_size_of_getElem? found)
  subst atRoot
  cases found
  exact ⟨rfl, rfl⟩

theorem sound_start : Sound Growth.start := by
  constructor
  · refine ⟨⟨⟨rootScope, rfl, rfl, rfl, rfl⟩, ?_⟩, ?_, rfl⟩
    · intro id scope found elsewhere
      exact absurd (eq_rootScope_of_start found).1 elsewhere
    · intro id slot found
      simp [Growth.start, start] at found
  · intro key id found
    simp [Growth.find?, Growth.start] at found

/-! ## One step -/

theorem find?_addScope (growth : Growth) (key other : String) (scope : Scope)
    (arrayKey : Option String) :
    (growth.addScope key scope arrayKey).find? other =
      if other = key then some growth.outline.scopes.size else growth.find? other := by
  simp only [Growth.find?, Growth.addScope, List.lookup_cons]
  by_cases same : other = key
  · simp [same]
  · rw [beq_eq_false_iff_ne.mpr same, if_neg same]

theorem isArray_scopeMade (growth : Growth) (progress : Progress) {step : Step}
    (goes : terminates step = false) :
    (scopeMade growth progress step).isArray = repeats step := by
  match step, goes with
  | .object _, _ => rfl
  | .group _ _ (.search _), _ => rfl
  | .group _ _ (.loop _ _), _ => rfl
  | .group _ _ (.terminate _), impossible => cases impossible

variable {growth : Growth} {progress : Progress} {step : Step} {after : Walk}

/-- A step only adds scopes. -/
theorem Taken.keeps (taken : Taken growth progress step after) :
    Keeps growth.outline after.1.outline := by
  cases taken with
  | astray | missing | found => exact .refl _
  | narrowed | ended => exact (sameFrames_modifyDimension growth _ _).keeps
  | made => exact keeps_addScope growth _ _ _

theorem Taken.slots (taken : Taken growth progress step after) :
    after.1.outline.slots = growth.outline.slots := by
  cases taken <;> rfl

theorem Taken.occurrences (taken : Taken growth progress step after) :
    after.1.outline.occurrences = growth.outline.occurrences := by
  cases taken <;> rfl

theorem Taken.marker (taken : Taken growth progress step after) :
    after.2.marker = progress.marker := by
  cases taken <;> rfl

theorem Taken.point (taken : Taken growth progress step after) :
    after.2.point = progress.point := by
  cases taken <;> rfl

theorem Taken.place (taken : Taken growth progress step after) :
    after.2.place = progress.place := by
  cases taken <;> rfl

/-- A step keeps the tree a tree, whatever it does. -/
theorem Taken.rooted (taken : Taken growth progress step after) (rooted : Rooted growth.outline)
    (bound : progress.scope < growth.outline.scopes.size) : Rooted after.1.outline := by
  cases taken with
  | astray | missing | found => exact rooted
  | narrowed | ended => exact (sameFrames_modifyDimension growth _ _).rooted rooted
  | made arrayKey onTrack unknown opening goes =>
    refine rooted_addScope rooted rfl bound ?_
    rw [isArray_scopeMade growth progress goes]
    rfl

theorem Taken.scope_lt (taken : Taken growth progress step after) (sound : Sound growth)
    (bound : progress.scope < growth.outline.scopes.size) :
    after.2.scope < after.1.outline.scopes.size := by
  cases taken with
  | astray | missing => exact bound
  | found id onTrack known => exact sound.known _ id known
  | narrowed id name follows iterator conditions onTrack known =>
    rw [(sameFrames_modifyDimension growth _ _).size]
    exact sound.known _ id known
  | made => simp [Growth.addScope, Progress.enter]
  | ended id name follows iterator onTrack known =>
    rw [(sameFrames_modifyDimension growth _ _).size]
    exact sound.known _ id known

theorem Taken.sound (taken : Taken growth progress step after) (sound : Sound growth)
    (bound : progress.scope < growth.outline.scopes.size) : Sound after.1 := by
  have more := taken.keeps.size_le
  refine ⟨⟨taken.rooted sound.coherent.rooted bound, ?_, ?_⟩, ?_⟩
  · intro id slot found
    rw [taken.slots] at found
    exact (sound.coherent.slotScope id slot found).trans_le more
  · rw [taken.occurrences, taken.slots]
    exact sound.coherent.listed
  · intro key id found
    cases taken with
    | astray | missing | found => exact sound.known key id found
    | narrowed | ended => exact (sound.known key id found).trans_le more
    | made arrayKey onTrack unknown opening goes =>
      rw [find?_addScope] at found
      split at found
      · cases found
        simp [Growth.addScope]
      · exact (sound.known key id found).trans_le more

/-! ## One marker -/

/-- A walk through a sound growth that stands at one of its scopes. -/
def Walking (walk : Walk) : Prop := Sound walk.1 ∧ walk.2.scope < walk.1.outline.scopes.size

theorem walking_begin (sound : Sound growth) (marker : Marker) :
    Walking (growth, beginWalk growth marker) :=
  ⟨sound, size_pos sound.coherent.rooted⟩

theorem walking_run {steps : List Step} {before after : Walk} (walking : Walking before)
    (run : steps.foldlM walkStep before = .ok after) : Walking after := by
  refine foldlM_induction ?_ walking run
  intro before step after _ walking taken
  have taken := taken_of_walkStep taken
  exact ⟨taken.sound walking.1 walking.2, taken.scope_lt walking.1 walking.2⟩

theorem keeps_run {steps : List Step} {before after : Walk}
    (run : steps.foldlM walkStep before = .ok after) :
    Keeps before.1.outline after.1.outline := by
  refine foldlM_induction (motive := fun walk => Keeps before.1.outline walk.1.outline) ?_
    (.refl _) run
  intro walk step next _ keeps taken
  exact keeps.trans (taken_of_walkStep taken).keeps

/-! Steps leave slots and occurrences alone, and the marker and its place. -/

section

variable {steps : List Step} {before after : Walk} (run : steps.foldlM walkStep before = .ok after)

include run

theorem slots_run : after.1.outline.slots = before.1.outline.slots :=
  foldlM_induction (motive := fun walk => walk.1.outline.slots = before.1.outline.slots)
    (fun _ _ _ _ same taken => (taken_of_walkStep taken).slots.trans same) rfl run

theorem occurrences_run : after.1.outline.occurrences = before.1.outline.occurrences :=
  foldlM_induction (motive := fun walk => walk.1.outline.occurrences = before.1.outline.occurrences)
    (fun _ _ _ _ same taken => (taken_of_walkStep taken).occurrences.trans same) rfl run

theorem marker_run : after.2.marker = before.2.marker :=
  foldlM_induction (motive := fun walk => walk.2.marker = before.2.marker)
    (fun _ _ _ _ same taken => (taken_of_walkStep taken).marker.trans same) rfl run

theorem place_run : after.2.place = before.2.place :=
  foldlM_induction (motive := fun walk => walk.2.place = before.2.place)
    (fun _ _ _ _ same taken => (taken_of_walkStep taken).place.trans same) rfl run

end

/-- Recording a marker changes no frame. -/
theorem sameFrames_record (walk : Walk) (read : ReadMarker) (field : String) :
    SameFrames walk.1.outline (record walk read field).outline := by
  unfold record
  cases ends : read.path.terminates with
  | true => simp [SameFrames]
  | false =>
    simp only [Bool.false_eq_true, if_false]
    exact sameFrames_addSlot walk.1.outline _

theorem dimension?_record (walk : Walk) (read : ReadMarker) (field : String) (id : Nat) :
    (record walk read field).outline.scopes[id]?.bind Scope.dimension? =
      walk.1.outline.scopes[id]?.bind Scope.dimension? := by
  unfold record
  cases ends : read.path.terminates with
  | true => rfl
  | false =>
    simp only [addSlot, Bool.false_eq_true, if_false, Array.getElem?_modify]
    split
    · cases walk.1.outline.scopes[id]? <;> rfl
    · rfl

theorem sound_record {walk : Walk} (walking : Walking walk) (read : ReadMarker)
    (field : String) : Sound (record walk read field) := by
  obtain ⟨sound, bound⟩ := walking
  have same := sameFrames_record walk read field
  refine ⟨⟨same.rooted sound.coherent.rooted, ?_, ?_⟩, ?_⟩
  · intro id slot found
    rw [same.size]
    unfold record at found
    cases ends : read.path.terminates with
    | true =>
      simp only [ends, if_true] at found
      exact sound.coherent.slotScope id slot found
    | false =>
      simp only [ends, Bool.false_eq_true, if_false, addSlot, Array.getElem?_push] at found
      split at found
      · cases found
        exact bound
      · exact sound.coherent.slotScope id slot found
  · unfold record
    cases ends : read.path.terminates with
    | true => simp [List.filterMap_append, sound.coherent.listed]
    | false =>
      simp [addSlot, List.filterMap_append, sound.coherent.listed, List.range_succ]
  · intro key id found
    rw [same.size]
    exact sound.known key id found

/-- What happens to one marker: it is read, its steps are walked, and it is
recorded. -/
theorem grow_eq_ok {marker : Marker} {after : Growth} :
    grow growth marker = .ok after ↔
      ∃ (read : ReadMarker) (walk : Walk), readMarker marker = .ok read ∧
        read.path.steps.1.foldlM walkStep (growth, beginWalk growth marker) = .ok walk ∧
        after = record walk read read.path.steps.2 := by
  unfold grow
  constructor
  · intro run
    obtain ⟨read, reading, run⟩ := bind_eq_ok.mp run
    obtain ⟨walk, walked, run⟩ := bind_eq_ok.mp run
    cases run
    exact ⟨read, walk, reading, walked, rfl⟩
  · rintro ⟨read, walk, reading, walked, rfl⟩
    exact bind_eq_ok.mpr ⟨read, reading, bind_eq_ok.mpr ⟨walk, walked, rfl⟩⟩

theorem sound_grow {marker : Marker} {after : Growth} (sound : Sound growth)
    (grown : grow growth marker = .ok after) : Sound after := by
  obtain ⟨read, walk, -, walked, rfl⟩ := grow_eq_ok.mp grown
  exact sound_record (walking_run (walking_begin sound marker) walked) read _

theorem keeps_grow {marker : Marker} {after : Growth} (grown : grow growth marker = .ok after) :
    Keeps growth.outline after.outline := by
  obtain ⟨read, walk, -, walked, rfl⟩ := grow_eq_ok.mp grown
  exact (keeps_run walked).trans (sameFrames_record walk read _).keeps

/-! ## Whole documents -/

theorem settle_eq_ok {policy : Unterminated} {outline settled : Outline}
    (accepted : settle policy outline = .ok settled) : settled = outline := by
  unfold settle at accepted
  cases policy with
  | permissive =>
    cases accepted
    rfl
  | strict =>
    cases faulty : outline.scopes.toList.zipIdx.findSome? (unterminated? outline) with
    | some error =>
      simp only [faulty] at accepted
      cases accepted
    | none =>
      simp only [faulty] at accepted
      cases accepted
      rfl

/-- The outline of some markers is what they make one after the other. -/
theorem ofMarkers_eq_ok {markers : List Marker} {policy : Unterminated} {outline : Outline}
    (accepted : ofMarkers markers policy = .ok outline) :
    ∃ growth, (inDocumentOrder markers).foldlM grow Growth.start = .ok growth ∧
      outline = growth.outline := by
  obtain ⟨growth, grown, settled⟩ := bind_eq_ok.mp accepted
  exact ⟨growth, grown, settle_eq_ok settled⟩

theorem sound_growth {markers : List Marker} {before after : Growth} (sound : Sound before)
    (grown : markers.foldlM grow before = .ok after) : Sound after :=
  foldlM_induction (fun _ _ _ _ sound grown => sound_grow sound grown) sound grown

/-- Every outline of markers is coherent. -/
theorem coherent_of_ofMarkers {markers : List Marker} {policy : Unterminated}
    {outline : Outline} (accepted : ofMarkers markers policy = .ok outline) :
    Coherent outline := by
  obtain ⟨growth, grown, rfl⟩ := ofMarkers_eq_ok accepted
  exact (sound_growth sound_start grown).coherent

end Stencil.Outline
