import Stencil.Proofs.Outline.Points

namespace Stencil.Outline

open Marker (Step)

/-!
# What markers leave behind

Every marker leaves one occurrence with its offset, and later markers change nothing
that points at earlier ones: slots and occurrences stay in front, scopes keep their
frames, and what is new has a later point.  The ends of dimensions stand at markers.
The first marker of all cannot end anything, so it inserts a value.
-/

variable {growth : Growth} {progress : Progress} {step : Step} {after : Walk}

/-! ## Occurrences -/

/-- What a walk leaves behind. -/
def occurrenceOf (walk : Walk) (read : ReadMarker) : Occurrence where
  offset := read.marker.offset
  path := read.marker.path
  opens := walk.2.opens
  closes := walk.2.closes
  slot := if read.path.terminates then none else some walk.1.outline.slots.size
  terminates := read.path.terminates

theorem occurrences_record (walk : Walk) (read : ReadMarker) (field : String) :
    (record walk read field).outline.occurrences =
      walk.1.outline.occurrences.push (occurrenceOf walk read) := by
  unfold record occurrenceOf
  cases ends : read.path.terminates <;> simp [addSlot]

/-- Occurrences open scopes that exist. -/
def OpensScopes (outline : Outline) : Prop :=
  ∀ occurrence ∈ outline.occurrences.toList, ∀ id ∈ occurrence.opens, id < outline.scopes.size

theorem opens_lt_run {steps : List Step} {before after : Walk}
    (run : steps.foldlM walkStep before = .ok after)
    (known : ∀ id ∈ before.2.opens, id < before.1.outline.scopes.size) :
    ∀ id ∈ after.2.opens, id < after.1.outline.scopes.size := by
  apply foldlM_induction (motive := fun walk : Walk => ∀ id ∈ walk.2.opens,
    id < walk.1.outline.scopes.size) _ known run
  intro before step after _ known run id listed
  have taking := taken_of_walkStep run
  have more := taking.keeps.size_le
  cases taking with
  | astray | missing | found | narrowed | ended => exact (known id listed).trans_le more
  | made =>
    rcases List.mem_append.mp listed with old | new
    · exact (known id old).trans_le more
    · split at new
      · rw [List.mem_singleton.mp new, size_addScope]
        exact Nat.lt_succ_self _
      · cases new

theorem opensScopes_grow {marker : Marker} {grown : Growth} (run : grow growth marker = .ok grown)
    (opens : OpensScopes growth.outline) : OpensScopes grown.outline := by
  have more := (keeps_grow run).size_le
  rcases grow_eq_ok.mp run with ⟨read, walk, -, steps, rfl⟩
  intro occurrence listed id opened
  rw [occurrences_record, Array.toList_push, occurrences_run steps] at listed
  rcases List.mem_append.mp listed with old | new
  · exact (opens occurrence old id opened).trans_le more
  · rw [List.mem_singleton.mp new] at opened
    rw [(sameFrames_record walk read _).size]
    apply opens_lt_run steps _ id opened
    intro other impossible
    cases impossible

theorem opensScopes_of_growth {markers : List Marker}
    (run : markers.foldlM grow Growth.start = .ok growth) : OpensScopes growth.outline :=
  foldlM_induction (motive := fun growth => OpensScopes growth.outline)
    (fun _ _ _ _ opens run => opensScopes_grow run opens)
    (fun _ impossible => by cases impossible) run

/-! ## Ends of dimensions -/

/-- The ends of dimensions stand at offsets of some kind. -/
def EndsAt (fits : Nat → Prop) (outline : Outline) : Prop :=
  ∀ (id : Nat) dimension, outline.scopes[id]?.bind Scope.dimension? = some dimension →
    (∀ place, dimension.closing = some place → fits place.offset) ∧
      ∀ stop, dimension.skipEnd = some stop → fits stop

variable {fits : Nat → Prop}

theorem Progress.changed_endsAt {dimension : Dimension} (here : fits progress.marker.offset)
    (closing : ∀ place, dimension.closing = some place → fits place.offset)
    (skipEnd : ∀ stop, dimension.skipEnd = some stop → fits stop) :
    (∀ place, (progress.changed step dimension).closing = some place → fits place.offset) ∧
      ∀ stop, (progress.changed step dimension).skipEnd = some stop → fits stop := by
  match step with
  | .object _ => exact ⟨closing, skipEnd⟩
  | .group _ _ (.search _) => exact ⟨closing, skipEnd⟩
  | .group _ _ (.loop _ _) =>
    cases passing : progress.closing with
    | true => simpa [changed, passing] using ⟨closing, skipEnd⟩
    | false => simpa [changed, passing] using ⟨closing, skipEnd⟩
  | .group _ _ (.terminate _) =>
    constructor
    · intro place ended
      cases before : dimension.closing with
      | none =>
        simp only [changed, Dimension.terminate, before, Option.none_or, Option.some.injEq] at ended
        rw [← ended]
        exact here
      | some earlier =>
        simp only [changed, Dimension.terminate, before, Option.some_or, Option.some.injEq] at ended
        rw [← ended]
        exact closing earlier before
    · intro stop ended
      simp only [changed, Dimension.terminate, Option.some.injEq] at ended
      rw [← ended]
      cases before : dimension.skipEnd with
      | none => simpa [Progress.place] using here
      | some earlier =>
        rcases max_choice earlier progress.place.offset with same | same
        · rw [Option.getD_some, same]
          exact skipEnd earlier before
        · rw [Option.getD_some, same]
          exact here

theorem EndsAt.modifyDimension (ends : EndsAt fits growth.outline) {id : Nat}
    {change : Dimension → Dimension}
    (changes : ∀ dimension : Dimension,
      (∀ place, dimension.closing = some place → fits place.offset) →
      (∀ stop, dimension.skipEnd = some stop → fits stop) →
      (∀ place, (change dimension).closing = some place → fits place.offset) ∧
        ∀ stop, (change dimension).skipEnd = some stop → fits stop) :
    EndsAt fits (growth.modifyDimension id change).outline := by
  intro other dimension found
  rw [dimension?_modifyDimension] at found
  split at found
  · rcases Option.map_eq_some_iff.mp found with ⟨old, foundOld, rfl⟩
    exact changes old (ends other old foundOld).1 (ends other old foundOld).2
  · exact ends other dimension found

theorem Taken.endsAt (taking : Taken growth progress step after)
    (ends : EndsAt fits growth.outline) (here : fits progress.marker.offset) :
    EndsAt fits after.1.outline := by
  cases lost : progress.lost with
  | true =>
    rw [taking.of_lost lost]
    exact ends
  | false =>
    cases known : growth.find? (progress.keyAt step) with
    | some id =>
      rw [taking.of_known lost known]
      exact ends.modifyDimension fun dimension => Progress.changed_endsAt here
    | none =>
      cases closing : progress.closing with
      | true =>
        rw [taking.of_closing lost known closing]
        exact ends
      | false =>
        rcases taking.of_unknown lost known closing with ⟨goes, arrayKey, rfl⟩
        intro id dimension found
        rcases Option.bind_eq_some_iff.mp found with ⟨scope, foundScope, kind⟩
        rcases old_or_new foundScope with old | ⟨-, rfl⟩
        · exact ends id dimension (by rw [old]; exact kind)
        · match step, goes, kind with
          | .group _ _ (.loop _ _), _, kind =>
            cases kind
            exact ⟨(fun _ impossible => nomatch impossible), fun _ impossible => nomatch impossible⟩

theorem endsAt_grow {marker : Marker} {grown : Growth} (run : grow growth marker = .ok grown)
    (ends : EndsAt fits growth.outline) (here : fits marker.offset) : EndsAt fits grown.outline := by
  rcases grow_eq_ok.mp run with ⟨read, walk, -, steps, rfl⟩
  have walked : walk.2.marker = marker ∧ EndsAt fits walk.1.outline := by
    apply foldlM_induction (motive := fun walk : Walk =>
      walk.2.marker = marker ∧ EndsAt fits walk.1.outline) _ ⟨rfl, ends⟩ steps
    intro before step after _ holds run
    have taking := taken_of_walkStep run
    exact ⟨taking.marker.trans holds.1, taking.endsAt holds.2 (by rw [holds.1]; exact here)⟩
  intro id dimension found
  rw [dimension?_record] at found
  exact walked.2 id dimension found

theorem endsAt_of_growth {markers : List Marker}
    (run : markers.foldlM grow Growth.start = .ok growth)
    (here : ∀ marker ∈ markers, fits marker.offset) : EndsAt fits growth.outline := by
  apply foldlM_induction (motive := fun growth => EndsAt fits growth.outline) _ _ run
  · intro before marker after member ends run
    exact endsAt_grow run ends (here marker member)
  · intro id dimension found
    rcases Option.bind_eq_some_iff.mp found with ⟨scope, foundScope, kind⟩
    rw [(eq_rootScope_of_start foundScope).2] at kind
    cases kind

end Stencil.Outline
