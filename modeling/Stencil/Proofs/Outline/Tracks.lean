import Mathlib.Data.List.Nodup
import Stencil.Proofs.Outline.Coherent

namespace Stencil.Outline

open Marker (Step)

/-!
# What a walk leaves in an outline

A walk adds scopes at its place and ends repetitions there.  It ends only what was
there before: the key under which a terminator looks for its dimension is longer
than the keys of all scopes that the walk made on its way.  Nothing here depends on
how conditions are written, so it holds of every document.
-/

variable {growth : Growth} {progress : Progress} {step : Step} {after : Walk}

/-! ## Ends of dimensions -/

/-- What a dimension says, if the scope is one. -/
def told {α : Type} (outline : Outline) (property : Dimension → Option α) (id : ScopeId) :
    Option α :=
  (outline.scopes[id]?.bind Scope.dimension?).bind property

/-- The first marker that ended a dimension. -/
def closingOf (outline : Outline) (id : ScopeId) : Option Place :=
  outline.told Dimension.closing id

theorem closingOf_eq {outline : Outline} {id : Nat} {scope : Scope}
    (found : outline.scopes[id]? = some scope) : outline.closingOf id = scope.closing? := by
  simp [closingOf, told, found, Scope.closing?]

theorem scopeIs_hasEnd (outline : Outline) (id : ScopeId) :
    outline.scopeIs Scope.hasEnd id = (outline.closingOf id).isSome := by
  unfold closingOf told scopeIs Scope.hasEnd Scope.closing?
  cases outline.scopes[id]? <;> rfl

/-- A dimension has an iterator, so the one that a terminator ends exists. -/
theorem exists_dimension_of_iterator {outline : Outline} {id : Nat} {iterator : String}
    (same : (outline.scopes[id]?.bind Scope.dimension?).map Dimension.iterator = some iterator) :
    ∃ dimension, outline.scopes[id]?.bind Scope.dimension? = some dimension := by
  rcases Option.map_eq_some_iff.mp same with ⟨dimension, found, -⟩
  exact ⟨dimension, found⟩

section

variable {α : Type} {property : Dimension → Option α}

theorem told_of_size_le {outline : Outline} {id : Nat} (beyond : outline.scopes.size ≤ id) :
    outline.told property id = none := by
  have unknown : outline.scopes[id]? = none := Array.getElem?_eq_none beyond
  simp [told, unknown]

theorem told_of_sameDimension {before after : Outline} {id : Nat}
    (same : after.scopes[id]?.bind Scope.dimension? = before.scopes[id]?.bind Scope.dimension?) :
    after.told property id = before.told property id :=
  congrArg (fun found => Option.bind found property) same

/-- Getting conditions changes nothing else that a dimension says. -/
theorem told_narrowed
    (narrows : ∀ dimension conditions,
      property { dimension with conditions := conditions } = property dimension)
    (growth : Growth) (id other : Nat) (conditions : List Condition) :
    (growth.modifyDimension id fun dimension => { dimension with
        conditions := addConditions dimension.conditions conditions }).outline.told property other =
      growth.outline.told property other := by
  unfold told
  rw [dimension?_modifyDimension]
  split
  · cases growth.outline.scopes[other]?.bind Scope.dimension? with
    | none => rfl
    | some dimension => exact narrows dimension _
  · rfl

/-- Ending a dimension changes what this one says. -/
theorem told_ended {id : Nat} {dimension : Dimension}
    (found : growth.outline.scopes[id]?.bind Scope.dimension? = some dimension) (place : Place)
    (other : Nat) :
    (growth.modifyDimension id (Dimension.terminate place)).outline.told property other =
      if other = id then property (dimension.terminate place)
      else growth.outline.told property other := by
  unfold told
  rw [dimension?_modifyDimension]
  by_cases same : other = id
  · rw [if_pos same, if_pos same, same, found]
    rfl
  · rw [if_neg same, if_neg same]

/-- A new scope says nothing. -/
theorem told_addScope (fresh : ∀ iterator conditions, property ⟨iterator, none, none, conditions⟩ = none)
    (goes : terminates step = false) (key : String) (arrayKey : Option String) (id : Nat) :
    (growth.addScope key (scopeMade growth progress step) arrayKey).outline.told property id =
      growth.outline.told property id := by
  by_cases old : id < growth.outline.scopes.size
  · unfold told
    rw [getElem?_addScope_old old]
  · rw [told_of_size_le (Nat.le_of_not_lt old)]
    have silent : (scopeMade growth progress step).dimension?.bind property = none := by
      match step, goes with
      | .object _, _ => rfl
      | .group _ _ (.search _), _ => rfl
      | .group _ _ (.loop iterator conditions), _ => exact fresh iterator conditions
    unfold told
    cases found : (growth.addScope key (scopeMade growth progress step) arrayKey).outline.scopes[id]? with
    | none => rfl
    | some other =>
      rcases old_or_new found with known | ⟨-, same⟩
      · exact absurd (lt_size_of_getElem? known) old
      · rw [same]
        exact silent

end

/-- A dimension stays ended where it was ended first. -/
theorem closingOf_ended {id : Nat} {dimension : Dimension}
    (found : growth.outline.scopes[id]?.bind Scope.dimension? = some dimension) (place : Place)
    (other : Nat) :
    (growth.modifyDimension id (Dimension.terminate place)).outline.closingOf other =
      if other = id then (growth.outline.closingOf id).or (some place)
      else growth.outline.closingOf other := by
  have before : growth.outline.closingOf id = dimension.closing := by
    simp [closingOf, told, found]
  rw [before]
  exact told_ended found place other

/-! ## Slots of scopes -/

/-- The slots bound to a scope; an unknown one has none. -/
def slotsOf (outline : Outline) (id : ScopeId) : List SlotId :=
  (outline.scopes[id]?.map Scope.slots).getD []

theorem slotsOf_modifyDimension (growth : Growth) (id other : Nat) (change : Dimension → Dimension) :
    (growth.modifyDimension id change).outline.slotsOf other = growth.outline.slotsOf other := by
  unfold slotsOf Growth.modifyDimension Growth.modifyScope
  simp only [Array.getElem?_modify]
  split
  · cases growth.outline.scopes[other]? with
    | none => rfl
    | some scope => cases kind : scope.kind <;> simp [kind]
  · rfl

theorem slotsOf_addScope {scope : Scope} (fresh : scope.slots = []) (key : String)
    (arrayKey : Option String) (id : Nat) :
    (growth.addScope key scope arrayKey).outline.slotsOf id = growth.outline.slotsOf id := by
  unfold slotsOf
  by_cases old : id < growth.outline.scopes.size
  · rw [getElem?_addScope_old old]
  · have unknown : growth.outline.scopes[id]? = none :=
      Array.getElem?_eq_none (Nat.le_of_not_lt old)
    rw [unknown]
    cases found : (growth.addScope key scope arrayKey).outline.scopes[id]? with
    | none => rfl
    | some other =>
      rcases old_or_new found with known | ⟨-, same⟩
      · exact absurd (lt_size_of_getElem? known) old
      · rw [same]
        exact fresh

/-! ## Dimensions -/

/-- The dimensions of an outline in the order in which they were made. -/
def arrays (outline : Outline) : List ScopeId :=
  (List.range outline.scopes.size).filter (outline.scopeIs Scope.isArray)

theorem mem_arrays {outline : Outline} {id : ScopeId} :
    id ∈ outline.arrays ↔ outline.scopeIs Scope.isArray id = true := by
  unfold arrays
  rw [List.mem_filter, List.mem_range]
  constructor
  · exact fun listed => listed.2
  · exact fun array => ⟨lt_size_of_scopeIs array, array⟩

theorem nodup_arrays (outline : Outline) : outline.arrays.Nodup :=
  List.Nodup.filter _ List.nodup_range

theorem arrays_of_sameFrames {before after : Outline} (same : SameFrames before after) :
    after.arrays = before.arrays := by
  unfold arrays
  rw [same.size]
  apply List.filter_congr
  exact fun id _ => same.scopeIs_isArray id

theorem arrays_addScope (growth : Growth) (key : String) (scope : Scope)
    (arrayKey : Option String) :
    (growth.addScope key scope arrayKey).outline.arrays =
      growth.outline.arrays ++ if scope.isArray then [growth.outline.scopes.size] else [] := by
  have new : (growth.addScope key scope arrayKey).outline.scopeIs Scope.isArray
      growth.outline.scopes.size = scope.isArray :=
    scopeIs_eq (getElem?_addScope_new growth key scope arrayKey)
  unfold arrays
  rw [size_addScope, List.range_succ, List.filter_append, List.filter_singleton, new]
  congr 1
  · apply List.filter_congr
    intro id member
    exact (keeps_addScope growth key scope arrayKey).scopeIs_isArray (List.mem_range.mp member)
  · cases scope.isArray <;> rfl

/-! ## Keys -/

/-- A step looks further than the walk has come. -/
theorem length_le_keyAt (progress : Progress) (step : Step) :
    progress.key.length ≤ (progress.keyAt step).length := by
  unfold Progress.keyAt
  rw [String.length_append, String.length_append]
  omega

theorem length_lt_keyAt_of_terminates (progress : Progress) {step : Step}
    (ends : terminates step = true) : progress.key.length < (progress.keyAt step).length := by
  match step, ends with
  | .group name follows (.terminate iterator), _ =>
    have brackets : (Step.group name follows (.terminate iterator)).groupKey = "[]" := rfl
    have two : "[]".length = 2 := rfl
    unfold Progress.keyAt
    rw [brackets, String.length_append, String.length_append]
    omega

/-! ## Walks -/

/-- What a walk has changed since it began: scopes made at its place, which are not
ended yet, and dimensions from before that it was the first to end. -/
structure Tracks (begun : Growth) (walk : Walk) : Prop where
  walking : Walking walk
  keeps : Keeps begun.outline walk.1.outline
  slots : walk.1.outline.slots = begun.outline.slots
  occurrences : walk.1.outline.occurrences = begun.outline.occurrences
  slotLists : ∀ id, walk.1.outline.slotsOf id = begun.outline.slotsOf id
  arrays : walk.1.outline.arrays = begun.outline.arrays ++ walk.2.opens
  made : ∀ (id : Nat) scope, begun.outline.scopes.size ≤ id →
    walk.1.outline.scopes[id]? = some scope → scope.opened = walk.2.place
  short : walk.2.lost = false → ∀ key (id : Nat), begun.outline.scopes.size ≤ id →
    walk.1.find? key = some id → key.length ≤ walk.2.key.length
  closesOnce : walk.2.closes.Nodup
  closes : ∀ id ∈ walk.2.closes, begun.outline.closingOf id = none ∧
    id < begun.outline.scopes.size
  closing : ∀ id, walk.1.outline.closingOf id =
    if id ∈ walk.2.closes then some walk.2.place else begun.outline.closingOf id

theorem tracks_begin (sound : Sound growth) (marker : Marker) :
    Tracks growth (growth, beginWalk growth marker) where
  walking := walking_begin sound marker
  keeps := .refl _
  slots := rfl
  occurrences := rfl
  slotLists _ := rfl
  arrays := (List.append_nil _).symm
  made _ _ new found := absurd (lt_size_of_getElem? found) (Nat.not_lt_of_le new)
  short _ _ id new known := absurd (sound.known _ id known) (Nat.not_lt_of_le new)
  closesOnce := List.nodup_nil
  closes _ impossible := nomatch impossible
  closing _ := rfl

/-- The dimension that a terminator ends was there when the walk began. -/
theorem Tracks.old_of_terminates {begun : Growth} (tracks : Tracks begun (growth, progress))
    (onTrack : progress.lost = false) (ends : terminates step = true) {id : Nat}
    (known : growth.find? (progress.keyAt step) = some id) :
    id < begun.outline.scopes.size := by
  by_contra new
  have short := tracks.short onTrack _ id (Nat.le_of_not_lt new) known
  exact Nat.not_lt_of_le short (length_lt_keyAt_of_terminates progress ends)

/-- Entering a scope that exists without ending it leaves no tracks. -/
theorem Tracks.entered {begun : Growth} (tracks : Tracks begun (growth, progress))
    {id : Nat} (bound : id < growth.outline.scopes.size) :
    Tracks begun (growth, progress.enter (progress.keyAt step) id) where
  walking := ⟨tracks.walking.1, bound⟩
  keeps := tracks.keeps
  slots := tracks.slots
  occurrences := tracks.occurrences
  slotLists := tracks.slotLists
  arrays := tracks.arrays
  made := tracks.made
  short onTrack key other new known :=
    (tracks.short onTrack key other new known).trans (length_le_keyAt progress step)
  closesOnce := tracks.closesOnce
  closes := tracks.closes
  closing := tracks.closing

/-- What a walk ended: dimensions that had no end when it began, each of them once. -/
structure Closes (begun : Outline) (place : Place) (closes : List ScopeId) (outline : Outline) :
    Prop where
  once : closes.Nodup
  fresh : ∀ id ∈ closes, begun.closingOf id = none ∧ id < begun.scopes.size
  closing : ∀ id, outline.closingOf id =
    if id ∈ closes then some place else begun.closingOf id

theorem Tracks.closed {begun : Growth} (tracks : Tracks begun (growth, progress)) :
    Closes begun.outline progress.place progress.closes growth.outline where
  once := tracks.closesOnce
  fresh := tracks.closes
  closing := tracks.closing

/-- A terminator ends its dimension, unless that was ended before. -/
theorem Closes.terminate {begun : Outline} {place : Place} {closes : List ScopeId}
    (before : Closes begun place closes growth.outline) {id : Nat} {dimension : Dimension}
    (old : id < begun.scopes.size)
    (found : growth.outline.scopes[id]?.bind Scope.dimension? = some dimension) :
    Closes begun place (if growth.outline.scopeIs Scope.hasEnd id then closes else closes ++ [id])
      (growth.modifyDimension id (Dimension.terminate place)).outline := by
  have now := closingOf_ended found place
  cases first : growth.outline.scopeIs Scope.hasEnd id with
  | true =>
    rw [scopeIs_hasEnd] at first
    rcases Option.isSome_iff_exists.mp first with ⟨earlier, known⟩
    rw [if_pos rfl]
    refine ⟨before.once, before.fresh, fun other => ?_⟩
    rw [now other]
    split
    · next here =>
      rw [here, known, Option.some_or, ← known]
      exact before.closing id
    · exact before.closing other
  | false =>
    rw [scopeIs_hasEnd, Option.isSome_eq_false_iff, Option.isNone_iff_eq_none] at first
    have unended := before.closing id
    rw [first] at unended
    have new : id ∉ closes := by
      intro member
      rw [if_pos member] at unended
      cases unended
    rw [if_neg new] at unended
    have once := List.Nodup.concat new before.once
    rw [List.concat_eq_append] at once
    rw [if_neg Bool.false_ne_true]
    refine ⟨once, ?_, ?_⟩
    · intro other member
      rcases List.mem_append.mp member with earlier | here
      · exact before.fresh other earlier
      · rw [List.mem_singleton.mp here]
        exact ⟨unended.symm, old⟩
    · intro other
      rw [now other]
      by_cases here : other = id
      · rw [if_pos here, first, if_pos (by simp [here])]
        rfl
      · rw [if_neg here, before.closing other]
        simp [here]

/-- Changing dimensions leaves no tracks but those of what is ended. -/
theorem Tracks.of_sameFrames {begun changed : Growth} (tracks : Tracks begun (growth, progress))
    (sound : Sound changed) (same : SameFrames growth.outline changed.outline)
    (slots : changed.outline.slots = growth.outline.slots)
    (occurrences : changed.outline.occurrences = growth.outline.occurrences)
    (slotLists : ∀ id, changed.outline.slotsOf id = growth.outline.slotsOf id)
    (keys : changed.keys = growth.keys) (closing : Bool) {closes : List ScopeId}
    (closed : Closes begun.outline progress.place closes changed.outline) :
    Tracks begun (changed, { progress with closing := closing, closes := closes }) where
  walking := ⟨sound, by rw [same.size]; exact tracks.walking.2⟩
  keeps := tracks.keeps.trans same.keeps
  slots := slots.trans tracks.slots
  occurrences := occurrences.trans tracks.occurrences
  slotLists id := (slotLists id).trans (tracks.slotLists id)
  arrays := (arrays_of_sameFrames same).trans tracks.arrays
  made id scope new found := by
    rcases same.symm.keeps id scope found with ⟨old, foundOld, frames⟩
    have opened : old.opened = scope.opened := congrArg Frame.opened frames
    rw [← opened]
    exact tracks.made id old new foundOld
  short onTrack key id new known := by
    apply tracks.short onTrack key id new
    unfold Growth.find? at known ⊢
    rw [← keys]
    exact known
  closesOnce := closed.once
  closes := closed.fresh
  closing := closed.closing

/-- A scope made by a step is one more at the place of the walk. -/
theorem Tracks.added {begun : Growth} (tracks : Tracks begun (growth, progress))
    (onTrack : progress.lost = false) (goes : terminates step = false) (arrayKey : Option String)
    (walking : Walking (growth.addScope (progress.keyAt step) (scopeMade growth progress step)
      arrayKey, progress.enter (progress.keyAt step) growth.outline.scopes.size)) :
    Tracks begun
      (growth.addScope (progress.keyAt step) (scopeMade growth progress step) arrayKey,
        { progress.enter (progress.keyAt step) growth.outline.scopes.size with
          opens := progress.opens ++
            if repeats step then [growth.outline.scopes.size] else [] }) where
  walking := walking
  keeps := tracks.keeps.trans (keeps_addScope growth _ _ _)
  slots := tracks.slots
  occurrences := tracks.occurrences
  slotLists id := (slotsOf_addScope rfl _ _ id).trans (tracks.slotLists id)
  arrays := by
    rw [arrays_addScope, isArray_scopeMade growth progress goes, tracks.arrays, List.append_assoc]
  made id scope new found := by
    rcases old_or_new found with old | ⟨-, same⟩
    · exact tracks.made id scope new old
    · rw [same]
      rfl
  short _ key id new known := by
    rw [find?_addScope] at known
    split at known
    · next same =>
      rw [same]
      exact Nat.le_refl _
    · exact (tracks.short onTrack key id new known).trans (length_le_keyAt progress step)
  closesOnce := tracks.closesOnce
  closes := tracks.closes
  closing id :=
    (told_addScope (fun _ _ => rfl) goes _ _ id).trans (tracks.closing id)

/-- A step goes on with the tracks. -/
theorem Tracks.onward {begun : Growth} (tracks : Tracks begun (growth, progress))
    (taking : Taken growth progress step after) : Tracks begun after := by
  have further := taking.sound tracks.walking.1 tracks.walking.2
  have inside := taking.scope_lt tracks.walking.1 tracks.walking.2
  cases taking with
  | astray => exact tracks
  | missing =>
    exact ⟨tracks.walking, tracks.keeps, tracks.slots, tracks.occurrences, tracks.slotLists,
      tracks.arrays, tracks.made, (fun impossible => by cases impossible), tracks.closesOnce, tracks.closes,
      tracks.closing⟩
  | found id onTrack known => exact tracks.entered inside
  | narrowed id name follows iterator conditions onTrack known =>
    have same := sameFrames_modifyDimension growth id fun dimension =>
      { dimension with conditions := addConditions dimension.conditions conditions }
    have closed : Closes begun.outline progress.place progress.closes
        (growth.modifyDimension id fun dimension =>
          { dimension with conditions := addConditions dimension.conditions conditions }).outline :=
      { tracks.closed with
        closing := fun other =>
          (told_narrowed (fun _ _ => rfl) growth id other conditions).trans (tracks.closing other) }
    have changed := tracks.of_sameFrames further same rfl rfl
      (slotsOf_modifyDimension growth id · _) rfl progress.closing closed
    exact changed.entered inside
  | made arrayKey onTrack unknown opening goes =>
    exact tracks.added onTrack goes arrayKey ⟨further, inside⟩
  | ended id name follows iterator onTrack known use same =>
    have ends : terminates step = true := by rw [use]; rfl
    rcases exists_dimension_of_iterator same with ⟨dimension, found⟩
    have closed := tracks.closed.terminate (tracks.old_of_terminates onTrack ends known) found
    have changed := tracks.of_sameFrames further (sameFrames_modifyDimension growth id _) rfl rfl
      (slotsOf_modifyDimension growth id · _) rfl true closed
    exact changed.entered inside

theorem Tracks.run {begun : Growth} {steps : List Step} {before after : Walk}
    (tracks : Tracks begun before) (run : steps.foldlM walkStep before = .ok after) :
    Tracks begun after :=
  foldlM_induction (motive := Tracks begun)
    (fun _ _ _ _ tracks taken => tracks.onward (taken_of_walkStep taken)) tracks run

end Stencil.Outline
