import Stencil.Proofs.Outline.Recorded

namespace Stencil.Outline

open Marker (Step)

/-!
# What comes first in an outline

Later markers leave what is there where it is, and what they add has later points.
The first marker of all finds nothing that it could end.  So it inserts a value, and
the outermost dimension that it mentions lies in no other.
-/

variable {growth : Growth} {progress : Progress} {step : Step} {after : Walk}

/-- An outline and what later markers make of it. -/
structure Later (before after : Outline) : Prop where
  keeps : Keeps before after
  lastPoint : before.lastPoint ≤ after.lastPoint
  opened : ∀ (id : Nat) scope, before.scopes.size ≤ id → after.scopes[id]? = some scope →
    before.lastPoint < scope.opened.point
  slots : ∀ (id : Nat) slot, before.slots[id]? = some slot → after.slots[id]? = some slot
  placed : ∀ (id : Nat) slot, before.slots.size ≤ id → after.slots[id]? = some slot →
    before.lastPoint < slot.place.point
  occurrences : before.occurrences.toList <+: after.occurrences.toList

theorem Later.refl (outline : Outline) : Later outline outline where
  keeps := .refl _
  lastPoint := Nat.le_refl _
  opened _ _ new found := absurd (lt_size_of_getElem? found) (Nat.not_lt_of_le new)
  slots _ _ found := found
  placed _ _ new found :=
    absurd (Array.getElem?_eq_some_iff.mp found).1 (Nat.not_lt_of_le new)
  occurrences := List.prefix_refl _

theorem Later.trans {first second third : Outline} (early : Later first second)
    (late : Later second third) : Later first third where
  keeps := early.keeps.trans late.keeps
  lastPoint := early.lastPoint.trans late.lastPoint
  opened id scope new found := by
    by_cases between : id < second.scopes.size
    · have foundBetween := Array.getElem?_eq_getElem between
      rcases late.keeps id _ foundBetween with ⟨later, foundLater, same⟩
      rw [found] at foundLater
      cases foundLater
      have opened : scope.opened = second.scopes[id].opened := congrArg Frame.opened same
      rw [opened]
      exact early.opened id _ new foundBetween
    · exact Nat.lt_of_le_of_lt early.lastPoint (late.opened id scope (Nat.le_of_not_lt between) found)
  slots id slot found := late.slots id slot (early.slots id slot found)
  placed id slot new found := by
    by_cases between : id < second.slots.size
    · have foundBetween := Array.getElem?_eq_getElem between
      have same := late.slots id _ foundBetween
      rw [found] at same
      cases same
      exact early.placed id _ new foundBetween
    · exact Nat.lt_of_le_of_lt early.lastPoint (late.placed id slot (Nat.le_of_not_lt between) found)
  occurrences := early.occurrences.trans late.occurrences

theorem slots_record (walk : Walk) (read : ReadMarker) (field : String) :
    (record walk read field).outline.slots =
      if read.path.terminates then walk.1.outline.slots
      else walk.1.outline.slots.push
        { scope := walk.2.scope, field := field, calls := read.calls
          place := walk.2.place, path := read.marker.path } := by
  unfold record
  cases ends : read.path.terminates <;> simp [addSlot]

theorem later_grow {marker : Marker} {grown : Growth} (keyed : Keyed growth)
    (plain : ∀ path, Marker.readPath marker.path.toList = .ok path → path.Plain)
    (run : grow growth marker = .ok grown) : Later growth.outline grown.outline := by
  have keeps := keeps_grow run
  rcases grow_eq_ok.mp run with ⟨read, walk, reading, steps, rfl⟩
  rcases readMarker_eq_ok reading with ⟨-, path⟩
  have making := (making_begin keyed marker).run (walkable_steps path (plain _ path)) steps
  have same := sameFrames_record walk read read.path.steps.2
  refine ⟨keeps, ?_, ?_, ?_, ?_, ?_⟩
  · rw [lastPoint_record, lastPoint, lastPoint, making.occurrences]
    exact Nat.le_succ _
  · intro id scope new found
    rcases same.symm.keeps id scope found with ⟨made, foundMade, frames⟩
    have opened : made.opened = scope.opened := congrArg Frame.opened frames
    rw [← opened, (making.made id made new foundMade).1, making.point]
    exact Nat.lt_succ_self _
  · intro id slot found
    rw [slots_record, making.slots]
    split
    · exact found
    · rw [Array.getElem?_push_lt (Array.getElem?_eq_some_iff.mp found).1]
      rw [← Array.getElem?_eq_getElem]
      exact found
  · intro id slot new found
    rcases slot_of_record found with old | ⟨place, -⟩
    · rw [making.slots] at old
      exact absurd (Array.getElem?_eq_some_iff.mp old).1 (Nat.not_lt_of_le new)
    · rw [place]
      exact Nat.lt_of_lt_of_eq (Nat.lt_succ_self _) making.point.symm
  · rw [occurrences_record, making.occurrences, Array.toList_push]
    exact List.prefix_append _ _

theorem later_growth {markers : List Marker} {before after : Growth} (keyed : Keyed before)
    (plain : PlainMarkers markers) (run : markers.foldlM grow before = .ok after) :
    Later before.outline after.outline := by
  refine (foldlM_induction (motive := fun growth => Keyed growth ∧
    Later before.outline growth.outline) ?_ ⟨keyed, .refl _⟩ run).2
  intro growth marker grown member holds run
  exact ⟨keyed_grow holds.1 (plain marker member) run,
    holds.2.trans (later_grow holds.1 (plain marker member) run)⟩

/-! ## The first marker -/

/-- A walk from the payload that made these dimensions, outermost first. -/
structure Opening (walk : Walk) : Prop where
  none : walk.2.opens = [] → ∀ id : Nat, walk.1.outline.scopeIs Scope.isArray id = false
  first : ∀ id more, walk.2.opens = id :: more → walk.1.outline.dimensionsAround id = [id]

theorem dimensionsAround_eq_nil {outline : Outline} {id : Nat}
    (none : ∀ id : Nat, outline.scopeIs Scope.isArray id = false) :
    outline.dimensionsAround id = [] :=
  List.filter_eq_nil_iff.mpr fun other _ => by simp [none other]

theorem lt_size_of_dimensionsAround {outline : Outline} {id : Nat}
    (own : outline.dimensionsAround id = [id]) : id < outline.scopes.size := by
  have itself : id ∈ outline.dimensionsAround id := by
    rw [own]
    exact .head _
  exact bound_of_mem_ancestry (mem_dimensionsAround_iff.mp itself).1

/-- Changed dimensions lie where they lay. -/
theorem Opening.of_sameFrames {changed : Growth} (opening : Opening (growth, progress))
    (same : SameFrames growth.outline changed.outline) (rooted : Rooted growth.outline)
    (rootedAfter : Rooted changed.outline) : Opening (changed, progress) where
  none empty id := by
    rw [same.scopeIs_isArray]
    exact opening.none empty id
  first id more opens := by
    have own := opening.first id more opens
    rw [same.keeps.dimensionsAround rooted rootedAfter (lt_size_of_dimensionsAround own)]
    exact own

/-- The first dimension that is made lies in objects only. -/
theorem Opening.added (opening : Opening (growth, progress)) (rooted : Rooted growth.outline)
    (goes : terminates step = false) (arrayKey : Option String)
    (rootedAfter : Rooted (growth.addScope (progress.keyAt step) (scopeMade growth progress step)
      arrayKey).outline) :
    Opening (growth.addScope (progress.keyAt step) (scopeMade growth progress step) arrayKey,
      { progress.enter (progress.keyAt step) growth.outline.scopes.size with
        opens := progress.opens ++
          if repeats step then [growth.outline.scopes.size] else [] }) := by
  have kind := isArray_scopeMade growth progress goes
  have keeps := keeps_addScope growth (progress.keyAt step) (scopeMade growth progress step) arrayKey
  constructor
  · intro empty id
    rcases List.append_eq_nil_iff.mp empty with ⟨before, single⟩
    by_contra array
    rw [Bool.not_eq_false] at array
    rcases scopeIs_eq_true.mp array with ⟨scope, found, repeated⟩
    rcases old_or_new found with old | ⟨-, rfl⟩
    · have impossible := opening.none before id
      rw [scopeIs_eq old, repeated] at impossible
      cases impossible
    · rw [kind] at repeated
      rw [repeated] at single
      cases single
  · intro id more opens
    cases before : progress.opens with
    | cons outer rest =>
      simp only [before, List.cons_append, List.cons.injEq] at opens
      have own := opening.first outer rest before
      rw [← opens.1, keeps.dimensionsAround rooted rootedAfter (lt_size_of_dimensionsAround own)]
      exact own
    | nil =>
      simp only [before, List.nil_append] at opens
      split at opens
      · next repeated =>
        cases opens
        have found := getElem?_addScope_new growth (progress.keyAt step)
          (scopeMade growth progress step) arrayKey
        have bound : progress.scope < growth.outline.scopes.size := rootedAfter.parent_lt found rfl
        rw [dimensionsAround_inside rootedAfter found rfl,
          keeps.dimensionsAround rooted rootedAfter bound,
          dimensionsAround_eq_nil (opening.none before), kind, repeated]
        rfl
      · cases opens

theorem Taken.opening (taking : Taken growth progress step after)
    (opening : Opening (growth, progress)) (rooted : Rooted growth.outline)
    (rootedAfter : Rooted after.1.outline) : Opening after := by
  cases taking with
  | astray | missing | found => exact ⟨opening.none, opening.first⟩
  | narrowed | ended =>
    have further := opening.of_sameFrames (sameFrames_modifyDimension growth _ _) rooted rootedAfter
    exact ⟨further.none, further.first⟩
  | made arrayKey onTrack unknown closing goes =>
    exact opening.added rooted goes arrayKey rootedAfter

theorem opening_run {steps : List Step} {marker : Marker}
    (run : steps.foldlM walkStep (Growth.start, beginWalk Growth.start marker) = .ok after) :
    Opening after := by
  have begun : Opening (Growth.start, beginWalk Growth.start marker) := by
    constructor
    · intro _ id
      by_contra array
      rw [Bool.not_eq_false] at array
      rcases scopeIs_eq_true.mp array with ⟨scope, found, kind⟩
      rw [(eq_rootScope_of_start found).2] at kind
      cases kind
    · intro id more opens
      cases opens
  refine (foldlM_induction (motive := fun walk => Walking walk ∧ Opening walk) ?_
    ⟨walking_begin sound_start marker, begun⟩ run).2
  intro before step after _ holds run
  have taking := taken_of_walkStep run
  have further := taking.sound holds.1.1 holds.1.2
  exact ⟨⟨further, taking.scope_lt holds.1.1 holds.1.2⟩,
    taking.opening holds.2 holds.1.1.coherent.rooted further.coherent.rooted⟩

/-- A walk from the payload finds no scope inside the one where it stands. -/
theorem Making.unknown {walk : Walk} {taken : List Step}
    (making : Making Growth.start walk taken)
    (readable : Marker.Readable (trail (taken ++ [step]))) (onTrack : walk.2.lost = false) :
    walk.1.find? (walk.2.keyAt step) = none := by
  cases known : walk.1.find? (walk.2.keyAt step) with
  | none => rfl
  | some id =>
    exfalso
    have rooted := making.atTrail.keyed.rooted
    rcases parent_of_find? making.atTrail readable onTrack known with ⟨scope, found, link⟩
    have elsewhere := (making.atTrail.keyed.keyOf _ id known).1
    have least := le_of_mem_ancestry rooted making.atTrail.bound
      (making.made id scope (Nat.one_le_iff_ne_zero.mpr elsewhere) found).2
    exact Nat.not_lt_of_le least (rooted.parent_lt found link)

/-- So there is nothing that it could end. -/
theorem not_terminates_of_run {steps : List Step} {marker : Marker} (walkable : Walkable steps)
    (run : steps.foldlM walkStep (Growth.start, beginWalk Growth.start marker) = .ok after) :
    ∀ step ∈ steps, terminates step = false := by
  have walks := foldlM_induction_from_nil
    (motive := fun taken walk => Walkable taken → Making Growth.start walk taken ∧
      walk.2.lost = false ∧ walk.2.closing = false ∧ ∀ step ∈ taken, terminates step = false)
    (fun taken step before after holds run walkable => by
      rcases holds walkable.left with ⟨making, onTrack, opening, goes⟩
      have taking := taken_of_walkStep run
      have unknown := making.unknown walkable.readable onTrack
      have onward := making.onward walkable.readable (walkable.written step (by simp))
        (walkable.plain step (by simp)) taking
      rcases taking.of_unknown onTrack unknown opening with ⟨alsoGoes, arrayKey, rfl⟩
      refine ⟨onward, onTrack, opening, fun other member => ?_⟩
      rcases List.mem_append.mp member with old | new
      · exact goes other old
      · rw [List.mem_singleton.mp new]
        exact alsoGoes)
    steps
    (fun _ => ⟨making_begin keyed_start marker, rfl, rfl, fun _ impossible => nomatch impossible⟩)
    run walkable
  exact walks.2.2.2

/-- The first marker of a document inserts a value. -/
theorem inserts_of_first_run {path : Marker.Path} {cs : List Char} {marker : Marker}
    (read : Marker.readPath cs = .ok path) (plain : path.Plain)
    (run : path.steps.1.foldlM walkStep (Growth.start, beginWalk Growth.start marker) = .ok after) :
    path.terminates = false := by
  by_contra ends
  rw [Bool.not_eq_false] at ends
  rcases Marker.exists_terminator (Marker.read_of_readPath read) ends with
    ⟨name, behind, iterator, member⟩
  have impossible := not_terminates_of_run (walkable_steps read plain) run _ member
  cases impossible

/-- How a document begins: its first marker inserts a value, in no dimension or behind
the beginning of one that lies in no other. -/
structure Begins (outline : Outline) (occurrence : Occurrence) : Prop where
  slot : occurrence.slot = some 0
  placed : ∃ slot, outline.slots[0]? = some slot ∧ slot.place.point = 1 ∧
    (occurrence.opens = [] → outline.dimensionsAround slot.scope = [])
  later : occurrence.opens = [] → ∀ (id : Nat) scope, outline.scopes[id]? = some scope →
    scope.isArray = true → 1 < scope.opened.point
  opens : ∀ id more, occurrence.opens = id :: more → outline.dimensionsAround id = [id] ∧
    ∃ scope, outline.scopes[id]? = some scope ∧ scope.opened.point = 1

theorem begins_grow {marker : Marker} {grown : Growth}
    (plain : ∀ path, Marker.readPath marker.path.toList = .ok path → path.Plain)
    (run : grow Growth.start marker = .ok grown) :
    ∃ occurrence, grown.outline.occurrences.toList = [occurrence] ∧
      Begins grown.outline occurrence := by
  have rootedGrown := (sound_grow sound_start run).coherent.rooted
  rcases grow_eq_ok.mp run with ⟨read, walk, reading, steps, rfl⟩
  rcases readMarker_eq_ok reading with ⟨-, path⟩
  have walkable := walkable_steps path (plain _ path)
  have making := (making_begin keyed_start marker).run walkable steps
  have opening := opening_run steps
  have rooted := making.atTrail.keyed.rooted
  have same := sameFrames_record walk read read.path.steps.2
  have inserts := inserts_of_first_run path (plain _ path) steps
  have around : ∀ {id : Nat}, id < walk.1.outline.scopes.size →
      (record walk read read.path.steps.2).outline.dimensionsAround id =
        walk.1.outline.dimensionsAround id :=
    fun bound => same.keeps.dimensionsAround rooted rootedGrown bound
  have empty : walk.1.outline.slots = #[] := making.slots
  have first : (record walk read read.path.steps.2).outline.slots[0]? =
      some ⟨walk.2.scope, read.path.steps.2, read.calls, walk.2.place, read.marker.path⟩ := by
    rw [slots_record, inserts, empty]
    rfl
  refine ⟨occurrenceOf walk read, ?_, ?_, ?_, ?_, ?_⟩
  · rw [occurrences_record, making.occurrences]
    rfl
  · simp [occurrenceOf, inserts, empty]
  · refine ⟨_, first, making.point, fun none => ?_⟩
    rw [around making.atTrail.bound]
    exact dimensionsAround_eq_nil (opening.none none)
  · intro none id scope found array
    have impossible := opening.none none id
    rw [← same.scopeIs_isArray, scopeIs_eq found, array] at impossible
    cases impossible
  · intro id more opens
    have own := opening.first id more opens
    have bound := lt_size_of_dimensionsAround own
    refine ⟨by rw [around bound]; exact own, ?_⟩
    have found := Array.getElem?_eq_getElem bound
    rcases same.keeps id _ found with ⟨scope, foundLater, frames⟩
    have elsewhere : id ≠ root := by
      rintro rfl
      rw [dimensionsAround_root rooted] at own
      cases own
    have opened : scope.opened = walk.1.outline.scopes[id].opened := congrArg Frame.opened frames
    refine ⟨scope, foundLater, ?_⟩
    rw [opened, (making.made id _ (Nat.one_le_iff_ne_zero.mpr elsewhere) found).1]
    exact making.point

/-- Later markers leave the beginning as it is. -/
theorem Begins.later_of {before after : Outline} {occurrence : Occurrence}
    (begins : Begins before occurrence) (further : Later before after) (coherent : Coherent before)
    (rooted : Rooted after) (last : 0 < before.lastPoint) : Begins after occurrence := by
  have around : ∀ {id : Nat}, id < before.scopes.size →
      after.dimensionsAround id = before.dimensionsAround id :=
    fun bound => further.keeps.dimensionsAround coherent.rooted rooted bound
  refine ⟨begins.slot, ?_, ?_, ?_⟩
  · rcases begins.placed with ⟨slot, found, point, none⟩
    refine ⟨slot, further.slots 0 slot found, point, fun empty => ?_⟩
    rw [around (coherent.slotScope 0 slot found)]
    exact none empty
  · intro empty id scope found array
    by_cases old : id < before.scopes.size
    · have foundOld := Array.getElem?_eq_getElem old
      rcases further.keeps id _ foundOld with ⟨later, foundLater, frames⟩
      rw [found] at foundLater
      cases foundLater
      have opened : scope.opened = before.scopes[id].opened := congrArg Frame.opened frames
      have kind : scope.isArray = before.scopes[id].isArray := congrArg Frame.repeated frames
      rw [opened]
      exact begins.later empty id _ foundOld (kind ▸ array)
    · exact Nat.lt_of_le_of_lt last (further.opened id scope (Nat.le_of_not_lt old) found)
  · intro id more opens
    rcases begins.opens id more opens with ⟨own, scope, found, point⟩
    rcases further.keeps id scope found with ⟨later, foundLater, frames⟩
    have opened : later.opened = scope.opened := congrArg Frame.opened frames
    exact ⟨by rw [around (lt_size_of_dimensionsAround own)]; exact own, later, foundLater,
      by rw [opened]; exact point⟩

/-- Every document with markers begins so. -/
theorem begins_of_growth {markers : List Marker} (plain : PlainMarkers markers)
    (run : markers.foldlM grow Growth.start = .ok growth) {occurrence : Occurrence}
    {more : List Occurrence} (occurrences : growth.outline.occurrences.toList = occurrence :: more) :
    Begins growth.outline occurrence := by
  cases markers with
  | nil =>
    rw [← foldlM_nil_eq_ok.mp run] at occurrences
    cases occurrences
  | cons marker markers =>
    rcases foldlM_cons_eq_ok.mp run with ⟨between, first, rest⟩
    rcases begins_grow (plain marker (.head _)) first with ⟨made, only, begins⟩
    have sound := sound_grow sound_start first
    have further := later_growth (keyed_grow keyed_start (plain marker (.head _)) first)
      (fun other member => plain other (.tail _ member)) rest
    have same : made = occurrence := by
      rcases further.occurrences with ⟨tail, split⟩
      rw [only, occurrences] at split
      exact List.head_eq_of_cons_eq split
    have last : 0 < between.outline.lastPoint := by
      rw [lastPoint, ← Array.length_toList, only]
      exact Nat.zero_lt_one
    rw [← same]
    exact begins.later_of further sound.coherent (sound_growth sound rest).coherent.rooted last

end Stencil.Outline
