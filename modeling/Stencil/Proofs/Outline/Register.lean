import Stencil.Proofs.Outline.Beginning
import Stencil.Proofs.Outline.Tracks

namespace Stencil

/-!
# What one marker adds to an outline

A marker adds one occurrence.  The dimensions that are new are those it opens, the
dimensions that get an end are those it closes, and unless it ends something there
is one more slot, at its place.  `Grown` lists all of it; what holds of an outline of
any number of markers is proved from this list.
-/

namespace Occurrence

/-- The place of an occurrence with some index. -/
def placeAt (occurrence : Occurrence) (index : Nat) : Place := ⟨occurrence.offset, index + 1⟩

/-- The marker that left an occurrence. -/
def marker (occurrence : Occurrence) : Marker := ⟨occurrence.offset, occurrence.path⟩

end Occurrence

namespace Outline

variable {growth grown : Growth} {marker : Marker} {occurrence : Occurrence}

/-- The place of the next marker. -/
def nextPlace (outline : Outline) (marker : Marker) : Place :=
  ⟨marker.offset, outline.lastPoint + 1⟩

/-- The scope of a slot. -/
def scopeOfSlot (outline : Outline) (slot : SlotId) : Option ScopeId :=
  outline.slots[slot]?.map Slot.scope

/-- The slots of an outline before and after a marker. -/
inductive Inserted (before after : Outline) (marker : Marker) (occurrence : Occurrence) : Prop
  /-- The marker ends a repetition and has no slot. -/
  | nothing (path : Marker.Path) (reading : Marker.readPath marker.path.toList = .ok path)
      (ends : path.terminates = true) (slot : occurrence.slot = none)
      (slots : after.slots = before.slots) (lists : ∀ id, after.slotsOf id = before.slotsOf id)
  /-- The marker inserts a value. -/
  | value (path : Marker.Path) (reading : Marker.readPath marker.path.toList = .ok path)
      (ends : path.terminates = false) (slot : occurrence.slot = some before.slots.size)
      (made : Slot) (slots : after.slots = before.slots.push made)
      (place : made.place = before.nextPlace marker) (name : made.path = marker.path)
      (bound : made.scope < after.scopes.size)
      (lists : ∀ id, after.slotsOf id =
        before.slotsOf id ++ if made.scope = id then [before.slots.size] else [])

/-- An outline before and after one marker, which left this occurrence. -/
structure Grown (before after : Outline) (marker : Marker) (occurrence : Occurrence) : Prop where
  offset : occurrence.offset = marker.offset
  path : occurrence.path = marker.path
  occurrences : after.occurrences = before.occurrences.push occurrence
  keeps : Keeps before after
  arrays : after.arrays = before.arrays ++ occurrence.opens
  made : ∀ (id : Nat) scope, before.scopes.size ≤ id → after.scopes[id]? = some scope →
    scope.opened = before.nextPlace marker
  closesOnce : occurrence.closes.Nodup
  closes : ∀ id ∈ occurrence.closes, before.closingOf id = none ∧ id < before.scopes.size
  closing : ∀ id, after.closingOf id =
    if id ∈ occurrence.closes then some (before.nextPlace marker) else before.closingOf id
  inserted : Inserted before after marker occurrence

theorem slotsOf_record (walk : Walk) (read : ReadMarker) (field : String) (id : ScopeId)
    (bound : walk.2.scope < walk.1.outline.scopes.size) :
    (record walk read field).outline.slotsOf id = walk.1.outline.slotsOf id ++
      if read.path.terminates = false ∧ walk.2.scope = id then [walk.1.outline.slots.size]
      else [] := by
  unfold record slotsOf
  cases ends : read.path.terminates with
  | true => simp
  | false =>
    simp only [addSlot, Bool.false_eq_true, if_false, true_and, Array.getElem?_modify]
    by_cases here : walk.2.scope = id
    · subst here
      rw [Array.getElem?_eq_getElem bound]
      simp
    · simp [here]

/-- Recording a marker inserts its value, if it does not end a repetition. -/
theorem inserted_of_record {walk : Walk} {read : ReadMarker} {field : String} {before : Outline}
    (reading : readMarker marker = .ok read)
    (bound : walk.2.scope < walk.1.outline.scopes.size)
    (slots : walk.1.outline.slots = before.slots)
    (lists : ∀ id, walk.1.outline.slotsOf id = before.slotsOf id)
    (place : walk.2.place = before.nextPlace marker) :
    Inserted before (record walk read field).outline marker (occurrenceOf walk read) := by
  rcases readMarker_eq_ok reading with ⟨sameMarker, path⟩
  have recorded := slots_record walk read field
  have listed := fun id => slotsOf_record walk read field id bound
  cases ends : read.path.terminates with
  | true =>
    apply Inserted.nothing read.path path ends
    · simp [occurrenceOf, ends]
    · rw [recorded, if_pos ends, slots]
    · intro id
      rw [listed id, lists id]
      simp [ends]
  | false =>
    let made : Slot :=
      { scope := walk.2.scope, field := field, calls := read.calls
        place := walk.2.place, path := read.marker.path }
    refine .value read.path path ends ?_ made ?_ place (congrArg Marker.path sameMarker) ?_ ?_
    · simp [occurrenceOf, ends, slots]
    · rw [recorded, if_neg (by simp [ends]), slots]
    · rw [(sameFrames_record walk read field).size]
      exact bound
    · intro id
      rw [listed id, lists id, slots]
      simp [ends, made]

/-- Every marker adds what is listed. -/
theorem grown_of_grow (sound : Sound growth) (run : grow growth marker = .ok grown) :
    ∃ occurrence, Grown growth.outline grown.outline marker occurrence := by
  have keeps := keeps_grow run
  rcases grow_eq_ok.mp run with ⟨read, walk, reading, steps, rfl⟩
  rcases readMarker_eq_ok reading with ⟨sameMarker, path⟩
  have tracks := (tracks_begin sound marker).run steps
  have same := sameFrames_record walk read read.path.steps.2
  have dimensions := dimension?_record walk read read.path.steps.2
  have place : walk.2.place = growth.outline.nextPlace marker := place_run steps
  refine ⟨occurrenceOf walk read, congrArg Marker.offset sameMarker,
    congrArg Marker.path sameMarker, ?_, keeps, ?_, ?_, tracks.closesOnce, tracks.closes, ?_, ?_⟩
  · rw [occurrences_record, tracks.occurrences]
  · rw [arrays_of_sameFrames same, tracks.arrays]
    rfl
  · intro id scope new found
    rcases same.symm.keeps id scope found with ⟨made, foundMade, frames⟩
    have opened : made.opened = scope.opened := congrArg Frame.opened frames
    rw [← opened, tracks.made id made new foundMade, place]
  · intro id
    rw [closingOf, told_of_sameDimension (dimensions id), ← place]
    exact tracks.closing id
  · exact inserted_of_record reading tracks.walking.2 tracks.slots tracks.slotLists place

/-! ## Occurrences and what they point at -/

/-- An outline and its register of markers agree. -/
structure Registered (taken : List Marker) (outline : Outline) : Prop where
  recorded : outline.occurrences.toList.map Occurrence.marker = taken
  inserts : ∀ occurrence ∈ outline.occurrences.toList, ∃ path,
    Marker.readPath occurrence.path.toList = .ok path ∧
      (occurrence.slot = none ↔ path.terminates = true)
  placed : ∀ (index : Nat) occurrence id, outline.occurrences[index]? = some occurrence →
    occurrence.slot = some id → ∃ slot, outline.slots[id]? = some slot ∧
      slot.place = occurrence.placeAt index ∧ slot.path = occurrence.path
  lists : ∀ id, outline.slotsOf id =
    (List.range outline.slots.size).filter fun slot => outline.scopeOfSlot slot = some id
  arrays : outline.occurrences.toList.flatMap Occurrence.opens = outline.arrays
  opened : ∀ (index : Nat) occurrence (id : Nat) scope,
    outline.occurrences[index]? = some occurrence → id ∈ occurrence.opens →
      outline.scopes[id]? = some scope → scope.opened = occurrence.placeAt index
  closesOnce : (outline.occurrences.toList.flatMap Occurrence.closes).Nodup
  closing : ∀ id place, outline.closingOf id = some place ↔
    ∃ (index : Nat) (occurrence : Occurrence), outline.occurrences[index]? = some occurrence ∧
      id ∈ occurrence.closes ∧ place = occurrence.placeAt index
  early : ∀ (id : Nat) scope, outline.scopes[id]? = some scope →
    scope.opened.point ≤ outline.lastPoint
  order : ∀ (id : Nat) scope place, outline.scopes[id]? = some scope →
    outline.closingOf id = some place → scope.opened.point < place.point

theorem Registered.size_occurrences {taken : List Marker} {outline : Outline}
    (registered : Registered taken outline) : outline.occurrences.size = taken.length := by
  simpa using congrArg List.length registered.recorded

/-- An occurrence opens dimensions only. -/
theorem Registered.isArray_of_opens {taken : List Marker} {outline : Outline}
    (registered : Registered taken outline) {index id : Nat}
    (found : outline.occurrences[index]? = some occurrence) (opens : id ∈ occurrence.opens) :
    outline.scopeIs Scope.isArray id = true := by
  rw [← mem_arrays, ← registered.arrays, List.mem_flatMap]
  exact ⟨occurrence, Array.mem_toList_iff.mpr (Array.mem_of_getElem? found), opens⟩

/-- Every dimension was opened by an occurrence. -/
theorem Registered.exists_opens {taken : List Marker} {outline : Outline}
    (registered : Registered taken outline) {id : Nat}
    (array : outline.scopeIs Scope.isArray id = true) :
    ∃ (index : Nat) (occurrence : Occurrence),
      outline.occurrences[index]? = some occurrence ∧ id ∈ occurrence.opens := by
  rw [← mem_arrays, ← registered.arrays, List.mem_flatMap] at array
  rcases array with ⟨occurrence, listed, opens⟩
  rcases List.getElem?_of_mem listed with ⟨index, found⟩
  exact ⟨index, occurrence, by simpa using found, opens⟩

/-- Every dimension begins where an occurrence opened it. -/
theorem Registered.exists_opened {taken : List Marker} {outline : Outline}
    (registered : Registered taken outline) {id : Nat} {scope : Scope}
    (found : outline.scopes[id]? = some scope) (array : scope.isArray = true) :
    ∃ (index : Nat) (occurrence : Occurrence), outline.occurrences[index]? = some occurrence ∧
      id ∈ occurrence.opens ∧ scope.opened = occurrence.placeAt index := by
  rcases registered.exists_opens ((scopeIs_eq found).trans array) with
    ⟨index, occurrence, foundOccurrence, opens⟩
  exact ⟨index, occurrence, foundOccurrence, opens,
    registered.opened index occurrence id scope foundOccurrence opens found⟩

/-- What an occurrence closes ends at its place. -/
theorem Registered.closingOf_of_closes {taken : List Marker} {outline : Outline}
    (registered : Registered taken outline) {index : Nat} {id : ScopeId}
    (found : outline.occurrences[index]? = some occurrence) (closes : id ∈ occurrence.closes) :
    outline.closingOf id = some (occurrence.placeAt index) :=
  (registered.closing id _).mpr ⟨index, occurrence, found, closes, rfl⟩

/-- Only one occurrence stands at a point. -/
theorem occurrence_eq_of_point {outline : Outline} {index other : Nat}
    {occurrence otherOccurrence : Occurrence}
    (found : outline.occurrences[index]? = some occurrence)
    (otherFound : outline.occurrences[other]? = some otherOccurrence)
    (same : (occurrence.placeAt index).point = (otherOccurrence.placeAt other).point) :
    occurrence = otherOccurrence := by
  cases Nat.succ.inj same
  rw [found] at otherFound
  exact Option.some.inj otherFound

/-- An occurrence opens the dimension that begins at its point. -/
theorem Registered.mem_opens_iff {taken : List Marker} {outline : Outline}
    (registered : Registered taken outline) {index : Nat}
    (found : outline.occurrences[index]? = some occurrence) {id : ScopeId} {scope : Scope}
    (foundScope : outline.scopes[id]? = some scope) (array : scope.isArray = true) :
    id ∈ occurrence.opens ↔ scope.opened.point = index + 1 := by
  constructor
  · intro opens
    rw [registered.opened index occurrence id scope found opens foundScope]
    rfl
  · intro point
    rcases registered.exists_opened foundScope array with ⟨other, _, otherFound, opens, opened⟩
    rw [opened] at point
    cases occurrence_eq_of_point otherFound found point
    exact opens

/-- An occurrence closes the dimension that ends at its point. -/
theorem Registered.mem_closes_iff {taken : List Marker} {outline : Outline}
    (registered : Registered taken outline) {index : Nat}
    (found : outline.occurrences[index]? = some occurrence) {id : ScopeId} {closing : Place}
    (ended : outline.closingOf id = some closing) :
    id ∈ occurrence.closes ↔ closing.point = index + 1 := by
  constructor
  · intro closes
    rw [registered.closingOf_of_closes found closes] at ended
    cases ended
    rfl
  · intro point
    rcases (registered.closing id closing).mp ended with ⟨other, _, otherFound, closes, rfl⟩
    cases occurrence_eq_of_point otherFound found point
    exact closes

/-- Every slot stands where an occurrence inserted it. -/
theorem Registered.exists_placed {taken : List Marker} {outline : Outline}
    (registered : Registered taken outline) (coherent : Coherent outline) {id : Nat} {slot : Slot}
    (found : outline.slots[id]? = some slot) :
    ∃ (index : Nat) (occurrence : Occurrence), outline.occurrences[index]? = some occurrence ∧
      occurrence.slot = some id ∧ slot.place = occurrence.placeAt index := by
  have listed : id ∈ outline.occurrences.toList.filterMap Occurrence.slot := by
    rw [coherent.listed]
    exact List.mem_range.mpr (Array.getElem?_eq_some_iff.mp found).1
  rcases List.mem_filterMap.mp listed with ⟨occurrence, member, itsSlot⟩
  rcases List.getElem?_of_mem member with ⟨index, foundOccurrence⟩
  rw [Array.getElem?_toList] at foundOccurrence
  rcases registered.placed index occurrence id foundOccurrence itsSlot with
    ⟨other, foundOther, place, -⟩
  rw [found] at foundOther
  cases foundOther
  exact ⟨index, occurrence, foundOccurrence, itsSlot, place⟩

/-- Only dimensions end. -/
theorem isArray_of_closing? {scope : Scope} {closing : Place}
    (ended : scope.closing? = some closing) : scope.isArray = true := by
  cases kind : scope.dimension? with
  | none => simp [Scope.closing?, kind] at ended
  | some dimension => simp [Scope.isArray, kind]

theorem registered_start : Registered [] Growth.start.outline where
  recorded := rfl
  inserts _ impossible := absurd impossible List.not_mem_nil
  placed index occurrence id found := by simp [Growth.start, start] at found
  lists id := by
    cases id with
    | zero => rfl
    | succ => rfl
  arrays := rfl
  opened index occurrence id scope found := by simp [Growth.start, start] at found
  closesOnce := List.nodup_nil
  closing id place := by
    have endless : Growth.start.outline.closingOf id = none := by
      cases id with
      | zero => rfl
      | succ => rfl
    rw [endless]
    simp [Growth.start, start]
  early id scope found := by
    rw [(eq_rootScope_of_start found).2]
    exact Nat.le_refl _
  order id scope place found closed := by
    rw [(eq_rootScope_of_start found).1] at closed
    cases closed

section

variable {before after : Outline}

/-- The occurrences behind a marker are those before it and its own. -/
theorem Grown.old_or_here (grown : Grown before after marker occurrence) {index : Nat}
    {other : Occurrence} (found : after.occurrences[index]? = some other) :
    before.occurrences[index]? = some other ∨
      other = occurrence ∧ other.placeAt index = before.nextPlace marker := by
  rw [grown.occurrences, Array.getElem?_push] at found
  split at found
  · next last =>
    cases found
    refine .inr ⟨rfl, ?_⟩
    rw [last, Occurrence.placeAt, grown.offset]
    rfl
  · exact .inl found

theorem Grown.lastPoint (grown : Grown before after marker occurrence) :
    after.lastPoint = before.lastPoint + 1 := by
  unfold Outline.lastPoint
  rw [grown.occurrences, Array.size_push]

theorem Grown.flatMap {α : Type} (grown : Grown before after marker occurrence)
    (part : Occurrence → List α) : after.occurrences.toList.flatMap part =
      before.occurrences.toList.flatMap part ++ part occurrence := by
  rw [grown.occurrences, Array.toList_push, List.flatMap_append, List.flatMap_singleton]

theorem Grown.here (grown : Grown before after marker occurrence) :
    after.occurrences[before.occurrences.size]? = some occurrence := by
  rw [grown.occurrences, Array.getElem?_push_size]

theorem Grown.earlier (grown : Grown before after marker occurrence) {index : Nat}
    {other : Occurrence} (found : before.occurrences[index]? = some other) :
    after.occurrences[index]? = some other := by
  rw [grown.occurrences, Array.getElem?_push, if_neg, found]
  exact Nat.ne_of_lt (Array.getElem?_eq_some_iff.mp found).1

theorem Grown.scope (grown : Grown before after marker occurrence) {id : Nat} {scope : Scope}
    (found : after.scopes[id]? = some scope) :
    (∃ old, before.scopes[id]? = some old ∧ scope.opened = old.opened) ∨
      before.scopes.size ≤ id ∧ scope.opened = before.nextPlace marker := by
  by_cases old : id < before.scopes.size
  · have foundOld := Array.getElem?_eq_getElem old
    rcases grown.keeps id _ foundOld with ⟨later, foundLater, same⟩
    rw [found] at foundLater
    cases foundLater
    exact .inl ⟨_, foundOld, congrArg Frame.opened same⟩
  · exact .inr ⟨Nat.le_of_not_lt old, grown.made id scope (Nat.le_of_not_lt old) found⟩

/-- Dimensions that a marker opens are new. -/
theorem Grown.new_of_opens (grown : Grown before after marker occurrence) {id : Nat}
    (opened : id ∈ occurrence.opens) : before.scopes.size ≤ id := by
  have apart := nodup_arrays after
  rw [grown.arrays, List.nodup_append] at apart
  have array : after.scopeIs Scope.isArray id = true := by
    rw [← mem_arrays, grown.arrays]
    exact List.mem_append_right _ opened
  by_contra old
  have bound := Nat.lt_of_not_le old
  rw [grown.keeps.scopeIs_isArray bound, ← mem_arrays] at array
  exact apart.2.2 id array id opened rfl

/-! ### What one marker keeps -/

variable {taken : List Marker}

/-- Every marker but a terminator inserts a value. -/
theorem Registered.inserts_onward (registered : Registered taken before)
    (grown : Grown before after marker occurrence) :
    ∀ other ∈ after.occurrences.toList, ∃ path, Marker.readPath other.path.toList = .ok path ∧
      (other.slot = none ↔ path.terminates = true) := by
  intro other member
  rw [grown.occurrences, Array.toList_push, List.mem_append, List.mem_singleton] at member
  rcases member with old | rfl
  · exact registered.inserts other old
  · rw [grown.path]
    cases grown.inserted with
    | nothing path reading ends slot => exact ⟨path, reading, by simp [slot, ends]⟩
    | value path reading ends slot => exact ⟨path, reading, by simp [slot, ends]⟩

/-- Values stand where they are inserted. -/
theorem Registered.placed_onward (registered : Registered taken before)
    (grown : Grown before after marker occurrence) :
    ∀ (index : Nat) other id, after.occurrences[index]? = some other → other.slot = some id →
      ∃ slot, after.slots[id]? = some slot ∧ slot.place = other.placeAt index ∧
        slot.path = other.path := by
  intro index other id found itsSlot
  cases grown.inserted with
  | nothing path reading ends slot slots =>
    rcases grown.old_or_here found with old | ⟨new, -⟩
    · rw [slots]
      exact registered.placed index other id old itsSlot
    · rw [new, slot] at itsSlot
      cases itsSlot
  | value path reading ends slot made slots place name =>
    rcases grown.old_or_here found with old | ⟨new, here⟩
    · rcases registered.placed index other id old itsSlot with ⟨earlier, foundEarlier, same⟩
      refine ⟨earlier, ?_, same⟩
      rw [slots, Array.getElem?_push, if_neg, foundEarlier]
      exact Nat.ne_of_lt (Array.getElem?_eq_some_iff.mp foundEarlier).1
    · rw [new, slot] at itsSlot
      cases itsSlot
      refine ⟨made, by rw [slots, Array.getElem?_push_size], place.trans here.symm, ?_⟩
      rw [name, new, grown.path]

/-- Scopes list the values that name them. -/
theorem Registered.lists_onward (registered : Registered taken before)
    (grown : Grown before after marker occurrence) (id : ScopeId) :
    after.slotsOf id =
      (List.range after.slots.size).filter fun slot => after.scopeOfSlot slot = some id := by
  cases grown.inserted with
  | nothing path reading ends slot slots lists =>
    unfold scopeOfSlot
    rw [lists, slots]
    exact registered.lists id
  | value path reading ends slot made slots place name bound lists =>
    have old : (List.range before.slots.size).filter (fun slot => after.scopeOfSlot slot = some id) =
        (List.range before.slots.size).filter fun slot => before.scopeOfSlot slot = some id := by
      apply List.filter_congr
      intro slot member
      have differs := Nat.ne_of_lt (List.mem_range.mp member)
      unfold scopeOfSlot
      rw [slots, Array.getElem?_push, if_neg differs]
    have new : after.scopeOfSlot before.slots.size = some made.scope := by
      unfold scopeOfSlot
      rw [slots, Array.getElem?_push_size]
      rfl
    rw [lists, registered.lists, slots, Array.size_push, List.range_succ, List.filter_append, old,
      List.filter_singleton, new]
    by_cases same : made.scope = id
    · simp [same]
    · simp [same]

/-- Dimensions begin where they are opened. -/
theorem Registered.opened_onward (registered : Registered taken before)
    (grown : Grown before after marker occurrence) :
    ∀ (index : Nat) other (id : Nat) scope, after.occurrences[index]? = some other →
      id ∈ other.opens → after.scopes[id]? = some scope → scope.opened = other.placeAt index := by
  intro index other id scope found opens foundScope
  rcases grown.old_or_here found with old | ⟨new, here⟩
  · rcases scopeIs_eq_true.mp (registered.isArray_of_opens old opens) with ⟨earlier, foundEarlier, -⟩
    rcases grown.scope foundScope with ⟨same, foundSame, opened⟩ | ⟨beyond, -⟩
    · rw [opened]
      exact registered.opened index other id same old opens foundSame
    · exact absurd (lt_size_of_getElem? foundEarlier) (Nat.not_lt_of_le beyond)
  · rw [here]
    rw [new] at opens
    exact grown.made id scope (grown.new_of_opens opens) foundScope

/-- What a marker ends was not ended by one before it. -/
theorem Registered.not_ended (registered : Registered taken before)
    (grown : Grown before after marker occurrence) {id : ScopeId} (closes : id ∈ occurrence.closes)
    {index : Nat} {other : Occurrence} (found : before.occurrences[index]? = some other) :
    id ∉ other.closes := by
  intro earlier
  have ended := registered.closingOf_of_closes found earlier
  rw [(grown.closes id closes).1] at ended
  cases ended

/-- No dimension ends twice. -/
theorem Registered.closesOnce_onward (registered : Registered taken before)
    (grown : Grown before after marker occurrence) :
    (after.occurrences.toList.flatMap Occurrence.closes).Nodup := by
  rw [grown.flatMap]
  apply List.Nodup.append registered.closesOnce grown.closesOnce
  intro id old new
  rcases List.mem_flatMap.mp old with ⟨other, member, closes⟩
  rcases List.getElem?_of_mem member with ⟨index, found⟩
  exact registered.not_ended grown new (by simpa using found) closes

/-- Dimensions end where an occurrence ends them. -/
theorem Registered.closing_onward (registered : Registered taken before)
    (grown : Grown before after marker occurrence) (id : ScopeId) (place : Place) :
    after.closingOf id = some place ↔ ∃ (index : Nat) (other : Occurrence),
      after.occurrences[index]? = some other ∧ id ∈ other.closes ∧
        place = other.placeAt index := by
  rw [grown.closing]
  split
  · next closes =>
    constructor
    · intro same
      cases same
      refine ⟨_, occurrence, grown.here, closes, ?_⟩
      rw [Occurrence.placeAt, grown.offset]
      rfl
    · rintro ⟨index, other, found, closesToo, rfl⟩
      rcases grown.old_or_here found with old | ⟨-, there⟩
      · exact absurd closesToo (registered.not_ended grown closes old)
      · rw [there]
  · next passes =>
    rw [registered.closing]
    constructor
    · rintro ⟨index, other, found, rest⟩
      exact ⟨index, other, grown.earlier found, rest⟩
    · rintro ⟨index, other, found, closes, same⟩
      rcases grown.old_or_here found with old | ⟨new, -⟩
      · exact ⟨index, other, old, closes, same⟩
      · rw [new] at closes
        exact absurd closes passes

theorem Registered.onward (registered : Registered taken before)
    (grown : Grown before after marker occurrence) : Registered (taken ++ [marker]) after where
  recorded := by
    rw [grown.occurrences, Array.toList_push, List.map_append, registered.recorded,
      List.map_singleton, Occurrence.marker, grown.offset, grown.path]
  inserts := registered.inserts_onward grown
  placed := registered.placed_onward grown
  lists := registered.lists_onward grown
  arrays := by rw [grown.flatMap, registered.arrays, grown.arrays]
  opened := registered.opened_onward grown
  closesOnce := registered.closesOnce_onward grown
  closing := registered.closing_onward grown
  early id scope found := by
    rw [grown.lastPoint]
    rcases grown.scope found with ⟨old, foundOld, opened⟩ | ⟨-, opened⟩
    · rw [opened]
      exact Nat.le_succ_of_le (registered.early id old foundOld)
    · rw [opened]
      exact Nat.le_refl _
  order id scope place found closed := by
    rw [grown.closing] at closed
    rcases grown.scope found with ⟨old, foundOld, opened⟩ | ⟨new, -⟩
    · rw [opened]
      split at closed
      · cases closed
        exact Nat.lt_succ_of_le (registered.early id old foundOld)
      · exact registered.order id old place foundOld closed
    · split at closed
      · next closes => exact absurd (grown.closes id closes).2 (Nat.not_lt_of_le new)
      · rw [closingOf, told_of_size_le new] at closed
        cases closed

end

/-- Whatever markers an outline was grown from, it agrees with their register. -/
theorem registered_of_growth {markers : List Marker}
    (run : markers.foldlM grow Growth.start = .ok growth) :
    Registered markers growth.outline :=
  (foldlM_induction_from_nil
    (motive := fun taken growth => Sound growth ∧ Registered taken growth.outline)
    (fun taken marker before after holds run => by
      rcases grown_of_grow holds.1 run with ⟨occurrence, grown⟩
      exact ⟨sound_grow holds.1 run, holds.2.onward grown⟩)
    markers ⟨sound_start, registered_start⟩ run).2

/-- An outline agrees with the register of the markers it was made of. -/
theorem registered_of_ofMarkers {markers : List Marker} {policy : Unterminated}
    {outline : Outline} (accepted : ofMarkers markers policy = .ok outline) :
    Registered (inDocumentOrder markers) outline := by
  rcases ofMarkers_eq_ok accepted with ⟨growth, grown, rfl⟩
  exact registered_of_growth grown

end Outline

end Stencil
