import Stencil.Proofs.Outline.Covering
import Stencil.Proofs.Outline.Endless
import Stencil.Proofs.Outline.Parts

namespace Stencil.Outline

/-!
# The outline without one of the markers

If a marker that ends nothing is left out, the outline that the other markers make lies in
the outline of all of them: scopes, slots and occurrences have other numbers there, and
conditions may be more.  This is so if no other marker mentions a dimension that the one
left out mentions first, and if none of these dimensions ends.
-/

variable {move : Omission} {base wholeBase part whole : Growth}

/-! ## The marker that is left out -/

/-- Numbers before the further marker stay as they are. -/
structure Stays (move : Omission) (base : Outline) : Prop where
  scope : ∀ id : Nat, id < base.scopes.size → move.scope id = id
  slot : move.slot = base.slots.size
  point : move.point = base.occurrences.size

section

variable {outline : Outline} {markers : List Marker} (stays : Stays move outline)
  (registered : Registered markers outline)

include stays

theorem Stays.place {place : Place} (early : place.point ≤ outline.occurrences.size) :
    move.place place = place := by
  have same : move.pointNumber place.point = place.point := if_pos (stays.point ▸ early)
  unfold Omission.place
  rw [same]

theorem Stays.placeAt {index : Nat} {occurrence : Occurrence}
    (found : outline.occurrences[index]? = some occurrence) :
    move.place (occurrence.placeAt index) = occurrence.placeAt index :=
  stays.place (Array.getElem?_eq_some_iff.mp found).1

include registered

theorem Stays.ends (id : ScopeId) : move.ends (outline.endsOf id) = outline.endsOf id := by
  refine Prod.ext ?_ rfl
  show (outline.closingOf id).map move.place = outline.closingOf id
  cases closed : outline.closingOf id with
  | none => rfl
  | some place =>
    rcases (registered.closing id place).mp closed with ⟨index, occurrence, found, -, rfl⟩
    exact congrArg some (stays.placeAt found)

theorem Stays.slots (coherent : Coherent outline) :
    outline.slots.toList.map move.slotAt = outline.slots.toList := by
  have same : ∀ slot ∈ outline.slots.toList, move.slotAt slot = slot := by
    intro slot listed
    rcases List.getElem?_of_mem listed with ⟨id, found⟩
    rw [Array.getElem?_toList] at found
    rcases registered.exists_placed coherent found with ⟨index, occurrence, marked, -, place⟩
    unfold Omission.slotAt
    rw [stays.scope _ (coherent.slotScope id slot found), place, stays.placeAt marked, ← place]
  rw [List.map_congr_left same, List.map_id']

theorem Stays.occurrences (coherent : Coherent outline) (opening : OpensScopes outline) :
    outline.occurrences.toList.map move.occurrence = outline.occurrences.toList := by
  have same : ∀ occurrence ∈ outline.occurrences.toList,
      move.occurrence occurrence = occurrence := by
    intro occurrence listed
    have opens : occurrence.opens.map move.scope = occurrence.opens := by
      rw [List.map_congr_left fun id member => stays.scope id (opening occurrence listed id member),
        List.map_id']
    have closes : occurrence.closes.map move.scope = occurrence.closes := by
      rw [List.map_congr_left fun id member => stays.scope id ?_, List.map_id']
      rcases List.getElem?_of_mem listed with ⟨index, found⟩
      rw [Array.getElem?_toList] at found
      have ended := registered.closingOf_of_closes found member
      by_contra beyond
      rw [closingOf, told_of_size_le (Nat.le_of_not_lt beyond)] at ended
      cases ended
    have slot : occurrence.slot.map move.slotNumber = occurrence.slot := by
      cases inserted : occurrence.slot with
      | none => rfl
      | some id =>
        have early : id ∈ List.range outline.slots.size :=
          coherent.listed ▸ List.mem_filterMap.mpr ⟨occurrence, listed, inserted⟩
        exact congrArg some (if_pos (stays.slot ▸ List.mem_range.mp early))
    unfold Omission.occurrence
    rw [opens, closes, slot]
  rw [List.map_congr_left same, List.map_id']

end

/-- A marker that ends nothing leaves the ends of dimensions as they are. -/
theorem endsOf_grow {growth grown : Growth} {marker : Marker}
    (run : Outline.grow growth marker = .ok grown) (goes : marker.terminates = false)
    (id : ScopeId) : grown.outline.endsOf id = growth.outline.endsOf id := by
  rcases grow_eq_ok.mp run with ⟨read, walk, reading, steps, rfl⟩
  have path := (readMarker_eq_ok reading).2
  rw [endsOf_record]
  apply (endsOf_run steps id).2
  rintro ⟨front, step, back, -, split, -, ends, -⟩
  have ended := Marker.terminates_of_mem_steps ends (split ▸ List.mem_append_right _ (.head _))
  rw [← terminates_of_readPath path, goes] at ended
  cases ended

/-- The growths begin to differ with the further marker. -/
theorem covers_further {markers : List Marker} {marker : Marker}
    (grown : markers.foldlM Outline.grow Growth.start = .ok base)
    (grownOwn : Outline.grow base marker = .ok wholeBase) (keyed : Keyed base)
    (keyedWhole : Keyed wholeBase)
    (goes : marker.terminates = false)
    (stays : Stays move base.outline) : Covers move base wholeBase base wholeBase := by
  have registered := registered_of_growth grown
  have keeps := keeps_grow grownOwn
  refine
    { keyed := keyed
      keyedWhole := keyedWhole
      payload := stays.scope root (size_pos keyed.rooted)
      images := ?_
      onto := ?_
      rising := ?_
      ends := ?_
      slots := ⟨[], by simp, by simp⟩
      occurrences := ⟨[], by simp, by simp⟩ }
  · intro id scope found
    rcases keeps id scope found with ⟨image, foundImage, frames⟩
    rw [stays.scope id (lt_size_of_getElem? found)]
    refine ⟨image, foundImage, ⟨⟨?_, congrArg Frame.access frames, congrArg Frame.repeated frames⟩,
      fun _ => ?_⟩⟩
    · rw [show image.parent = scope.parent from congrArg Frame.parent frames]
      cases link : scope.parent with
      | none => rfl
      | some parent =>
        have bound := (keyed.rooted.parent_lt found link).trans (lt_size_of_getElem? found)
        exact congrArg some (stays.scope parent bound).symm
    · rw [stays.place (registered.early id scope found)]
      exact congrArg Frame.opened frames
  · intro image bound
    by_cases old : image < base.outline.scopes.size
    · exact .inl ⟨image, old, stays.scope image old⟩
    · exact .inr ⟨Nat.le_of_not_lt old, bound⟩
  · intro left right array otherArray less
    rw [stays.scope left (lt_size_of_scopeIs array),
      stays.scope right (lt_size_of_scopeIs otherArray)]
    exact less
  · intro id bound
    rw [stays.scope id bound, endsOf_grow grownOwn goes, stays.ends registered]

/-- A marker that ends nothing inserts a value. -/
theorem Grown.inserts {before after : Outline} {marker : Marker} {own : Occurrence}
    (grown : Grown before after marker own) (goes : marker.terminates = false) :
    own.slot = some before.slots.size ∧ ∃ made, after.slots = before.slots.push made := by
  cases grown.inserted with
  | nothing path reading ends =>
    rw [← terminates_of_readPath reading, goes] at ends
    cases ends
  | value path reading ends slot made slots => exact ⟨slot, made, slots⟩

theorem counted_of_grown {marker : Marker} {own : Occurrence}
    (grown : Grown base.outline wholeBase.outline marker own)
    (goes : marker.terminates = false)
    (stays : Stays move base.outline) : Counted move base.outline wholeBase.outline where
  slot := stays.slot
  slots := by
    rcases grown.inserts goes with ⟨-, made, slots⟩
    rw [slots, Array.size_push]
  point := stays.point
  points := by rw [grown.occurrences, Array.size_push]

/-! ## All other markers -/

/-- A scope that only the further marker mentions. -/
def Spare (move : Omission) (part : Outline) (image : ScopeId) : Prop :=
  ∀ id : Nat, id < part.scopes.size → move.scope id ≠ image

instance (move : Omission) (part : Outline) (image : ScopeId) : Decidable (Spare move part image) :=
  inferInstanceAs (Decidable (∀ id : Nat, id < part.scopes.size → move.scope id ≠ image))

/-- An outline without a marker lies in the outline with it: scopes have other numbers, and
there are one slot and one occurrence more.  Conditions are left open. -/
structure Omits (move : Omission) (own : Occurrence) (part whole : Outline) : Prop where
  injective : Function.Injective move.scope
  payload : move.scope root = root
  images : ∀ (id : Nat) scope, part.scopes[id]? = some scope →
    ∃ image, whole.scopes[move.scope id]? = some image ∧ move.Image scope image
  rising : ∀ left right : Nat, part.scopeIs Scope.isArray left = true →
    part.scopeIs Scope.isArray right = true → left < right → move.scope left < move.scope right
  ends : ∀ id : Nat, id < part.scopes.size →
    whole.endsOf (move.scope id) = move.ends (part.endsOf id)
  endless : ∀ image, Spare move part image → whole.scopeIs Scope.hasEnd image = false
  slots : ∃ front slot back, front.length = move.slot ∧ part.slots.toList = front ++ back ∧
    whole.slots.toList = front.map move.slotAt ++ slot :: back.map move.slotAt
  occurrences : ∃ front back, front.length = move.point ∧
    part.occurrences.toList = front ++ back ∧
      whole.occurrences.toList = front.map move.occurrence ++ own :: back.map move.occurrence
  ownSlot : own.slot = some move.slot

theorem Omits.carries {own : Occurrence} {part whole : Outline} (omits : Omits move own part whole) :
    Carries move.scope part whole where
  payload := omits.payload
  scopes id scope found := by
    rcases omits.images id scope found with ⟨image, foundImage, same⟩
    exact ⟨image, foundImage, same.toCarriedTo⟩
  injective := omits.injective

/-- The slots with their numbers. -/
theorem Omits.zipIdx_slots {own : Occurrence} {part whole : Outline}
    (omits : Omits move own part whole) :
    ∃ front slot back, part.slots.toList.zipIdx = front ++ back ∧
      whole.slots.toList.zipIdx =
        front.map move.numbered ++ (slot, move.slot) :: back.map move.numbered := by
  rcases omits.slots with ⟨front, slot, back, length, slots, slotsWhole⟩
  have early : (front.map move.slotAt).zipIdx = front.zipIdx.map move.numbered := by
    rw [List.zipIdx_map]
    refine List.map_congr_left fun item listed => ?_
    have bound : item.2 < move.slot := length ▸ by simpa using List.snd_lt_of_mem_zipIdx listed
    exact congrArg (Prod.mk _) (if_pos bound).symm
  have late : (back.map move.slotAt).zipIdx (front.length + 1) =
      (back.zipIdx front.length).map move.numbered := by
    rw [List.zipIdx_map, Nat.add_comm, ← List.map_snd_add_zipIdx_eq_zipIdx, List.map_map]
    refine List.map_congr_left fun item listed => ?_
    have beyond : ¬ item.2 < move.slot :=
      Nat.not_lt_of_le (length ▸ List.le_snd_of_mem_zipIdx listed)
    exact congrArg (Prod.mk _) (if_neg beyond).symm
  refine ⟨front.zipIdx, slot, back.zipIdx front.length, ?_, ?_⟩
  · rw [slots, List.zipIdx_append, Nat.zero_add]
  · rw [slotsWhole, List.zipIdx_append, List.zipIdx_cons, List.length_map, Nat.zero_add, early, late,
      length]

/-- Slots other than that of the marker are chosen alike. -/
theorem Omits.filter_slots {own : Occurrence} {part whole : Outline}
    (omits : Omits move own part whole) {fits ownFits : Slot × SlotId → Bool}
    (same : ∀ item ∈ part.slots.toList.zipIdx, fits (move.numbered item) = ownFits item)
    (other : ∀ slot, fits (slot, move.slot) = false) :
    whole.slots.toList.zipIdx.filter fits =
      (part.slots.toList.zipIdx.filter ownFits).map move.numbered := by
  rcases omits.zipIdx_slots with ⟨front, slot, back, slots, slotsWhole⟩
  rw [slots] at same
  rw [slotsWhole, slots, List.filter_append, List.filter_cons_of_neg (by simp [other]),
    List.filter_map, List.filter_map, ← List.map_append, ← List.filter_append]
  exact congrArg (List.map _) (List.filter_congr same)

/-- A scope has the address of the one it is found under, unless that is the payload. -/
theorem address_placeOf {alone whole : Outline} {id : Nat} (bound : id < alone.scopes.size)
    (elsewhere : placeOf alone whole id ≠ root) :
    whole.address (placeOf alone whole id) = alone.address id := by
  unfold placeOf at elsewhere ⊢
  rw [if_pos bound] at elsewhere ⊢
  cases found : (List.range whole.scopes.size).find? fun image =>
      whole.address image = alone.address id with
  | none =>
    rw [found] at elsewhere
    exact absurd rfl elsewhere
  | some image => simpa using List.find?_some found

/-- So it has the address of what it is in the whole. -/
theorem Omits.address {own : Occurrence} {part whole : Outline} (omits : Omits move own part whole)
    (rooted : Rooted part) (wholeRooted : Rooted whole) (placed : move.scope = placeOf part whole)
    {id : Nat} (bound : id < part.scopes.size) :
    part.address id = whole.address (move.scope id) := by
  by_cases payload : move.scope id = root
  · have same : id = root := omits.injective (payload.trans omits.payload.symm)
    rw [payload, same, address_root rooted, address_root wholeRooted]
  · rw [placed] at payload ⊢
    exact (address_placeOf bound payload).symm

/-- The dimensions that a marker makes are those it opens. -/
theorem Grown.mem_opens {before after : Outline} {marker : Marker} {own : Occurrence}
    (grown : Grown before after marker own) {id : Nat} (new : before.scopes.size ≤ id)
    (array : after.scopeIs Scope.isArray id = true) : id ∈ own.opens := by
  rw [← mem_arrays, grown.arrays, List.mem_append] at array
  refine array.resolve_left fun old => ?_
  rw [mem_arrays] at old
  exact absurd (lt_size_of_scopeIs old) (Nat.not_lt_of_le new)

/-- Scopes with one address are one, and the numbers of the further marker are the next. -/
def omissionOf (base part whole : Outline) : Omission :=
  ⟨placeOf part whole, base.slots.size, base.occurrences.size⟩

theorem stays_omissionOf (keyed : Keyed base) (keyedPart : Keyed part) (keyedWhole : Keyed whole)
    (keepsPart : Keeps base.outline part.outline) (keeps : Keeps base.outline whole.outline) :
    Stays (omissionOf base.outline part.outline whole.outline) base.outline where
  scope id bound := by
    apply placeOf_eq keyedWhole (bound.trans_le keepsPart.size_le) (bound.trans_le keeps.size_le)
    rw [keeps.address keyed.rooted keyedWhole.rooted bound,
      keepsPart.address keyed.rooted keyedPart.rooted bound]
  slot := rfl
  point := rfl

/-- The scopes of the further marker stand aside if no other marker mentions its dimensions
and they do not end. -/
theorem aside_omissionOf {marker : Marker} {own : Occurrence} (keyed : Keyed base)
    (keyedWhole : Keyed whole) (adds : Grown base.outline wholeBase.outline marker own)
    (keeps : Keeps wholeBase.outline whole.outline)
    (apart : ∀ image ∈ own.opens, ∀ id : Nat, id < part.outline.scopes.size →
      part.outline.address id ≠ whole.outline.address image)
    (endless : ∀ image ∈ own.opens, whole.outline.scopeIs Scope.hasEnd image = false) :
    Aside (omissionOf base.outline part.outline whole.outline) base.outline.scopes.size
      wholeBase.outline.scopes.size part.outline whole.outline := by
  have opened : ∀ image : Nat, base.outline.scopes.size ≤ image →
      image < wholeBase.outline.scopes.size → whole.outline.scopeIs Scope.isArray image = true →
        image ∈ own.opens := by
    intro image new bound array
    rw [keeps.scopeIs_isArray bound] at array
    exact adds.mem_opens new array
  refine ⟨fun id image bound others same => placeOf_eq keyedWhole bound others same, ?_, ?_⟩
  · intro id bound new made
    by_contra array
    have elsewhere : placeOf part.outline whole.outline id ≠ root :=
      Nat.ne_of_gt ((size_pos keyed.rooted).trans_le new)
    exact apart _ (opened _ new made (Bool.of_not_eq_false array)) id bound
      (address_placeOf bound elsewhere).symm
  · intro image new made
    by_contra ended
    have ended := Bool.of_not_eq_false ended
    rw [endless image (opened image new made (isArray_of_hasEnd ended))] at ended
    cases ended

/-- What covers an outline by one marker more leaves the marker out. -/
theorem omits_of_covers {markers : List Marker} {marker : Marker} {own : Occurrence}
    (covers : Covers move base wholeBase part whole) (stays : Stays move base.outline)
    (grown : markers.foldlM Outline.grow Growth.start = .ok base)
    (adds : Grown base.outline wholeBase.outline marker own) (goes : marker.terminates = false)
    (aside : Aside move base.outline.scopes.size wholeBase.outline.scopes.size part.outline
      whole.outline)
    (injective : Function.Injective move.scope) : Omits move own part.outline whole.outline := by
  have registered := registered_of_growth grown
  have coherent := (sound_growth sound_start grown).coherent
  rcases adds.inserts goes with ⟨ownSlot, made, pushed⟩
  refine
    { injective := injective
      payload := covers.payload
      images := covers.images
      rising := covers.rising
      ends := covers.ends
      endless := ?_
      slots := ?_
      occurrences := ?_
      ownSlot := ownSlot.trans (congrArg some stays.slot.symm) }
  · intro image beside
    by_cases bound : image < whole.outline.scopes.size
    · rcases covers.further bound beside with ⟨new, last⟩
      exact aside.endless image new last
    · rw [scopeIs_hasEnd, closingOf, told_of_size_le (Nat.le_of_not_lt bound)]
      rfl
  · rcases covers.slots with ⟨more, slots, slotsWhole⟩
    refine ⟨_, made, more, Array.length_toList.trans stays.slot.symm, slots, ?_⟩
    rw [slotsWhole, pushed, Array.toList_push, stays.slots registered coherent, List.append_assoc]
    rfl
  · rcases covers.occurrences with ⟨more, occurrences, occurrencesWhole⟩
    refine ⟨_, more, Array.length_toList.trans stays.point.symm, occurrences, ?_⟩
    rw [occurrencesWhole, adds.occurrences, Array.toList_push,
      stays.occurrences registered coherent (opensScopes_of_growth grown), List.append_assoc]
    rfl

/-- Without a marker that ends nothing, the outline lies in the outline with it, if no
other marker mentions its dimensions and they do not end. -/
theorem omits_of_growth {front back : List Marker} {marker : Marker} {own : Occurrence}
    (plain : PlainMarkers (front ++ marker :: back))
    (grown : front.foldlM Outline.grow Growth.start = .ok base)
    (grownOwn : Outline.grow base marker = .ok wholeBase)
    (adds : Grown base.outline wholeBase.outline marker own)
    (grownPart : back.foldlM Outline.grow base = .ok part)
    (grownWhole : back.foldlM Outline.grow wholeBase = .ok whole)
    (goes : marker.terminates = false)
    (apart : ∀ image ∈ own.opens, ∀ id : Nat, id < part.outline.scopes.size →
      part.outline.address id ≠ whole.outline.address image)
    (endless : ∀ image ∈ own.opens, whole.outline.scopeIs Scope.hasEnd image = false) :
    Omits (omissionOf base.outline part.outline whole.outline) own part.outline
      whole.outline := by
  have plainFront : PlainMarkers front := fun other member => plain other (by simp [member])
  have plainBack : PlainMarkers back := fun other member => plain other (by simp [member])
  have keyed := keyed_growth keyed_start plainFront grown
  have keyedOwn := keyed_grow keyed (plain marker (by simp)) grownOwn
  have keyedPart := keyed_growth keyed plainBack grownPart
  have keyedWhole := keyed_growth keyedOwn plainBack grownWhole
  have keeps := keeps_growth grownWhole
  have stays := stays_omissionOf keyed keyedPart keyedWhole (keeps_growth grownPart)
    ((keeps_grow grownOwn).trans keeps)
  have aside := aside_omissionOf keyed keyedWhole adds keeps apart endless
  have covers := (covers_further grown grownOwn keyed keyedOwn goes stays).growth
    (counted_of_grown adds goes stays) plainBack grownPart grownWhole aside
  exact omits_of_covers covers stays grown adds goes aside
    (covers.carried.placeOf_injective keyedPart keyedWhole)

/-- So it is with the outlines of documents. -/
theorem omits_of_ofMarkers {fewer all front back : List Marker} {marker : Marker}
    {policy : Unterminated} {part whole : Outline} {own : Occurrence}
    (outlined : ofMarkers fewer policy = .ok part) (outlinedAll : ofMarkers all policy = .ok whole)
    (plain : PlainMarkers all) (ordered : inDocumentOrder fewer = front ++ back)
    (orderedAll : inDocumentOrder all = front ++ marker :: back)
    (found : whole.occurrences[front.length]? = some own) (goes : marker.terminates = false)
    (apart : ∀ image ∈ own.opens, ∀ id : Nat, id < part.scopes.size →
      part.address id ≠ whole.address image)
    (endless : ∀ image ∈ own.opens, whole.scopeIs Scope.hasEnd image = false) :
    ∃ move : Omission, move.scope = placeOf part whole ∧ move.point = front.length ∧
      Omits move own part whole := by
  rcases ofMarkers_eq_ok outlined with ⟨part, grownPart, rfl⟩
  rcases ofMarkers_eq_ok outlinedAll with ⟨whole, grownWhole, rfl⟩
  rw [ordered] at grownPart
  rw [orderedAll] at grownWhole
  have plain : PlainMarkers (front ++ marker :: back) := orderedAll ▸ plain.ordered
  have plainFront : PlainMarkers front := fun other member => plain other (by simp [member])
  have plainBack : PlainMarkers back := fun other member => plain other (by simp [member])
  rcases foldlM_append_eq_ok.mp grownPart with ⟨base, grown, grownPart⟩
  rcases foldlM_append_eq_ok.mp grownWhole with ⟨same, grownSame, grownWhole⟩
  cases grown.symm.trans grownSame
  rcases foldlM_cons_eq_ok.mp grownWhole with ⟨wholeBase, grownOwn, grownWhole⟩
  rcases grown_of_grow (sound_growth sound_start grown) grownOwn with ⟨made, adds⟩
  have keyedOwn := keyed_grow (keyed_growth keyed_start plainFront grown) (plain marker (by simp))
    grownOwn
  have length := (registered_of_growth grown).size_occurrences
  have here := adds.here
  rw [← Array.getElem?_toList] at here found
  rcases (later_growth keyedOwn plainBack grownWhole).occurrences with ⟨more, all⟩
  have bound := (List.getElem?_eq_some_iff.mp here).1
  rw [← all, ← length, List.getElem?_append_left bound, here] at found
  cases found
  exact ⟨_, rfl, length, omits_of_growth plain grown grownOwn adds grownPart grownWhole goes apart
    endless⟩

end Stencil.Outline
