import Stencil.Proofs.Outline.Joining
import Stencil.Proofs.Outline.Reached

namespace Stencil.Outline

/-!
# The outlines of two parts and that of both

Where no marker of the one part comes to a dimension that one of the other comes to,
the outline of both parts holds that of the first as it is and that of the second
with other numbers.  Objects and searches may belong to both.
-/

/-! ## Order -/

/-- Markers of a part behind another come behind those of the other. -/
theorem inDocumentOrder_append {first second : List Marker} {size : Nat}
    (within : ∀ marker ∈ first, marker.offset ≤ size) :
    inDocumentOrder (first ++ second.map (Marker.shift size)) =
      inDocumentOrder first ++ (inDocumentOrder second).map (Marker.shift size) := by
  unfold inDocumentOrder
  rw [orderBy_append, map_orderBy]
  · intro left _ right _
    simp [Marker.shift]
  · intro left member right other
    rcases List.mem_map.mp other with ⟨origin, -, rfl⟩
    exact decide_eq_true ((within left member).trans (Nat.le_add_left _ _))

/-! ## Numbers -/

/-- The scope with the same address in the whole; what has none is moved out of the
way. -/
def placeOf (alone whole : Outline) (id : Nat) : Nat :=
  if id < alone.scopes.size then
    ((List.range whole.scopes.size).find? fun image =>
      whole.address image = alone.address id).getD 0
  else whole.scopes.size + id

theorem placeOf_eq {alone whole : Growth} (keyed : Keyed whole) {id image : Nat}
    (bound : id < alone.outline.scopes.size) (imageBound : image < whole.outline.scopes.size)
    (same : whole.outline.address image = alone.outline.address id) :
    placeOf alone.outline whole.outline id = image := by
  unfold placeOf
  rw [if_pos bound]
  cases found : (List.range whole.outline.scopes.size).find? fun image =>
      whole.outline.address image = alone.outline.address id with
  | none =>
    have none := List.find?_eq_none.mp found image (List.mem_range.mpr imageBound)
    simp [same] at none
  | some other =>
    have otherSame := List.find?_some found
    have otherBound := List.mem_range.mp (List.mem_of_find?_eq_some found)
    apply keyed.address_injective otherBound imageBound
    rw [same]
    simpa using otherSame

/-! ## Parts -/

/-- Two outlines as parts of another, the second with other numbers. -/
structure Joins (move : Relocation) (one two both : Outline) : Prop where
  first : Relocation.stay.Embeds one both
  second : move.Embeds two both
  slot : move.slot = one.slots.size
  point : move.point = one.lastPoint
  slots : both.slots = one.slots ++ two.slots.map move.slotAt
  occurrences : both.occurrences = one.occurrences ++ two.occurrences.map move.occurrence
  beyond : ∀ id : Nat, two.scopeIs Scope.isArray id = true → one.scopes.size ≤ move.scope id
  onto : ∀ image : Nat, one.scopes.size ≤ image → image < both.scopes.size →
    ∃ id : Nat, id < two.scopes.size ∧ move.scope id = image
  rising : ∀ left right : Nat, left < right → right < two.scopes.size →
    one.scopes.size ≤ move.scope right → move.scope left < move.scope right

theorem Beside.stay_embeds {move : Relocation} {base alone whole : Growth}
    (beside : Beside move base alone whole) :
    Relocation.stay.Embeds base.outline whole.outline := by
  refine ⟨fun _ _ same => same, rfl, ?_, ?_⟩
  · intro id scope found
    rcases beside.kept id scope found with ⟨image, foundImage, same⟩
    have dimension := beside.still id (lt_size_of_getElem? found)
    rw [found, foundImage, Option.bind_some, Option.bind_some] at dimension
    refine ⟨image, foundImage, ?_, congrArg Frame.access same, ?_,
      fun _ => congrArg Frame.opened same⟩
    · rw [show image.parent = scope.parent from congrArg Frame.parent same]
      cases scope.parent <;> rfl
    · rw [dimension]
      cases scope.dimension? with
      | none => rfl
      | some dimension => exact congrArg some (Relocation.dimension_stay dimension).symm
  · intro id slot found
    have bound := (Array.getElem?_eq_some_iff.mp found).1
    show whole.outline.slots[id]? = some slot
    rw [beside.slots, Array.getElem?_append_left bound]
    exact found

theorem Beside.embeds {move : Relocation} {base alone whole : Growth}
    (beside : Beside move base alone whole) (injective : Function.Injective move.scope)
    (slots : move.slot = base.outline.slots.size) : move.Embeds alone.outline whole.outline := by
  refine ⟨injective, beside.payload, beside.images, ?_⟩
  intro id slot found
  rw [beside.slots, slots, Array.getElem?_append_right (Nat.le_add_left _ _),
    Nat.add_sub_cancel, Array.getElem?_map, found]
  rfl

/-- Scopes with images have images of their own. -/
theorem Images.placeOf_injective {alone whole : Growth}
    (images : Images (placeOf alone.outline whole.outline) alone.outline whole.outline)
    (keyed : Keyed alone) (keyedWhole : Keyed whole) :
    Function.Injective (placeOf alone.outline whole.outline) := by
  have apart : ∀ {left right : Nat}, left < alone.outline.scopes.size →
      ¬ right < alone.outline.scopes.size →
      placeOf alone.outline whole.outline left ≠ placeOf alone.outline whole.outline right := by
    intro left right bound beyond same
    have image : placeOf alone.outline whole.outline left < whole.outline.scopes.size :=
      images.lt_size bound
    have outside : placeOf alone.outline whole.outline right = whole.outline.scopes.size + right :=
      if_neg beyond
    omega
  intro left right same
  by_cases leftBound : left < alone.outline.scopes.size
  · by_cases rightBound : right < alone.outline.scopes.size
    · exact images.injective keyed keyedWhole leftBound rightBound same
    · exact absurd same (apart leftBound rightBound)
  · by_cases rightBound : right < alone.outline.scopes.size
    · exact absurd same.symm (apart rightBound leftBound)
    · unfold placeOf at same
      rw [if_neg leftBound, if_neg rightBound] at same
      exact Nat.add_left_cancel same

variable {first second : List Marker} {size : Nat} {policy : Unterminated}
  {one two both : Outline}

/-! ## What both parts reach -/

/-- What a part makes is reached by one of its markers. -/
theorem exists_reaches_first {base : Growth} (within : ∀ marker ∈ first, marker.offset ≤ size)
    (grown : (inDocumentOrder first).foldlM grow Growth.start = .ok base) {id : Nat}
    (bound : id < base.outline.scopes.size) (elsewhere : id ≠ root) :
    ∃ rank, rank < first.length ∧
      Reaches (first ++ second.map (Marker.shift size)) rank id := by
  rcases exists_reached grown bound elsewhere with
    ⟨earlier, marker, later, count, steps, walk, split, traced, rest⟩
  have alone : Reaches first earlier.length id :=
    ⟨earlier, marker, later, count, steps, walk, split, rfl, traced, rest⟩
  refine ⟨earlier.length, alone.lt_length, earlier, marker,
    later ++ (inDocumentOrder second).map (Marker.shift size), count, steps, walk, ?_, rfl, traced,
    rest⟩
  rw [inDocumentOrder_append within, split, List.append_assoc, List.cons_append]

/-- What a marker of the second part comes to is reached behind the first part. -/
theorem reaches_second {base between : Growth} {front back : List Marker} {marker : Marker}
    {read : ReadMarker} {count : Nat} {walk : Walk}
    (within : ∀ marker ∈ first, marker.offset ≤ size)
    (grown : (inDocumentOrder first).foldlM grow Growth.start = .ok base)
    (split : inDocumentOrder second = front ++ marker :: back)
    (grownFront : (front.map (Marker.shift size)).foldlM grow base = .ok between)
    (reading : readMarker (marker.shift size) = .ok read)
    (walks : (read.path.steps.1.take count).foldlM walkStep
      (between, beginWalk between (marker.shift size)) = .ok walk)
    (onTrack : walk.2.lost = false) :
    Reaches (first ++ second.map (Marker.shift size)) (first.length + front.length)
      walk.2.scope := by
  refine ⟨inDocumentOrder first ++ front.map (Marker.shift size), marker.shift size,
    back.map (Marker.shift size), count, read.path.steps.1.take count, walk, ?_, ?_, ?_, onTrack,
    rfl⟩
  · rw [inDocumentOrder_append within, split]
    simp
  · rw [List.length_append, inDocumentOrder, length_orderBy, List.length_map]
  · exact trace_of_run (foldlM_append_eq_ok.mpr ⟨base, grown, grownFront⟩) reading walks

/-- If the parts share no repetition, a marker of the second comes to no repetition of
the first. -/
theorem freshMarker_of_apart {base between whole : Growth} {front back : List Marker}
    {marker : Marker} (rooted : Rooted base.outline)
    (within : ∀ marker ∈ first, marker.offset ≤ size)
    (apart : ∀ id left right, Reaches (first ++ second.map (Marker.shift size)) left id →
      Reaches (first ++ second.map (Marker.shift size)) right id → left < first.length →
      first.length ≤ right → whole.outline.scopeIs Scope.isArray id = false)
    (grown : (inDocumentOrder first).foldlM grow Growth.start = .ok base)
    (split : inDocumentOrder second = front ++ marker :: back)
    (grownFront : (front.map (Marker.shift size)).foldlM grow base = .ok between)
    (grownWhole : ((inDocumentOrder second).map (Marker.shift size)).foldlM grow base = .ok whole) :
    FreshMarker base between (marker.shift size) := by
  intro read count walk reading walks onTrack array
  by_contra early
  have old := Nat.lt_of_not_le early
  have known : walk.1.outline.scopeIs Scope.isArray walk.2.scope =
      base.outline.scopeIs Scope.isArray walk.2.scope :=
    Keeps.scopeIs_isArray ((keeps_growth grownFront).trans (keeps_run walks)) old
  have elsewhere : walk.2.scope ≠ root := by
    intro atRoot
    rcases rooted.payload with ⟨scope, found, -, object, -⟩
    rw [known, atRoot, scopeIs_eq found, object] at array
    cases array
  rcases exists_reaches_first within grown old elsewhere with ⟨rank, few, left⟩
  have right := reaches_second within grown split grownFront reading walks onTrack
  have object := apart _ _ _ left right few (Nat.le_add_right _ _)
  rw [Keeps.scopeIs_isArray (keeps_growth grownWhole) old, ← known, array] at object
  cases object

/-- Behind another part a part is what it is alone. -/
theorem joins_of_ofMarkers (outlined : ofMarkers first policy = .ok one)
    (otherOutlined : ofMarkers second policy = .ok two)
    (bothOutlined : ofMarkers (first ++ second.map (Marker.shift size)) policy = .ok both)
    (plain : PlainMarkers first) (otherPlain : PlainMarkers second)
    (within : ∀ marker ∈ first, marker.offset ≤ size)
    (apart : ∀ id left right, Reaches (first ++ second.map (Marker.shift size)) left id →
      Reaches (first ++ second.map (Marker.shift size)) right id → left < first.length →
      first.length ≤ right → both.scopeIs Scope.isArray id = false) :
    ∃ move, move.offset = size ∧ Joins move one two both := by
  rcases ofMarkers_eq_ok outlined with ⟨base, grown, rfl⟩
  rcases ofMarkers_eq_ok otherOutlined with ⟨alone, aloneGrown, rfl⟩
  rcases ofMarkers_eq_ok bothOutlined with ⟨whole, wholeGrown, rfl⟩
  rw [inDocumentOrder_append within] at wholeGrown
  rcases foldlM_append_eq_ok.mp wholeGrown with ⟨between, same, wholeGrown⟩
  rw [grown] at same
  cases same
  let move : Relocation := ⟨placeOf alone.outline whole.outline, base.outline.slots.size, size,
    base.outline.occurrences.size⟩
  have shifted := otherPlain.ordered.map_shift size
  have keyed := keyed_growth keyed_start plain.ordered grown
  have keyedAlone := keyed_growth keyed_start otherPlain.ordered aloneGrown
  have keyedWhole := keyed_growth keyed shifted wholeGrown
  have places : Places move alone.outline whole.outline :=
    fun id image bound imageBound same => placeOf_eq keyedWhole bound imageBound same
  have payload : move.scope root = root := by
    apply places root root (size_pos keyedAlone.rooted) (size_pos keyedWhole.rooted)
    rw [address_root keyedWhole.rooted, address_root keyedAlone.rooted]
  have beside : Beside move base alone whole := by
    apply Beside.growth rfl rfl (beside_start keyed (keeps_growth grown) payload)
      otherPlain.ordered aloneGrown wholeGrown _ places
    intro front marker back here split grownFront
    exact freshMarker_of_apart keyed.rooted within apart grown split grownFront wholeGrown
  exact ⟨move, rfl,
    { first := beside.stay_embeds
      second := beside.embeds (beside.carried.placeOf_injective keyedAlone keyedWhole) rfl
      slot := rfl
      point := rfl
      slots := beside.slots
      occurrences := beside.occurrences
      beyond := beside.beyond
      onto := beside.onto
      rising := beside.rising }⟩

end Stencil.Outline
