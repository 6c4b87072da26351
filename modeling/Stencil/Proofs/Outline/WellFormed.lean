import Stencil.Proofs.Outline.Terminators
import Stencil.Proofs.Sorting

namespace Stencil.Outline

/-!
# Outlines of markers are well formed

Everything that a layout and a program rely on when they read an outline: the tree of
scopes, the occurrences as a register of the markers, the slots they made, and the
dimensions with the markers that open and end them.  It holds of every list of
markers that has an outline, under both policies, and whatever their conditions
contain.
-/

/-- The marker with this index opens a dimension. -/
def OpensAt (outline : Outline) (id : ScopeId) (index : Nat) : Prop :=
  ∃ occurrence, outline.occurrences[index]? = some occurrence ∧ id ∈ occurrence.opens

/-- The marker with this index is the first to end a dimension. -/
def ClosesAt (outline : Outline) (id : ScopeId) (index : Nat) : Prop :=
  ∃ occurrence, outline.occurrences[index]? = some occurrence ∧ id ∈ occurrence.closes

/-- The place of the marker with this index. -/
def placeOf? (outline : Outline) (index : Nat) : Option Place :=
  outline.occurrences[index]?.map fun occurrence => occurrence.placeAt index

/-- The tree of scopes. -/
structure WellRooted (outline : Outline) : Prop where
  payload : outline.scopes[root]?.isSome
  orphan : ∀ (id : Nat) scope, outline.scopes[id]? = some scope →
    (scope.parent = none ↔ id = root)
  inside : ∀ (id : Nat) scope (parent : Nat), outline.scopes[id]? = some scope →
    scope.parent = some parent → parent < id ∧ ∃ outer, outline.scopes[parent]? = some outer ∧
      scope.depth = outer.depth + if scope.isArray then 1 else 0

/-- The occurrences as a register of the markers. -/
structure WellRecorded (markers : List Marker) (outline : Outline) : Prop where
  recorded : outline.occurrences.toList.map Occurrence.marker = inDocumentOrder markers
  complete : (outline.occurrences.toList.map Occurrence.marker).Perm markers
  ascending : (outline.occurrences.toList.map Occurrence.offset).Pairwise (· ≤ ·)

/-- The slots, numbered and placed by their occurrences and listed by their scopes. -/
structure WellSlotted (outline : Outline) : Prop where
  inserts : ∀ occurrence ∈ outline.occurrences.toList, ∃ path,
    Marker.readPath occurrence.path.toList = .ok path ∧
      (occurrence.slot = none ↔ path.terminates = true)
  consecutive : outline.occurrences.toList.filterMap Occurrence.slot =
    List.range outline.slots.size
  placed : ∀ (index : Nat) occurrence id, outline.occurrences[index]? = some occurrence →
    occurrence.slot = some id → ∃ slot, outline.slots[id]? = some slot ∧
      slot.place = occurrence.placeAt index ∧ slot.path = occurrence.path
  listed : ∀ (id : Nat) slot, outline.slots[id]? = some slot →
    ∃ scope, outline.scopes[slot.scope]? = some scope ∧ scope.slots.count id = 1
  nowhereElse : ∀ (id other : Nat) slot scope, outline.slots[id]? = some slot →
    outline.scopes[other]? = some scope → id ∈ scope.slots → other = slot.scope

/-- The dimensions, with the markers that open and end them. -/
structure WellBounded (markers : List Marker) (outline : Outline) : Prop where
  opened : ∀ id, outline.scopeIs Scope.isArray id = true → ∃! index, outline.OpensAt id index
  anchored : ∀ (id index : Nat), outline.OpensAt id index → ∃ scope,
    outline.scopes[id]? = some scope ∧ scope.isArray = true ∧
      outline.placeOf? index = some scope.opened
  closed : ∀ id, outline.scopeIs Scope.hasEnd id = true ↔ ∃ index, outline.ClosesAt id index
  closedOnce : ∀ id first second, outline.ClosesAt id first → outline.ClosesAt id second →
    first = second
  closing : ∀ (id index : Nat) scope, outline.scopes[id]? = some scope →
    outline.ClosesAt id index → outline.placeOf? index = scope.closing?
  terminators : ∀ (id : Nat) scope dimension, outline.scopes[id]? = some scope →
    scope.dimension? = some dimension →
      Bounds (Terminator (inDocumentOrder markers) id) dimension.closing dimension.skipEnd
  order : ∀ (id : Nat) scope dimension closing, outline.scopes[id]? = some scope →
    scope.dimension? = some dimension → dimension.closing = some closing →
      scope.opened.point < closing.point ∧ scope.opened.offset ≤ closing.offset ∧
        ∃ last, dimension.skipEnd = some last ∧ closing.offset ≤ last

/-- An outline that agrees with the markers it was made of. -/
structure WellFormed (markers : List Marker) (outline : Outline) : Prop where
  tree : WellRooted outline
  register : WellRecorded markers outline
  slots : WellSlotted outline
  dimensions : WellBounded markers outline

/-! ## The parts -/

variable {outline : Outline} {markers taken : List Marker}

theorem wellRooted_of_rooted (rooted : Rooted outline) : WellRooted outline := by
  rcases rooted.payload with ⟨payload, found, orphan, -, -⟩
  constructor
  · rw [found]
    rfl
  · intro id scope foundScope
    constructor
    · intro none
      by_contra elsewhere
      rcases rooted.inside id scope foundScope elsewhere with ⟨parent, link, -⟩
      rw [none] at link
      cases link
    · rintro rfl
      rw [found] at foundScope
      cases foundScope
      exact orphan
  · intro id scope parent foundScope link
    have smaller := rooted.parent_lt foundScope link
    have foundParent := Array.getElem?_eq_getElem (smaller.trans (lt_size_of_getElem? foundScope))
    refine ⟨smaller, _, foundParent, ?_⟩
    have elsewhere : id ≠ root := by
      rintro rfl
      exact Nat.not_lt_zero _ smaller
    rcases rooted.inside id scope foundScope elsewhere with ⟨other, otherLink, -, depth⟩
    rw [link] at otherLink
    cases otherLink
    rw [depth, depthOf_eq foundParent]

/-- Markers in the order of the document ascend. -/
theorem pairwise_inDocumentOrder (markers : List Marker) :
    (inDocumentOrder markers).Pairwise fun left right => left.offset ≤ right.offset :=
  pairwise_orderBy_key Marker.offset markers

theorem wellRecorded_of_registered
    (registered : Registered (inDocumentOrder markers) outline) :
    WellRecorded markers outline where
  recorded := registered.recorded
  complete := by
    rw [registered.recorded]
    exact perm_orderBy _ markers
  ascending := by
    have sorted := pairwise_inDocumentOrder markers
    rw [← registered.recorded, List.pairwise_map] at sorted
    exact List.pairwise_map.mpr sorted

theorem wellSlotted_of_registered (coherent : Coherent outline)
    (registered : Registered taken outline) : WellSlotted outline where
  inserts := registered.inserts
  consecutive := coherent.listed
  placed := registered.placed
  listed id slot found := by
    have bound := (Array.getElem?_eq_some_iff.mp found).1
    have exists_scope : ∃ scope, outline.scopes[slot.scope]? = some scope :=
      ⟨_, Array.getElem?_eq_getElem (coherent.slotScope id slot found)⟩
    rcases exists_scope with ⟨scope, foundScope⟩
    refine ⟨scope, foundScope, ?_⟩
    have own : scope.slots = outline.slotsOf slot.scope := by simp [slotsOf, foundScope]
    rw [own, registered.lists]
    apply List.count_eq_one_of_mem (List.Nodup.filter _ List.nodup_range)
    rw [List.mem_filter, List.mem_range]
    exact ⟨bound, by rw [scopeOfSlot, found]; simp⟩
  nowhereElse id other slot scope found foundScope member := by
    have lists : scope.slots = outline.slotsOf other := by simp [slotsOf, foundScope]
    rw [lists, registered.lists, List.mem_filter] at member
    have same : some slot.scope = some other := by
      simpa [scopeOfSlot, found] using member.2
    exact (Option.some.inj same).symm

/-- A marker opens the dimensions that begin at its place. -/
theorem placeOf?_of_opensAt (registered : Registered taken outline) {id index : Nat}
    (opens : outline.OpensAt id index) : ∃ scope, outline.scopes[id]? = some scope ∧
      scope.isArray = true ∧ outline.placeOf? index = some scope.opened := by
  rcases opens with ⟨occurrence, found, member⟩
  rcases scopeIs_eq_true.mp (registered.isArray_of_opens found member) with ⟨scope, foundScope, repeated⟩
  refine ⟨scope, foundScope, repeated, ?_⟩
  rw [placeOf?, found, registered.opened index occurrence id scope found member foundScope]
  rfl

theorem placeOf?_of_closesAt (registered : Registered taken outline) {id index : Nat}
    (closes : outline.ClosesAt id index) : outline.placeOf? index = outline.closingOf id := by
  rcases closes with ⟨occurrence, found, member⟩
  rw [registered.closingOf_of_closes found member, placeOf?, found]
  rfl

/-- Places of different markers differ. -/
theorem index_eq_of_placeOf? {first second : Nat} {place : Place}
    (found : outline.placeOf? first = some place) (same : outline.placeOf? second = some place) :
    first = second := by
  rcases Option.map_eq_some_iff.mp found with ⟨occurrence, -, rfl⟩
  rcases Option.map_eq_some_iff.mp same with ⟨other, -, equal⟩
  have points : second + 1 = first + 1 := congrArg Place.point equal
  exact (Nat.succ.inj points).symm

/-- Later markers do not stand before earlier ones. -/
theorem offset_le_of_point_le (recorded : WellRecorded markers outline) {first second : Nat}
    {place other : Place} (found : outline.placeOf? first = some place)
    (otherFound : outline.placeOf? second = some other) (later : place.point ≤ other.point) :
    place.offset ≤ other.offset := by
  rcases Option.map_eq_some_iff.mp found with ⟨left, foundLeft, rfl⟩
  rcases Option.map_eq_some_iff.mp otherFound with ⟨right, foundRight, rfl⟩
  rcases Nat.lt_or_eq_of_le (Nat.le_of_succ_le_succ later) with before | same
  · have ascending := List.pairwise_map.mp recorded.ascending
    rcases Array.getElem?_eq_some_iff.mp foundLeft with ⟨leftBound, rfl⟩
    rcases Array.getElem?_eq_some_iff.mp foundRight with ⟨rightBound, rfl⟩
    exact List.pairwise_iff_getElem.mp ascending first second leftBound rightBound before
  · subst same
    rw [foundLeft] at foundRight
    cases foundRight
    exact Nat.le_refl _

theorem exists_closesAt (registered : Registered taken outline) {id : ScopeId} {place : Place}
    (ended : outline.closingOf id = some place) :
    ∃ index, outline.ClosesAt id index ∧ outline.placeOf? index = some place := by
  rcases (registered.closing id place).mp ended with ⟨index, occurrence, found, member, -⟩
  have closes : outline.ClosesAt id index := ⟨occurrence, found, member⟩
  exact ⟨index, closes, by rw [placeOf?_of_closesAt registered closes, ended]⟩

/-- A dimension begins in front of its first end. -/
theorem opened_before_closing (registered : Registered (inDocumentOrder markers) outline) {id : Nat}
    {scope : Scope} {closing : Place} (found : outline.scopes[id]? = some scope)
    (array : scope.isArray = true) (ended : outline.closingOf id = some closing) :
    scope.opened.point < closing.point ∧ scope.opened.offset ≤ closing.offset := by
  have points := registered.order id scope closing found ended
  rcases registered.exists_opens ((scopeIs_eq found).trans array) with ⟨first, opens⟩
  rcases placeOf?_of_opensAt registered opens with ⟨same, foundSame, -, anchor⟩
  rw [found] at foundSame
  cases foundSame
  rcases exists_closesAt registered ended with ⟨second, -, place⟩
  exact ⟨points, offset_le_of_point_le (wellRecorded_of_registered registered) anchor place
    (Nat.le_of_lt points)⟩

theorem wellBounded_of_registered (registered : Registered (inDocumentOrder markers) outline)
    (bounds : ∀ id, Bounds (Terminator (inDocumentOrder markers) id) (outline.closingOf id)
      (outline.told Dimension.skipEnd id)) : WellBounded markers outline where
  opened id array := by
    rcases registered.exists_opens array with ⟨index, opens⟩
    refine ⟨index, opens, fun other otherOpens => ?_⟩
    rcases placeOf?_of_opensAt registered opens with ⟨scope, found, -, place⟩
    rcases placeOf?_of_opensAt registered otherOpens with ⟨same, foundSame, -, otherPlace⟩
    rw [found] at foundSame
    cases foundSame
    exact index_eq_of_placeOf? otherPlace place
  anchored id index opens := placeOf?_of_opensAt registered opens
  closed id := by
    rw [scopeIs_hasEnd, Option.isSome_iff_exists]
    constructor
    · rintro ⟨place, ended⟩
      rcases exists_closesAt registered ended with ⟨index, closes, -⟩
      exact ⟨index, closes⟩
    · rintro ⟨index, occurrence, found, member⟩
      exact ⟨_, registered.closingOf_of_closes found member⟩
  closedOnce id first second closes otherCloses := by
    have place := placeOf?_of_closesAt registered closes
    have otherPlace := placeOf?_of_closesAt registered otherCloses
    rcases closes with ⟨occurrence, found, -⟩
    rw [placeOf?, found, Option.map_some] at place
    rw [← place] at otherPlace
    refine index_eq_of_placeOf? ?_ otherPlace
    rw [placeOf?, found]
    rfl
  closing id index scope found closes := by
    rw [placeOf?_of_closesAt registered closes, closingOf_eq found]
  terminators id scope dimension found kind := by
    have ends := bounds id
    simpa [closingOf, told, found, kind] using ends
  order id scope dimension closing found kind ended := by
    have there : outline.closingOf id = some closing := by
      rw [closingOf_eq found, Scope.closing?, kind]
      exact ended
    have array : scope.isArray = true := by
      rw [Scope.isArray, kind]
      rfl
    rcases opened_before_closing registered found array there with ⟨points, offsets⟩
    have skips := bounds id
    have last : outline.told Dimension.skipEnd id = dimension.skipEnd := by
      simp [told, found, kind]
    rw [there, last] at skips
    exact ⟨points, offsets, skips.exists_last⟩

/-! ## Documents -/

/-- Every outline of markers is well formed. -/
theorem wellFormed_of_ofMarkers {policy : Unterminated}
    (accepted : ofMarkers markers policy = .ok outline) : WellFormed markers outline := by
  have coherent := coherent_of_ofMarkers accepted
  rcases ofMarkers_eq_ok accepted with ⟨growth, grown, rfl⟩
  have registered := registered_of_growth grown
  exact ⟨wellRooted_of_rooted coherent.rooted, wellRecorded_of_registered registered,
    wellSlotted_of_registered coherent registered,
    wellBounded_of_registered registered (bounds_of_growth grown)⟩

/-- Markers in no order, with a dimension in a dimension, one that is ended twice and a
search. -/
def lotMarkers : List Marker :=
  [⟨31, "d.rows[r+1].name"⟩, ⟨4, "d.rows[r].name"⟩, ⟨9, "d.rows[r].cars[c][size>2].id"⟩,
    ⟨20, "d.rows[r].cars[c+1].id"⟩, ⟨25, "d.rows[r].cars[c+1].id"⟩, ⟨40, "d.owner[role='x'].name"⟩]

theorem wellFormed_lot : ∃ outline, ofMarkers lotMarkers .strict = .ok outline ∧
    WellFormed lotMarkers outline := by
  rcases exists_of_isOk (by decide +kernel : (ofMarkers lotMarkers .strict).isOk = true) with
    ⟨outline, accepted⟩
  exact ⟨outline, accepted, wellFormed_of_ofMarkers accepted⟩

end Stencil.Outline
