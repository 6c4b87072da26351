import Stencil.Proofs.Outline.Alongside
import Stencil.Proofs.Outline.Terminators

namespace Stencil

/-!
# A document with one marker more

The outline of a document with one marker more holds the outline of the document without
it.  The further marker has a point and a slot of its own, so that those behind it are
moved on by one, and it may mention scopes first.  `Covers` says how the two outlines are
related while the markers behind the further one are added to both.
-/

/-- How the numbers of a document change with one marker more: scopes are found under
other numbers, and one slot and one point are put between the others. -/
structure Omission where
  scope : Nat → Nat
  /-- The number of the further slot. -/
  slot : Nat
  /-- The number of markers before the further one. -/
  point : Nat

namespace Omission

open Outline (Progress CarriedTo endAt)

variable (move : Omission)

def slotNumber (id : Nat) : Nat := if id < move.slot then id else id + 1

def pointNumber (point : Nat) : Nat := if point ≤ move.point then point else point + 1

def place (place : Place) : Place := ⟨place.offset, move.pointNumber place.point⟩

/-- The ends of a dimension: of the repetition and of the skipped row. -/
def ends (ends : Option Place × Option Nat) : Option Place × Option Nat :=
  (ends.1.map move.place, ends.2)

def slotAt (slot : Slot) : Slot where
  scope := move.scope slot.scope
  field := slot.field
  calls := slot.calls
  place := move.place slot.place
  path := slot.path

/-- A slot with its number. -/
def numbered (item : Slot × SlotId) : Slot × SlotId :=
  (move.slotAt item.1, move.slotNumber item.2)

def occurrence (occurrence : Occurrence) : Occurrence where
  offset := occurrence.offset
  path := occurrence.path
  opens := occurrence.opens.map move.scope
  closes := occurrence.closes.map move.scope
  slot := occurrence.slot.map move.slotNumber
  terminates := occurrence.terminates

/-- A marker that has walked as far. -/
def progress (progress : Progress) : Progress where
  marker := progress.marker
  point := move.pointNumber progress.point
  scope := move.scope progress.scope
  key := progress.key
  closing := progress.closing
  lost := progress.lost
  opens := progress.opens.map move.scope
  closes := progress.closes.map move.scope

/-- A scope and what it is in the whole, but for its conditions and its ends. -/
structure Image (scope image : Scope) : Prop extends CarriedTo move.scope scope image where
  opened : scope.isArray = true → image.opened = move.place scope.opened

variable {move}

theorem slotNumber_injective : Function.Injective move.slotNumber := by
  intro left right same
  unfold slotNumber at same
  split at same <;> split at same <;> omega

theorem slotNumber_ne (id : Nat) : move.slotNumber id ≠ move.slot := by
  unfold slotNumber
  split <;> omega

theorem pointNumber_lt_iff {left right : Nat} :
    move.pointNumber left < move.pointNumber right ↔ left < right := by
  unfold pointNumber
  split <;> split <;> omega

theorem endAt_ends (place : Place) (ends : Option Place × Option Nat) :
    endAt (move.place place) (move.ends ends) = move.ends (endAt place ends) := by
  rcases ends with ⟨first, last⟩
  cases first <;> rfl

/-- Frames make an image. -/
theorem Image.of_frame {scope image later laterImage : Scope} (same : move.Image scope image)
    (frames : Outline.frame later = Outline.frame scope)
    (imageFrames : Outline.frame laterImage = Outline.frame image) :
    move.Image later laterImage := by
  have array : later.isArray = scope.isArray := congrArg Outline.Frame.repeated frames
  have opened : later.opened = scope.opened := congrArg Outline.Frame.opened frames
  have parent : later.parent = scope.parent := congrArg Outline.Frame.parent frames
  have access : later.access = scope.access := congrArg Outline.Frame.access frames
  refine ⟨⟨?_, ?_, ?_⟩, fun kind => ?_⟩
  · rw [parent]
    exact (congrArg Outline.Frame.parent imageFrames).trans same.parent
  · rw [access]
    exact (congrArg Outline.Frame.access imageFrames).trans same.access
  · rw [array]
    exact (congrArg Outline.Frame.repeated imageFrames).trans same.repeated
  · rw [opened]
    exact (congrArg Outline.Frame.opened imageFrames).trans (same.opened (array ▸ kind))

end Omission

namespace Outline

open Marker (Step)

/-- A growth and one with a further marker.  Both were grown by the same markers, from a
base on and from that base with the further marker. -/
structure Covers (move : Omission) (base wholeBase part whole : Growth) : Prop where
  keyed : Keyed part
  keyedWhole : Keyed whole
  payload : move.scope root = root
  images : ∀ (id : Nat) scope, part.outline.scopes[id]? = some scope →
    ∃ image, whole.outline.scopes[move.scope id]? = some image ∧ move.Image scope image
  /-- The further marker made all other scopes. -/
  onto : ∀ image : Nat, image < whole.outline.scopes.size →
    (∃ id : Nat, id < part.outline.scopes.size ∧ move.scope id = image) ∨
      base.outline.scopes.size ≤ image ∧ image < wholeBase.outline.scopes.size
  rising : ∀ left right : Nat, part.outline.scopeIs Scope.isArray left = true →
    part.outline.scopeIs Scope.isArray right = true → left < right →
      move.scope left < move.scope right
  ends : ∀ id : Nat, id < part.outline.scopes.size →
    whole.outline.endsOf (move.scope id) = move.ends (part.outline.endsOf id)
  slots : ∃ more : List Slot, part.outline.slots.toList = base.outline.slots.toList ++ more ∧
    whole.outline.slots.toList = wholeBase.outline.slots.toList ++ more.map move.slotAt
  occurrences : ∃ more : List Occurrence,
    part.outline.occurrences.toList = base.outline.occurrences.toList ++ more ∧
      whole.outline.occurrences.toList =
        wholeBase.outline.occurrences.toList ++ more.map move.occurrence

variable {move : Omission} {base wholeBase part whole : Growth}

theorem endsOf_of_size_le {outline : Outline} {id : Nat} (beyond : outline.scopes.size ≤ id) :
    outline.endsOf id = (none, none) :=
  Prod.ext (told_of_size_le beyond) (told_of_size_le beyond)

/-- Only dimensions end. -/
theorem endsOf_of_object {outline : Outline} {id : Nat} {scope : Scope}
    (found : outline.scopes[id]? = some scope) (object : scope.isArray = false) :
    outline.endsOf id = (none, none) := by
  have plain : scope.dimension? = none := by
    rw [← Option.isNone_iff_eq_none, ← Option.isSome_eq_false_iff]
    exact object
  have silent : ∀ {α : Type} (property : Dimension → Option α), outline.told property id = none := by
    intro α property
    unfold told
    rw [found, Option.bind_some, plain, Option.bind_none]
  exact Prod.ext (silent _) (silent _)

namespace Covers

theorem carried (covers : Covers move base wholeBase part whole) :
    Images move.scope part.outline whole.outline where
  payload := covers.payload
  scopes id scope found := by
    rcases covers.images id scope found with ⟨image, foundImage, same⟩
    exact ⟨image, foundImage, same.toCarriedTo⟩

/-- What is no scope of the part was made by the further marker. -/
theorem further (covers : Covers move base wholeBase part whole) {image : Nat}
    (bound : image < whole.outline.scopes.size)
    (beside : ∀ id : Nat, id < part.outline.scopes.size → move.scope id ≠ image) :
    base.outline.scopes.size ≤ image ∧ image < wholeBase.outline.scopes.size := by
  rcases covers.onto image bound with ⟨id, own, same⟩ | made
  · exact absurd same (beside id own)
  · exact made

theorem scopeIs_hasEnd (covers : Covers move base wholeBase part whole) {id : Nat}
    (bound : id < part.outline.scopes.size) :
    whole.outline.scopeIs Scope.hasEnd (move.scope id) =
      part.outline.scopeIs Scope.hasEnd id := by
  have same : whole.outline.closingOf (move.scope id) = (part.outline.closingOf id).map move.place :=
    congrArg Prod.fst (covers.ends id bound)
  rw [Outline.scopeIs_hasEnd, Outline.scopeIs_hasEnd, same, Option.isSome_map]

/-- Both growths change, but not in their frames. -/
theorem of_sameFrames (covers : Covers move base wholeBase part whole) {later laterWhole : Growth}
    (same : SameFrames part.outline later.outline) (keys : later.keys = part.keys)
    (sameWhole : SameFrames whole.outline laterWhole.outline)
    (keysWhole : laterWhole.keys = whole.keys)
    (ends : ∀ id : Nat, id < part.outline.scopes.size →
      laterWhole.outline.endsOf (move.scope id) = move.ends (later.outline.endsOf id))
    (slots : ∃ more : List Slot, later.outline.slots.toList = base.outline.slots.toList ++ more ∧
      laterWhole.outline.slots.toList = wholeBase.outline.slots.toList ++ more.map move.slotAt)
    (occurrences : ∃ more : List Occurrence,
      later.outline.occurrences.toList = base.outline.occurrences.toList ++ more ∧
        laterWhole.outline.occurrences.toList =
          wholeBase.outline.occurrences.toList ++ more.map move.occurrence) :
    Covers move base wholeBase later laterWhole := by
  refine
    { keyed := covers.keyed.of_sameFrames same keys
      keyedWhole := covers.keyedWhole.of_sameFrames sameWhole keysWhole
      payload := covers.payload
      images := ?_
      onto := ?_
      rising := ?_
      ends := ?_
      slots := slots
      occurrences := occurrences }
  · intro id scope found
    rcases same.symm.keeps id scope found with ⟨old, foundOld, frames⟩
    rcases covers.images id old foundOld with ⟨image, foundImage, sameImage⟩
    rcases sameWhole.keeps _ image foundImage with ⟨laterImage, foundLater, laterFrames⟩
    exact ⟨laterImage, foundLater, sameImage.of_frame frames.symm laterFrames⟩
  · intro image bound
    rw [sameWhole.size] at bound
    rw [same.size]
    exact covers.onto image bound
  · intro left right array otherArray
    rw [same.scopeIs_isArray] at array otherArray
    exact covers.rising left right array otherArray
  · intro id bound
    rw [same.size] at bound
    exact ends id bound

/-- Where a scope is made, those that were there go on rising. -/
theorem rising_of_old (covers : Covers move base wholeBase part whole) {key : String} {scope : Scope}
    {arrayKey : Option String} {left right : Nat} (old : right < part.outline.scopes.size)
    (array : (part.addScope key scope arrayKey).outline.scopeIs Scope.isArray left = true)
    (otherArray : (part.addScope key scope arrayKey).outline.scopeIs Scope.isArray right = true)
    (less : left < right) : move.scope left < move.scope right := by
  have keeps := keeps_addScope part key scope arrayKey
  rw [keeps.scopeIs_isArray (less.trans old)] at array
  rw [keeps.scopeIs_isArray old] at otherArray
  exact covers.rising left right array otherArray less

/-- Both growths make a scope. -/
theorem made (covers : Covers move base wholeBase part whole) {key keyWhole : String}
    {scope image : Scope} {arrayKey arrayKeyWhole : Option String}
    (keyed : Keyed (part.addScope key scope arrayKey))
    (keyedWhole : Keyed (whole.addScope keyWhole image arrayKeyWhole))
    (placed : move.scope part.outline.scopes.size = whole.outline.scopes.size)
    (same : move.Image scope image)
    (silent : ∀ id, (part.addScope key scope arrayKey).outline.endsOf id = part.outline.endsOf id)
    (silentWhole : ∀ id, (whole.addScope keyWhole image arrayKeyWhole).outline.endsOf id =
      whole.outline.endsOf id) :
    Covers move base wholeBase (part.addScope key scope arrayKey)
      (whole.addScope keyWhole image arrayKeyWhole) := by
  refine
    { keyed := keyed
      keyedWhole := keyedWhole
      payload := covers.payload
      images := ?_
      onto := ?_
      rising := ?_
      ends := ?_
      slots := covers.slots
      occurrences := covers.occurrences }
  · intro id other found
    rcases old_or_new found with old | ⟨rfl, rfl⟩
    · rcases covers.images id other old with ⟨otherImage, foundImage, sameImage⟩
      refine ⟨otherImage, ?_, sameImage⟩
      rw [getElem?_addScope_old (lt_size_of_getElem? foundImage)]
      exact foundImage
    · exact ⟨image, by rw [placed, getElem?_addScope_new], same⟩
  · intro other bound
    rw [size_addScope] at bound ⊢
    rcases Nat.lt_succ_iff_lt_or_eq.mp bound with old | rfl
    · rcases covers.onto other old with ⟨id, idBound, moved⟩ | aside
      · exact .inl ⟨id, Nat.lt_succ_of_lt idBound, moved⟩
      · exact .inr aside
    · exact .inl ⟨_, Nat.lt_succ_self _, placed⟩
  · intro left right array otherArray less
    have bound := lt_size_of_scopeIs otherArray
    rw [size_addScope] at bound
    rcases Nat.lt_succ_iff_lt_or_eq.mp bound with old | rfl
    · exact covers.rising_of_old old array otherArray less
    · rw [placed]
      exact covers.carried.lt_size less
  · intro id bound
    rw [size_addScope] at bound
    rw [silent, silentWhole]
    rcases Nat.lt_succ_iff_lt_or_eq.mp bound with old | rfl
    · exact covers.ends id old
    · rw [placed, endsOf_of_size_le (Nat.le_refl _), endsOf_of_size_le (Nat.le_refl _)]
      rfl

/-- A scope is made where the further marker has made it already. -/
theorem shared (covers : Covers move base wholeBase part whole) {key : String}
    {scope image : Scope} {arrayKey : Option String}
    (keyed : Keyed (part.addScope key scope arrayKey))
    (found : whole.outline.scopes[move.scope part.outline.scopes.size]? = some image)
    (same : move.Image scope image) (object : scope.isArray = false)
    (silent : ∀ id, (part.addScope key scope arrayKey).outline.endsOf id = part.outline.endsOf id) :
    Covers move base wholeBase (part.addScope key scope arrayKey) whole := by
  refine
    { keyed := keyed
      keyedWhole := covers.keyedWhole
      payload := covers.payload
      images := ?_
      onto := ?_
      rising := ?_
      ends := ?_
      slots := covers.slots
      occurrences := covers.occurrences }
  · intro id other foundOther
    rcases old_or_new foundOther with old | ⟨rfl, rfl⟩
    · exact covers.images id other old
    · exact ⟨image, found, same⟩
  · intro other bound
    rw [size_addScope]
    rcases covers.onto other bound with ⟨id, idBound, moved⟩ | aside
    · exact .inl ⟨id, Nat.lt_succ_of_lt idBound, moved⟩
    · exact .inr aside
  · intro left right array otherArray less
    have bound := lt_size_of_scopeIs otherArray
    rw [size_addScope] at bound
    rcases Nat.lt_succ_iff_lt_or_eq.mp bound with old | rfl
    · exact covers.rising_of_old old array otherArray less
    · rw [scopeIs_eq (getElem?_addScope_new part key scope arrayKey), object] at otherArray
      cases otherArray
  · intro id bound
    rw [size_addScope] at bound
    rw [silent]
    rcases Nat.lt_succ_iff_lt_or_eq.mp bound with old | rfl
    · exact covers.ends id old
    · have imageObject : image.isArray = false := same.repeated.trans object
      rw [endsOf_of_size_le (Nat.le_refl _), endsOf_of_object found imageObject]
      rfl

end Covers

end Outline

end Stencil
