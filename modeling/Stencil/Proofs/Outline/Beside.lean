import Stencil.Proofs.Outline.Points
import Stencil.Proofs.Outline.Relocation

namespace Stencil.Outline

open Marker (Step)

/-!
# The second part of a document beside the same document alone

The markers of a second part grow an outline twice: alone from the payload on, and
behind a first part from the outline of that part on.  `Beside` says how the two
growths are related all the while.  Every scope made alone has an image behind the
first part; objects and searches may be those of the first part, dimensions are
always new.  `Alongside` says the same of two walks.
-/

/-- A growth from the payload on beside one from a base on. -/
structure Beside (move : Relocation) (base alone whole : Growth) : Prop where
  keyed : Keyed alone
  keyedWhole : Keyed whole
  kept : Keeps base.outline whole.outline
  /-- The dimensions of the base are left alone. -/
  still : ∀ id : Nat, id < base.outline.scopes.size →
    whole.outline.scopes[id]?.bind Scope.dimension? =
      base.outline.scopes[id]?.bind Scope.dimension?
  payload : move.scope root = root
  images : ∀ (id : Nat) scope, alone.outline.scopes[id]? = some scope →
    ∃ image, whole.outline.scopes[move.scope id]? = some image ∧ move.Image scope image
  beyond : ∀ id : Nat, alone.outline.scopeIs Scope.isArray id = true →
    base.outline.scopes.size ≤ move.scope id
  onto : ∀ image : Nat, base.outline.scopes.size ≤ image →
    image < whole.outline.scopes.size →
    ∃ id : Nat, id < alone.outline.scopes.size ∧ move.scope id = image
  rising : ∀ left right : Nat, left < right → right < alone.outline.scopes.size →
    base.outline.scopes.size ≤ move.scope right → move.scope left < move.scope right
  slots : whole.outline.slots = base.outline.slots ++ alone.outline.slots.map move.slotAt
  occurrences : whole.outline.occurrences =
    base.outline.occurrences ++ alone.outline.occurrences.map move.occurrence

/-- Scopes move to those with the same address. -/
def Places (move : Relocation) (alone whole : Outline) : Prop :=
  ∀ id image : Nat, id < alone.scopes.size → image < whole.scopes.size →
    whole.address image = alone.address id → move.scope id = image

theorem Places.of_keeps {move : Relocation} {alone whole laterAlone laterWhole : Outline}
    (places : Places move laterAlone laterWhole) (keeps : Keeps alone laterAlone)
    (keepsWhole : Keeps whole laterWhole) (rooted : Rooted alone) (laterRooted : Rooted laterAlone)
    (rootedWhole : Rooted whole) (laterRootedWhole : Rooted laterWhole) :
    Places move alone whole :=
  ToAddress.of_keeps places keeps keepsWhole rooted laterRooted rootedWhole laterRootedWhole

variable {move : Relocation} {base alone whole : Growth}

/-! ## Scopes and their images -/

theorem Beside.image_lt (beside : Beside move base alone whole) {id : Nat}
    (bound : id < alone.outline.scopes.size) : move.scope id < whole.outline.scopes.size := by
  rcases beside.images id _ (Array.getElem?_eq_getElem bound) with ⟨image, found, -⟩
  exact lt_size_of_getElem? found

theorem Beside.carried (beside : Beside move base alone whole) :
    Images move.scope alone.outline whole.outline where
  payload := beside.payload
  scopes id scope found := by
    rcases beside.images id scope found with ⟨image, foundImage, same⟩
    exact ⟨image, foundImage, same.parent, same.access, same.isArray⟩

/-- A scope and its image have the same address. -/
theorem Beside.address (beside : Beside move base alone whole) {id : Nat}
    (bound : id < alone.outline.scopes.size) :
    whole.outline.address (move.scope id) = alone.outline.address id :=
  beside.carried.address beside.keyed.rooted beside.keyedWhole.rooted bound

/-- Different scopes have different images. -/
theorem Beside.injective (beside : Beside move base alone whole) {left right : Nat}
    (bound : left < alone.outline.scopes.size) (otherBound : right < alone.outline.scopes.size)
    (same : move.scope left = move.scope right) : left = right :=
  beside.carried.injective beside.keyed beside.keyedWhole bound otherBound same

/-- A key that is known alone leads to the image of its scope. -/
theorem Beside.find?_eq_some (beside : Beside move base alone whole) {key : String} {id : Nat}
    (known : alone.find? key = some id) : whole.find? key = some (move.scope id) :=
  beside.carried.find?_eq_some beside.keyed beside.keyedWhole known

/-- A key that is unknown alone leads nowhere or to a scope of the base. -/
theorem Beside.lt_of_find? (beside : Beside move base alone whole) {key : String} {image : Nat}
    (unknown : alone.find? key = none) (known : whole.find? key = some image) :
    image < base.outline.scopes.size := by
  by_contra beyond
  rcases beside.onto image (Nat.le_of_not_lt beyond)
    (beside.keyedWhole.keyOf key image known).2.1 with ⟨id, bound, moved⟩
  exact beside.carried.ne_of_find? beside.keyed beside.keyedWhole unknown known bound moved

/-! ## Changing a dimension, adding a scope -/

theorem Beside.dimension? (beside : Beside move base alone whole) {id : Nat}
    (bound : id < alone.outline.scopes.size) :
    whole.outline.scopes[move.scope id]?.bind Scope.dimension? =
      (alone.outline.scopes[id]?.bind Scope.dimension?).map move.dimension := by
  have found := Array.getElem?_eq_getElem bound
  rcases beside.images id _ found with ⟨image, foundImage, same⟩
  rw [found, foundImage, Option.bind_some, Option.bind_some, same.dimension]

/-- What lies in the base is no image of a dimension. -/
theorem Beside.no_dimension (beside : Beside move base alone whole) {id : Nat}
    (bound : id < alone.outline.scopes.size)
    (old : move.scope id < base.outline.scopes.size) :
    whole.outline.scopes[move.scope id]?.bind Scope.dimension? = none := by
  rw [beside.dimension? bound]
  cases dimension : alone.outline.scopes[id]?.bind Scope.dimension? with
  | none => rfl
  | some found =>
    exfalso
    rcases Option.bind_eq_some_iff.mp dimension with ⟨scope, foundScope, kind⟩
    have array : alone.outline.scopeIs Scope.isArray id = true :=
      scopeIs_eq_true.mpr ⟨scope, foundScope, by rw [Scope.isArray, kind]; rfl⟩
    exact Nat.not_lt_of_le (beside.beyond id array) old

/-- Both growths change, but not in their frames. -/
theorem Beside.of_sameFrames (beside : Beside move base alone whole) {laterAlone laterWhole : Growth}
    (same : SameFrames alone.outline laterAlone.outline) (keys : laterAlone.keys = alone.keys)
    (sameWhole : SameFrames whole.outline laterWhole.outline)
    (keysWhole : laterWhole.keys = whole.keys)
    (still : ∀ id : Nat, id < base.outline.scopes.size →
      laterWhole.outline.scopes[id]?.bind Scope.dimension? =
        whole.outline.scopes[id]?.bind Scope.dimension?)
    (dimensions : ∀ id : Nat, id < alone.outline.scopes.size →
      laterWhole.outline.scopes[move.scope id]?.bind Scope.dimension? =
        (laterAlone.outline.scopes[id]?.bind Scope.dimension?).map move.dimension)
    (slots : laterWhole.outline.slots =
      base.outline.slots ++ laterAlone.outline.slots.map move.slotAt)
    (occurrences : laterWhole.outline.occurrences =
      base.outline.occurrences ++ laterAlone.outline.occurrences.map move.occurrence) :
    Beside move base laterAlone laterWhole := by
  refine
    { keyed := beside.keyed.of_sameFrames same keys
      keyedWhole := beside.keyedWhole.of_sameFrames sameWhole keysWhole
      kept := beside.kept.trans sameWhole.keeps
      still := fun id old => (still id old).trans (beside.still id old)
      payload := beside.payload
      images := ?_
      beyond := ?_
      onto := ?_
      rising := ?_
      slots := slots
      occurrences := occurrences }
  · intro id scope found
    rcases same.symm.keeps id scope found with ⟨old, foundOld, frames⟩
    rcases beside.images id old foundOld with ⟨image, foundImage, sameImage⟩
    rcases sameWhole.keeps _ image foundImage with ⟨later, foundLater, laterFrames⟩
    have dimension := dimensions id (lt_size_of_getElem? foundOld)
    rw [found, foundLater] at dimension
    exact ⟨later, foundLater, sameImage.of_frame frames.symm laterFrames dimension⟩
  · intro id array
    rw [same.scopeIs_isArray] at array
    exact beside.beyond id array
  · intro image beyond bound
    rw [sameWhole.size] at bound
    rw [same.size]
    exact beside.onto image beyond bound
  · intro left right less bound beyond
    rw [same.size] at bound
    exact beside.rising left right less bound beyond

theorem Beside.modifyDimension (beside : Beside move base alone whole) {id : Nat}
    (bound : id < alone.outline.scopes.size) {change changeWhole : Dimension → Dimension}
    (alike : ∀ dimension, changeWhole (move.dimension dimension) =
      move.dimension (change dimension)) :
    Beside move base (alone.modifyDimension id change)
      (whole.modifyDimension (move.scope id) changeWhole) := by
  apply beside.of_sameFrames (sameFrames_modifyDimension alone id change) rfl
    (sameFrames_modifyDimension whole (move.scope id) changeWhole) rfl _ _ beside.slots
    beside.occurrences
  · intro other old
    rw [dimension?_modifyDimension]
    split
    · next equal =>
      subst equal
      rw [beside.no_dimension bound old]
      rfl
    · rfl
  · intro other otherBound
    rw [dimension?_modifyDimension, dimension?_modifyDimension, beside.dimension? otherBound]
    by_cases equal : other = id
    · subst equal
      rw [if_pos rfl, if_pos rfl, Option.map_map, Option.map_map]
      exact congrArg (fun f => Option.map f _) (funext alike)
    · have apart : move.scope other ≠ move.scope id := fun images =>
        equal (beside.injective otherBound bound images)
      rw [if_neg equal, if_neg apart]

/-- Both growths make a scope. -/
theorem Beside.made (beside : Beside move base alone whole) {key keyWhole : String}
    {scope image : Scope} {arrayKey arrayKeyWhole : Option String}
    (keyed : Keyed (alone.addScope key scope arrayKey))
    (keyedWhole : Keyed (whole.addScope keyWhole image arrayKeyWhole))
    (placed : move.scope alone.outline.scopes.size = whole.outline.scopes.size)
    (same : move.Image scope image) :
    Beside move base (alone.addScope key scope arrayKey)
      (whole.addScope keyWhole image arrayKeyWhole) := by
  refine
    { keyed := keyed
      keyedWhole := keyedWhole
      kept := beside.kept.trans (keeps_addScope whole _ _ _)
      still := ?_
      payload := beside.payload
      images := ?_
      beyond := ?_
      onto := ?_
      rising := ?_
      slots := beside.slots
      occurrences := beside.occurrences }
  · intro id old
    rw [getElem?_addScope_old (old.trans_le beside.kept.size_le)]
    exact beside.still id old
  · intro id other found
    rcases old_or_new found with old | ⟨rfl, rfl⟩
    · rcases beside.images id other old with ⟨otherImage, foundImage, sameImage⟩
      refine ⟨otherImage, ?_, sameImage⟩
      rw [getElem?_addScope_old (lt_size_of_getElem? foundImage)]
      exact foundImage
    · exact ⟨image, by rw [placed, getElem?_addScope_new], same⟩
  · intro id array
    rcases scopeIs_eq_true.mp array with ⟨other, found, kind⟩
    rcases old_or_new found with old | ⟨rfl, rfl⟩
    · exact beside.beyond id ((scopeIs_eq old).trans kind)
    · rw [placed]
      exact beside.kept.size_le
  · intro other beyond bound
    rw [size_addScope] at bound
    rcases Nat.lt_succ_iff_lt_or_eq.mp bound with old | rfl
    · rcases beside.onto other beyond old with ⟨id, idBound, moved⟩
      exact ⟨id, by rw [size_addScope]; exact Nat.lt_succ_of_lt idBound, moved⟩
    · exact ⟨alone.outline.scopes.size, by rw [size_addScope]; exact Nat.lt_succ_self _, placed⟩
  · intro left right less bound beyond
    rw [size_addScope] at bound
    rcases Nat.lt_succ_iff_lt_or_eq.mp bound with old | rfl
    · exact beside.rising left right less old beyond
    · rw [placed]
      exact beside.image_lt less

/-- A scope is made alone where the base has it already. -/
theorem Beside.shared (beside : Beside move base alone whole) {key : String}
    {scope image : Scope} {arrayKey : Option String}
    (keyed : Keyed (alone.addScope key scope arrayKey))
    (old : move.scope alone.outline.scopes.size < base.outline.scopes.size)
    (found : whole.outline.scopes[move.scope alone.outline.scopes.size]? = some image)
    (same : move.Image scope image) (object : scope.isArray = false) :
    Beside move base (alone.addScope key scope arrayKey) whole := by
  refine
    { keyed := keyed
      keyedWhole := beside.keyedWhole
      kept := beside.kept
      still := beside.still
      payload := beside.payload
      images := ?_
      beyond := ?_
      onto := ?_
      rising := ?_
      slots := beside.slots
      occurrences := beside.occurrences }
  · intro id other foundOther
    rcases old_or_new foundOther with old | ⟨rfl, rfl⟩
    · exact beside.images id other old
    · exact ⟨image, found, same⟩
  · intro id array
    rcases scopeIs_eq_true.mp array with ⟨other, foundOther, kind⟩
    rcases old_or_new foundOther with old | ⟨rfl, rfl⟩
    · exact beside.beyond id ((scopeIs_eq old).trans kind)
    · rw [object] at kind
      cases kind
  · intro other beyond bound
    rcases beside.onto other beyond bound with ⟨id, idBound, moved⟩
    exact ⟨id, by rw [size_addScope]; exact Nat.lt_succ_of_lt idBound, moved⟩
  · intro left right less bound beyond
    rw [size_addScope] at bound
    rcases Nat.lt_succ_iff_lt_or_eq.mp bound with early | rfl
    · exact beside.rising left right less early beyond
    · exact absurd old (Nat.not_lt_of_le beyond)

end Stencil.Outline
