import Stencil.Proofs.Marker.Steps
import Stencil.Proofs.Outline.Carried
import Stencil.Proofs.Outline.Coherent

namespace Stencil.Outline

open Marker (Step Footprint keyText Readable)

/-!
# Scopes and the steps that lead to them

The address of a scope is read off the outline: the footprints of the scope and of
those around it.  In an outline made of markers with plain conditions the key of a
scope is the text of its address, so no two scopes share an address, and a walk
stands at the scope whose address are the footprints of the steps taken.
-/

variable {outline : Outline}

/-- The footprint of the steps that lead to a scope from the one around it. -/
def footprintOf (scope : Scope) : Footprint :=
  match scope.access with
  | .field name => ⟨some name, if scope.isArray then some "" else none⟩
  | .whole => ⟨none, some ""⟩
  | .search field conditions => ⟨field, some (Condition.listText conditions)⟩

/-- The footprints that lead from the payload to a scope. -/
def address (outline : Outline) (id : ScopeId) : List Footprint :=
  ((outline.ancestry id).drop 1).filterMap fun other => outline.scopes[other]?.map footprintOf

theorem address_root (rooted : Rooted outline) : outline.address root = [] := by
  simp [address, ancestry_root rooted]

/-- An ancestry begins with the payload. -/
theorem ancestry_ne_nil (rooted : Rooted outline) {id : Nat} (bound : id < outline.scopes.size) :
    outline.ancestry id ≠ [] :=
  List.ne_nil_of_mem (mem_ancestry_self rooted bound)

theorem address_inside (rooted : Rooted outline) {id parent : Nat} {scope : Scope}
    (found : outline.scopes[id]? = some scope) (link : scope.parent = some parent) :
    outline.address id = outline.address parent ++ [footprintOf scope] := by
  have outer := (rooted.parent_lt found link).trans (lt_size_of_getElem? found)
  have length := List.length_pos_iff.mpr (ancestry_ne_nil rooted outer)
  unfold address
  rw [ancestry_inside rooted found link, List.drop_append_of_le_length length,
    List.filterMap_append]
  simp [found]

theorem footprintOf_eq_of_frame {scope later : Scope} (same : frame later = frame scope) :
    footprintOf later = footprintOf scope := by
  have access : later.access = scope.access := congrArg Frame.access same
  have kind : later.isArray = scope.isArray := congrArg Frame.repeated same
  unfold footprintOf
  rw [access, kind]

/-- The address of an old scope is what it was. -/
theorem Keeps.address {before after : Outline} (keeps : Keeps before after)
    (rooted : Rooted before) (later : Rooted after) {id : Nat}
    (bound : id < before.scopes.size) : after.address id = before.address id := by
  unfold Outline.address
  rw [keeps.ancestry rooted later bound]
  refine List.filterMap_congr fun other member => ?_
  have outer := le_of_mem_ancestry rooted bound (List.mem_of_mem_drop member)
  have found := Array.getElem?_eq_getElem (Nat.lt_of_le_of_lt outer bound)
  obtain ⟨new, foundNew, same⟩ := keeps other _ found
  rw [found, foundNew, Option.map_some, Option.map_some, footprintOf_eq_of_frame same]

/-- A scope made by a step leaves the footprint of the step. -/
theorem footprintOf_scopeMade (growth : Growth) (progress : Progress) {step : Step}
    (goes : terminates step = false) :
    footprintOf (scopeMade growth progress step) = step.footprint := by
  match step, goes with
  | .object name, _ => rfl
  | .group name follows (.search conditions), _ => rfl
  | .group name follows (.loop iterator conditions), _ => cases follows <;> rfl

/-! ## Growths with addresses as keys -/

/-- The keys of a growth are the texts of the addresses of its scopes, the conditions
of its searches are legible, and only dimensions are reached without a name. -/
structure Keyed (growth : Growth) : Prop where
  rooted : Rooted growth.outline
  keyOf : ∀ key (id : Nat), growth.find? key = some id → id ≠ root ∧
    id < growth.outline.scopes.size ∧ key.toList = keyText (growth.outline.address id)
  found : ∀ (id : Nat), id < growth.outline.scopes.size → id ≠ root →
    ∃ key, growth.find? key = some id
  readable : ∀ (id : Nat), id < growth.outline.scopes.size →
    Readable (growth.outline.address id)
  searches : ∀ (id : Nat) scope, growth.outline.scopes[id]? = some scope →
    ∀ field conditions, scope.access = .search field conditions →
      conditions ≠ [] ∧ Condition.Legible conditions
  arrays : ∀ (id : Nat) scope, growth.outline.scopes[id]? = some scope → id ≠ root →
    scope.access = .whole → scope.isArray = true

/-- Two scopes with one address are one scope. -/
theorem Keyed.address_injective {growth : Growth} (keyed : Keyed growth) {id other : Nat}
    (bound : id < growth.outline.scopes.size) (otherBound : other < growth.outline.scopes.size)
    (same : growth.outline.address id = growth.outline.address other) : id = other := by
  have alone : ∀ {id : Nat}, id < growth.outline.scopes.size →
      growth.outline.address id = [] → id = root := by
    intro id bound empty
    by_contra elsewhere
    have found := Array.getElem?_eq_getElem bound
    obtain ⟨parent, link, -⟩ := keyed.rooted.inside id _ found elsewhere
    rw [address_inside keyed.rooted found link] at empty
    simp at empty
  by_cases atRoot : id = root
  · rw [atRoot, address_root keyed.rooted] at same
    rw [atRoot, alone otherBound same.symm]
  · by_cases otherAtRoot : other = root
    · rw [otherAtRoot, address_root keyed.rooted] at same
      exact absurd (alone bound same) atRoot
    · obtain ⟨key, found⟩ := keyed.found id bound atRoot
      obtain ⟨otherKey, otherFound⟩ := keyed.found other otherBound otherAtRoot
      have texts : key = otherKey := by
        rw [← String.toList_inj, (keyed.keyOf key id found).2.2,
          (keyed.keyOf otherKey other otherFound).2.2, same]
      rw [texts, otherFound] at found
      exact (Option.some.inj found).symm

/-! ### Growths with images -/

theorem CarriedTo.footprintOf {move : ScopeId → ScopeId} {scope image : Scope}
    (same : CarriedTo move scope image) : footprintOf image = Outline.footprintOf scope := by
  unfold Outline.footprintOf
  rw [same.access, same.repeated]

/-- A scope and its image have the same address. -/
theorem Images.address {move : ScopeId → ScopeId} {part whole : Outline}
    (images : Images move part whole) (rooted : Rooted part) (wholeRooted : Rooted whole)
    {id : Nat} (bound : id < part.scopes.size) : whole.address (move id) = part.address id := by
  refine rooted.induction (motive := fun id => whole.address (move id) = part.address id)
    ?_ ?_ id bound
  · rw [images.payload, address_root rooted, address_root wholeRooted]
  · intro id scope parent found link _ ih
    rcases images.scopes id scope found with ⟨image, foundImage, same⟩
    have imageLink : image.parent = some (move parent) := by
      rw [same.parent, link]
      rfl
    rw [address_inside rooted found link, address_inside wholeRooted foundImage imageLink, ih,
      same.footprintOf]

section

variable {move : ScopeId → ScopeId} {part whole : Growth}
  (images : Images move part.outline whole.outline) (keyed : Keyed part)
  (keyedWhole : Keyed whole)

include images keyed keyedWhole

/-- Different scopes have different images. -/
theorem Images.injective {left right : Nat} (bound : left < part.outline.scopes.size)
    (otherBound : right < part.outline.scopes.size) (same : move left = move right) :
    left = right := by
  apply keyed.address_injective bound otherBound
  rw [← images.address keyed.rooted keyedWhole.rooted bound,
    ← images.address keyed.rooted keyedWhole.rooted otherBound, same]

/-- A key that is known in the part leads to the image of its scope. -/
theorem Images.find?_eq_some {key : String} {id : Nat} (known : part.find? key = some id) :
    whole.find? key = some (move id) := by
  rcases keyed.keyOf key id known with ⟨elsewhere, bound, text⟩
  have imageElsewhere : move id ≠ root := by
    intro atRoot
    rw [← images.payload] at atRoot
    exact elsewhere (images.injective keyed keyedWhole bound (size_pos keyed.rooted) atRoot)
  rcases keyedWhole.found _ (images.lt_size bound) imageElsewhere with ⟨other, found⟩
  have otherText := (keyedWhole.keyOf other _ found).2.2
  rw [images.address keyed.rooted keyedWhole.rooted bound, ← text] at otherText
  rw [← String.toList_inj.mp otherText]
  exact found

/-- A key that is unknown in the part leads to no image. -/
theorem Images.ne_of_find? {key : String} {image : Nat} (unknown : part.find? key = none)
    (known : whole.find? key = some image) {id : Nat} (bound : id < part.outline.scopes.size) :
    move id ≠ image := by
  rintro rfl
  rcases keyedWhole.keyOf key _ known with ⟨elsewhere, -, text⟩
  have notRoot : id ≠ root := by
    intro atRoot
    rw [atRoot, images.payload] at elsewhere
    exact elsewhere rfl
  rcases keyed.found id bound notRoot with ⟨other, found⟩
  have otherText := (keyed.keyOf other id found).2.2
  rw [← images.address keyed.rooted keyedWhole.rooted bound, ← text] at otherText
  rw [String.toList_inj.mp otherText, unknown] at found
  cases found

end

/-- Scopes go to those with the same address. -/
def ToAddress (move : ScopeId → ScopeId) (part whole : Outline) : Prop :=
  ∀ id image : Nat, id < part.scopes.size → image < whole.scopes.size →
    whole.address image = part.address id → move id = image

theorem ToAddress.of_keeps {move : ScopeId → ScopeId} {part whole laterPart laterWhole : Outline}
    (places : ToAddress move laterPart laterWhole) (keeps : Keeps part laterPart)
    (keepsWhole : Keeps whole laterWhole) (rooted : Rooted part) (laterRooted : Rooted laterPart)
    (rootedWhole : Rooted whole) (laterRootedWhole : Rooted laterWhole) :
    ToAddress move part whole := by
  intro id image bound imageBound same
  apply places id image (bound.trans_le keeps.size_le) (imageBound.trans_le keepsWhole.size_le)
  rw [keeps.address rooted laterRooted bound,
    keepsWhole.address rootedWhole laterRootedWhole imageBound, same]

/-! ### Growths that change -/

/-- Changing no frame and no key leaves the keys right. -/
theorem Keyed.of_sameFrames {before after : Growth} (keyed : Keyed before)
    (same : SameFrames before.outline after.outline) (keys : after.keys = before.keys) :
    Keyed after := by
  have rooted := same.rooted keyed.rooted
  have find : ∀ key, after.find? key = before.find? key := by
    intro key
    unfold Growth.find?
    rw [keys]
  have addresses : ∀ id : Nat, id < before.outline.scopes.size →
      after.outline.address id = before.outline.address id :=
    fun id bound => same.keeps.address keyed.rooted rooted bound
  constructor
  · exact rooted
  · intro key id known
    rw [find] at known
    obtain ⟨elsewhere, bound, text⟩ := keyed.keyOf key id known
    exact ⟨elsewhere, by rw [same.size]; exact bound, by rw [addresses id bound]; exact text⟩
  · intro id bound elsewhere
    rw [same.size] at bound
    obtain ⟨key, known⟩ := keyed.found id bound elsewhere
    exact ⟨key, by rw [find]; exact known⟩
  · intro id bound
    rw [same.size] at bound
    rw [addresses id bound]
    exact keyed.readable id bound
  · intro id scope found field conditions access
    obtain ⟨old, foundOld, sameFrame⟩ := same.symm.keeps id scope found
    exact keyed.searches id old foundOld field conditions
      ((congrArg Frame.access sameFrame).trans access)
  · intro id scope found elsewhere access
    obtain ⟨old, foundOld, sameFrame⟩ := same.symm.keeps id scope found
    exact (congrArg Frame.repeated sameFrame).symm.trans
      (keyed.arrays id old foundOld elsewhere ((congrArg Frame.access sameFrame).trans access))

/-- A scope added under the text of its address leaves the keys right. -/
theorem Keyed.addScope {growth : Growth} (keyed : Keyed growth) {key : String} {scope : Scope}
    {parent : Nat} (link : scope.parent = some parent)
    (inside : parent < growth.outline.scopes.size)
    (depth : scope.depth = growth.outline.depthOf parent + if scope.isArray then 1 else 0)
    (unknown : growth.find? key = none)
    (text : key.toList = keyText (growth.outline.address parent ++ [footprintOf scope]))
    (readable : Readable (growth.outline.address parent ++ [footprintOf scope]))
    (legible : ∀ field conditions, scope.access = .search field conditions →
      conditions ≠ [] ∧ Condition.Legible conditions)
    (repeated : scope.access = .whole → scope.isArray = true) (arrayKey : Option String) :
    let made := growth.addScope key scope arrayKey
    Keyed made ∧ made.outline.address growth.outline.scopes.size =
      growth.outline.address parent ++ [footprintOf scope] := by
  intro made
  have rooted : Rooted made.outline := rooted_addScope keyed.rooted link inside depth
  have addresses : ∀ id : Nat, id < growth.outline.scopes.size →
      made.outline.address id = growth.outline.address id := fun id bound =>
    (keeps_addScope growth key scope arrayKey).address keyed.rooted rooted bound
  have new : made.outline.address growth.outline.scopes.size =
      growth.outline.address parent ++ [footprintOf scope] := by
    rw [address_inside rooted (getElem?_addScope_new growth key scope arrayKey) link,
      addresses parent inside]
  have size : made.outline.scopes.size = growth.outline.scopes.size + 1 := size_addScope ..
  refine ⟨⟨rooted, ?_, ?_, ?_, ?_, ?_⟩, new⟩
  · intro other id known
    rw [find?_addScope] at known
    split at known
    · next same =>
      cases known
      exact ⟨Nat.ne_of_gt (size_pos keyed.rooted), by omega, by rw [same, text, new]⟩
    · obtain ⟨elsewhere, bound, old⟩ := keyed.keyOf other id known
      exact ⟨elsewhere, by omega, by rw [addresses id bound, old]⟩
  · intro id bound elsewhere
    rcases Nat.lt_succ_iff_lt_or_eq.mp (size ▸ bound) with old | rfl
    · obtain ⟨other, known⟩ := keyed.found id old elsewhere
      have differs : other ≠ key := by
        rintro rfl
        rw [unknown] at known
        cases known
      exact ⟨other, by rw [find?_addScope, if_neg differs, known]⟩
    · exact ⟨key, by rw [find?_addScope, if_pos rfl]⟩
  · intro id bound
    rcases Nat.lt_succ_iff_lt_or_eq.mp (size ▸ bound) with old | rfl
    · rw [addresses id old]
      exact keyed.readable id old
    · rw [new]
      exact readable
  · intro id other found
    rcases old_or_new found with old | ⟨-, rfl⟩
    · exact keyed.searches id other old
    · exact legible
  · intro id other found elsewhere
    rcases old_or_new found with old | ⟨-, rfl⟩
    · exact keyed.arrays id other old elsewhere
    · exact repeated

theorem keyed_start : Keyed Growth.start := by
  have rooted := sound_start.coherent.rooted
  constructor
  · exact rooted
  · intro key id known
    simp [Growth.find?, Growth.start] at known
  · intro id bound elsewhere
    exact absurd (Nat.lt_one_iff.mp bound) elsewhere
  · intro id bound
    rw [Nat.lt_one_iff.mp bound]
    show Readable (Growth.start.outline.address root)
    rw [address_root rooted]
    exact ⟨fun _ impossible => absurd impossible List.not_mem_nil, .nil⟩
  · intro id scope found field conditions access
    rw [(eq_rootScope_of_start found).2] at access
    cases access
  · intro id scope found elsewhere
    exact absurd (eq_rootScope_of_start found).1 elsewhere

/-! ## Walks -/

/-- The footprints of some steps. -/
def trail (steps : List Step) : List Footprint := steps.map Step.footprint

/-- A walk through a growth with right keys that is lost or stands at the scope
whose address are the footprints of the steps taken. -/
structure AtTrail (walk : Walk) (taken : List Step) : Prop where
  keyed : Keyed walk.1
  bound : walk.2.scope < walk.1.outline.scopes.size
  key : walk.2.lost = false → walk.2.key.toList = keyText (trail taken)
  address : walk.2.lost = false → walk.1.outline.address walk.2.scope = trail taken

theorem toList_keyAt {progress : Progress} {step : Step} {taken : List Step}
    (key : progress.key.toList = keyText (trail taken)) :
    (progress.keyAt step).toList = keyText (trail (taken ++ [step])) := by
  unfold Progress.keyAt
  rw [String.toList_append, String.toList_append, List.append_assoc, Step.toList_key, key]
  simp [keyText, trail]

variable {growth : Growth} {progress : Progress} {taken : List Step} {step : Step} {after : Walk}

/-- The scope found under the key of a step has the trail behind the step as its
address. -/
theorem address_of_find? (walked : AtTrail (growth, progress) taken)
    (readable : Readable (trail (taken ++ [step]))) (onTrack : progress.lost = false) {id : Nat}
    (known : growth.find? (progress.keyAt step) = some id) :
    growth.outline.address id = trail (taken ++ [step]) := by
  obtain ⟨-, bound, text⟩ := walked.keyed.keyOf _ id known
  rw [toList_keyAt (walked.key onTrack)] at text
  exact (Marker.keyText_injective readable (walked.keyed.readable id bound) text).symm

/-- The conditions of a search that is made are those written in the step. -/
theorem legible_scopeMade (written : step.Written) (plain : step.Plain)
    (goes : terminates step = false) {field : Option String} {conditions : List Condition}
    (access : (scopeMade growth progress step).access = .search field conditions) :
    conditions ≠ [] ∧ Condition.Legible conditions := by
  match step, goes, access with
  | .object _, _, access => cases access
  | .group name follows (.loop iterator _), _, access => cases follows <;> cases access
  | .group name follows (.search searched), _, access =>
    cases access
    obtain ⟨nonempty, each⟩ := written.searches name follows _ rfl
    exact ⟨nonempty, each, plain name follows _ rfl⟩

/-- Of the scopes that are made only a dimension is reached without a name. -/
theorem isArray_of_whole_scopeMade (goes : terminates step = false)
    (access : (scopeMade growth progress step).access = .whole) :
    (scopeMade growth progress step).isArray = true := by
  rw [isArray_scopeMade growth progress goes]
  match step, goes, access with
  | .object _, _, access => cases access
  | .group _ _ (.loop _ _), _, _ => rfl
  | .group _ _ (.search _), _, access => cases access

/-- Making a scope gives it the key of its address. -/
theorem keyed_made (walked : AtTrail (growth, progress) taken)
    (readable : Readable (trail (taken ++ [step]))) (written : step.Written) (plain : step.Plain)
    (onTrack : progress.lost = false) (goes : terminates step = false)
    (unknown : growth.find? (progress.keyAt step) = none) (arrayKey : Option String) :
    let made := growth.addScope (progress.keyAt step) (scopeMade growth progress step) arrayKey
    Keyed made ∧ made.outline.address growth.outline.scopes.size = trail (taken ++ [step]) := by
  have text : (progress.keyAt step).toList = keyText (trail (taken ++ [step])) :=
    toList_keyAt (walked.key onTrack)
  have behind : trail (taken ++ [step]) =
      growth.outline.address progress.scope ++ [footprintOf (scopeMade growth progress step)] := by
    rw [footprintOf_scopeMade growth progress goes, walked.address onTrack]
    simp [trail]
  rw [behind] at readable text ⊢
  refine walked.keyed.addScope rfl walked.bound ?_ unknown text readable
    (fun _ _ => legible_scopeMade written plain goes) (isArray_of_whole_scopeMade goes) arrayKey
  rw [isArray_scopeMade growth progress goes]
  rfl

/-- Where two walks at one trail both make a scope, the new scope of the one goes to the new
scope of the other. -/
theorem ToAddress.new_of_made {move : ScopeId → ScopeId} {whole : Growth} {image : Progress}
    (walked : AtTrail (growth, progress) taken) (walkedWhole : AtTrail (whole, image) taken)
    (readable : Readable (trail (taken ++ [step]))) (written : step.Written) (plain : step.Plain)
    (onTrack : progress.lost = false) (onTrackWhole : image.lost = false)
    (goes : terminates step = false) (unknown : growth.find? (progress.keyAt step) = none)
    (unknownWhole : whole.find? (image.keyAt step) = none) {arrayKey arrayKeyWhole : Option String}
    (places : ToAddress move
      (growth.addScope (progress.keyAt step) (scopeMade growth progress step) arrayKey).outline
      (whole.addScope (image.keyAt step) (scopeMade whole image step) arrayKeyWhole).outline) :
    move growth.outline.scopes.size = whole.outline.scopes.size := by
  apply places
  · rw [size_addScope]
    exact Nat.lt_succ_self _
  · rw [size_addScope]
    exact Nat.lt_succ_self _
  · rw [(keyed_made walked readable written plain onTrack goes unknown arrayKey).2,
      (keyed_made walkedWhole readable written plain onTrackWhole goes unknownWhole
        arrayKeyWhole).2]

/-- Where the one walk makes a scope and the other finds one, the new scope goes to the one
that is found. -/
theorem ToAddress.new_of_known {move : ScopeId → ScopeId} {whole : Growth} {image : Progress}
    (walked : AtTrail (growth, progress) taken) (walkedWhole : AtTrail (whole, image) taken)
    (readable : Readable (trail (taken ++ [step]))) (written : step.Written) (plain : step.Plain)
    (onTrack : progress.lost = false) (onTrackWhole : image.lost = false)
    (goes : terminates step = false) (unknown : growth.find? (progress.keyAt step) = none)
    {id : Nat} (known : whole.find? (image.keyAt step) = some id) {arrayKey : Option String}
    {outline : Outline} (same : SameFrames whole.outline outline)
    (places : ToAddress move
      (growth.addScope (progress.keyAt step) (scopeMade growth progress step) arrayKey).outline
      outline) :
    move growth.outline.scopes.size = id := by
  have bound := (walkedWhole.keyed.keyOf _ id known).2.1
  have rooted := walkedWhole.keyed.rooted
  apply places
  · rw [size_addScope]
    exact Nat.lt_succ_self _
  · rw [same.size]
    exact bound
  · rw [(keyed_made walked readable written plain onTrack goes unknown arrayKey).2,
      same.keeps.address rooted (same.rooted rooted) bound,
      address_of_find? walkedWhole readable onTrackWhole known]

/-- A step keeps a walk at its trail. -/
theorem AtTrail.onward (walked : AtTrail (growth, progress) taken)
    (readable : Readable (trail (taken ++ [step]))) (written : step.Written) (plain : step.Plain)
    (taking : Taken growth progress step after) : AtTrail after (taken ++ [step]) := by
  have entered : ∀ {growth' : Growth} {id : Nat}, growth.find? (progress.keyAt step) = some id →
      progress.lost = false → SameFrames growth.outline growth'.outline →
      id < growth'.outline.scopes.size ∧
        growth'.outline.address id = trail (taken ++ [step]) := by
    intro growth' id known onTrack same
    obtain ⟨-, bound, -⟩ := walked.keyed.keyOf _ id known
    refine ⟨by rw [same.size]; exact bound, ?_⟩
    rw [same.keeps.address walked.keyed.rooted (same.rooted walked.keyed.rooted) bound]
    exact address_of_find? walked readable onTrack known
  cases taking with
  | astray lost =>
    refine ⟨walked.keyed, walked.bound, fun onTrack => ?_, fun onTrack => ?_⟩
    · rw [lost] at onTrack
      cases onTrack
    · rw [lost] at onTrack
      cases onTrack
  | missing =>
    exact ⟨walked.keyed, walked.bound, fun impossible => (by cases impossible),
      fun impossible => (by cases impossible)⟩
  | found id onTrack known =>
    obtain ⟨bound, address⟩ := entered known onTrack rfl
    exact ⟨walked.keyed, bound, fun _ => toList_keyAt (walked.key onTrack), fun _ => address⟩
  | narrowed id name follows iterator conditions onTrack known =>
    have same := sameFrames_modifyDimension growth id fun dimension =>
      { dimension with conditions := addConditions dimension.conditions conditions }
    obtain ⟨bound, address⟩ := entered known onTrack same
    exact ⟨walked.keyed.of_sameFrames same rfl, bound, fun _ => toList_keyAt (walked.key onTrack),
      fun _ => address⟩
  | made arrayKey onTrack unknown opening goes =>
    obtain ⟨keyed, address⟩ :=
      keyed_made walked readable written plain onTrack goes unknown arrayKey
    exact ⟨keyed, by simp [Growth.addScope, Progress.enter],
      fun _ => toList_keyAt (walked.key onTrack), fun _ => address⟩
  | ended id name follows iterator onTrack known =>
    have same := sameFrames_modifyDimension growth id (Dimension.terminate progress.place)
    obtain ⟨bound, address⟩ := entered known onTrack same
    exact ⟨walked.keyed.of_sameFrames same rfl, bound, fun _ => toList_keyAt (walked.key onTrack),
      fun _ => address⟩

/-- What one of the steps of a marker needs, all of them have. -/
structure Walkable (steps : List Step) : Prop where
  readable : Readable (trail steps)
  written : ∀ step ∈ steps, step.Written
  plain : ∀ step ∈ steps, step.Plain

theorem Walkable.left {front back : List Step} (walkable : Walkable (front ++ back)) :
    Walkable front := by
  obtain ⟨⟨each, ordered⟩, written, plain⟩ := walkable
  unfold trail at each ordered
  rw [List.map_append] at each ordered
  exact ⟨⟨fun footprint member => each footprint (List.mem_append_left _ member),
      (List.isChain_append.mp ordered).1⟩,
    fun step member => written step (List.mem_append_left _ member),
    fun step member => plain step (List.mem_append_left _ member)⟩

/-- The step that is taken next, and the rest of the path. -/
theorem Walkable.next {step : Step} {steps : List Step} (walkable : Walkable (taken ++ step :: steps)) :
    Readable (trail (taken ++ [step])) ∧ step.Written ∧ step.Plain ∧
      Walkable (taken ++ [step] ++ steps) := by
  have split : taken ++ step :: steps = taken ++ [step] ++ steps := by simp
  rw [split] at walkable
  have member : step ∈ taken ++ [step] := List.mem_append_right _ (.head _)
  exact ⟨walkable.left.readable, walkable.left.written step member,
    walkable.left.plain step member, walkable⟩

theorem walkable_steps {path : Marker.Path} {cs : List Char}
    (read : Marker.readPath cs = .ok path) (plain : path.Plain) : Walkable path.steps.1 :=
  have segments := Marker.read_of_readPath read
  ⟨Marker.readable_steps segments plain, Marker.written_steps segments,
    Marker.plain_steps plain⟩

theorem atTrail_begin (keyed : Keyed growth) (marker : Marker) :
    AtTrail (growth, beginWalk growth marker) [] :=
  ⟨keyed, size_pos keyed.rooted, fun _ => rfl, fun _ => address_root keyed.rooted⟩

theorem AtTrail.run {walk after : Walk} {steps : List Step} (walked : AtTrail walk taken)
    (walkable : Walkable (taken ++ steps)) (run : steps.foldlM walkStep walk = .ok after) :
    AtTrail after (taken ++ steps) := by
  refine foldlM_induction_on_taken
    (motive := fun taken walk => Walkable taken → AtTrail walk taken) ?_ steps
    (fun _ => walked) run walkable
  intro taken step before after walked run walkable
  exact (walked walkable.left).onward walkable.readable
    (walkable.written step (by simp)) (walkable.plain step (by simp)) (taken_of_walkStep run)

/-! ## Markers -/

/-- Every path that is read has plain conditions. -/
def PlainMarkers (markers : List Marker) : Prop :=
  ∀ marker ∈ markers, ∀ path, Marker.readPath marker.path.toList = .ok path → path.Plain

instance (marker : Marker) :
    Decidable (∀ path, Marker.readPath marker.path.toList = .ok path → path.Plain) :=
  match Marker.readPath marker.path.toList with
  | .ok path => decidable_of_iff path.Plain
      ⟨fun plain _ read => Except.ok.inj read ▸ plain, fun plain => plain path rfl⟩
  | .error _ => isTrue fun _ impossible => nomatch impossible

instance (markers : List Marker) : Decidable (PlainMarkers markers) :=
  inferInstanceAs (Decidable (∀ marker ∈ markers, ∀ path,
    Marker.readPath marker.path.toList = .ok path → path.Plain))

theorem PlainMarkers.ordered {markers : List Marker} (plain : PlainMarkers markers) :
    PlainMarkers (inDocumentOrder markers) :=
  fun marker member => plain marker ((perm_orderBy _ _).mem_iff.mp member)

theorem readMarker_eq_ok {marker : Marker} {read : ReadMarker}
    (reading : readMarker marker = .ok read) :
    read.marker = marker ∧ Marker.readPath marker.path.toList = .ok read.path := by
  unfold readMarker at reading
  cases path : Marker.readPath marker.path.toList with
  | error fault =>
    simp only [path] at reading
    cases reading
  | ok path =>
    simp only [path] at reading
    split at reading
    · cases reading
      exact ⟨rfl, rfl⟩
    · split at reading
      · cases reading
      · cases reading
        exact ⟨rfl, rfl⟩

theorem keyed_grow {marker : Marker} {after : Growth} (keyed : Keyed growth)
    (plain : ∀ path, Marker.readPath marker.path.toList = .ok path → path.Plain)
    (grown : grow growth marker = .ok after) : Keyed after := by
  obtain ⟨read, walk, reading, run, rfl⟩ := grow_eq_ok.mp grown
  obtain ⟨-, path⟩ := readMarker_eq_ok reading
  have walked := (atTrail_begin keyed marker).run (walkable_steps path (plain _ path)) run
  exact walked.keyed.of_sameFrames (sameFrames_record walk read _) rfl

theorem keyed_growth {markers : List Marker} {before after : Growth} (keyed : Keyed before)
    (plain : PlainMarkers markers) (grown : markers.foldlM grow before = .ok after) :
    Keyed after :=
  foldlM_induction (fun _ marker _ member keyed grown =>
    keyed_grow keyed (plain marker member) grown) keyed grown

end Stencil.Outline
