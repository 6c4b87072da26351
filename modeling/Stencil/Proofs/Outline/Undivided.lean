import Stencil.Proofs.Outline.Styles

namespace Stencil.Outline

open Marker (Step)

/-!
# No attribute is used in two ways

Every scope was made by a step that some marker took from the scope around it, and every
key of an array comes from such a step too.  As long as no such key is that of an object,
two scopes do not use one attribute in two ways.  A step that is refused finds the key of
an attribute that an earlier marker used: what the marker itself has made so far lies
around the scope at which it stands, and has a shorter key.
-/

variable {growth : Growth} {progress : Progress} {step : Step} {after : Walk}
  {markers : List Marker} {name : String}

/-! ## Where scopes and keys come from -/

/-- A step of one of some markers made a scope. -/
structure MadeFrom (markers : List Marker) (growth : Growth) (id : ScopeId) (scope : Scope)
    (parent : ScopeId) (key : String) (step : Step) : Prop where
  link : scope.parent = some parent
  keyed : KeyOf growth parent key
  known : growth.find? (key ++ step.attributeKey ++ step.groupKey) = some id
  goes : terminates step = false
  kind : scope.isArray = repeats step
  access : scope.access = accessMade step
  marks : ∀ name, AsArray name step → attributeKey key name ∈ growth.arrayKeys
  uses : Uses markers parent step

/-- An attribute was marked as an array by a step of one of some markers. -/
def MarkedBy (markers : List Marker) (growth : Growth) (arrayKey : String) : Prop :=
  ∃ parent key name step, KeyOf growth parent key ∧ arrayKey = attributeKey key name ∧
    AsArray name step ∧ Uses markers parent step

/-- Scopes and keys of arrays come from steps of some markers, and no key of an array is
that of a scope. -/
structure Undivided (markers : List Marker) (growth : Growth) : Prop where
  keys : Unambiguous growth
  scopes : ∀ (id : Nat) scope, growth.outline.scopes[id]? = some scope → id ≠ root →
    ∃ parent key step, MadeFrom markers growth id scope parent key step
  marked : ∀ arrayKey ∈ growth.arrayKeys, MarkedBy markers growth arrayKey
  apart : ∀ arrayKey ∈ growth.arrayKeys, growth.find? arrayKey = none

theorem undivided_start : Undivided [] Growth.start where
  keys := unambiguous_start
  scopes _ _ found elsewhere := absurd (eq_rootScope_of_start found).1 elsewhere
  marked _ impossible := by cases impossible
  apart _ impossible := by cases impossible

/-- More markers change nothing. -/
theorem Undivided.further (undivided : Undivided markers growth) (more : List Marker) :
    Undivided (markers ++ more) growth where
  keys := undivided.keys
  scopes id scope found elsewhere := by
    rcases undivided.scopes id scope found elsewhere with ⟨parent, key, step, made⟩
    exact ⟨parent, key, step, { made with uses := made.uses.further more }⟩
  marked arrayKey listed := by
    rcases undivided.marked arrayKey listed with ⟨parent, key, name, step, keyed, same, array, uses⟩
    exact ⟨parent, key, name, step, keyed, same, array, uses.further more⟩
  apart := undivided.apart

/-- Nothing changes for a scope when others are made. -/
theorem MadeFrom.mono {later : Growth} {scope again : Scope} {id parent : ScopeId} {key : String}
    (made : MadeFrom markers growth id scope parent key step)
    (known : ∀ key id, growth.find? key = some id → later.find? key = some id)
    (marked : growth.arrayKeys ⊆ later.arrayKeys) (same : frame again = frame scope) :
    MadeFrom markers later id again parent key step where
  link := (congrArg Frame.parent same).trans made.link
  keyed := made.keyed.imp_right (known _ _)
  known := known _ _ made.known
  goes := made.goes
  kind := (congrArg Frame.repeated same).trans made.kind
  access := (congrArg Frame.access same).trans made.access
  marks name array := marked (made.marks name array)
  uses := made.uses

theorem MarkedBy.mono {later : Growth} {arrayKey : String}
    (marked : MarkedBy markers growth arrayKey)
    (known : ∀ key id, growth.find? key = some id → later.find? key = some id) :
    MarkedBy markers later arrayKey := by
  rcases marked with ⟨parent, key, name, step, keyed, same, array, uses⟩
  exact ⟨parent, key, name, step, keyed.imp_right (known _ _), same, array, uses⟩

/-- Changing no frame and no key keeps attributes undivided. -/
theorem Undivided.of_sameFrames {later : Growth} (undivided : Undivided markers growth)
    (same : SameFrames growth.outline later.outline) (keys : later.keys = growth.keys)
    (arrayKeys : later.arrayKeys = growth.arrayKeys) : Undivided markers later := by
  have find : ∀ key, later.find? key = growth.find? key := by
    intro key
    unfold Growth.find?
    rw [keys]
  have known : ∀ key id, growth.find? key = some id → later.find? key = some id :=
    fun key id known => (find key).trans known
  constructor
  · refine ⟨fun key => ?_, ?_, fun key other id => ?_⟩
    · rw [find]
      exact undivided.keys.inside key
    · rw [find]
      exact undivided.keys.filled
    · rw [find, find]
      exact undivided.keys.once key other id
  · intro id scope found elsewhere
    rcases same.symm.keeps id scope found with ⟨old, foundOld, frames⟩
    rcases undivided.scopes id old foundOld elsewhere with ⟨parent, key, step, made⟩
    exact ⟨parent, key, step, made.mono known (by rw [arrayKeys]; exact List.Subset.refl _)
      frames.symm⟩
  · intro arrayKey listed
    rw [arrayKeys] at listed
    exact (undivided.marked arrayKey listed).mono known
  · intro arrayKey listed
    rw [arrayKeys] at listed
    rw [find]
    exact undivided.apart arrayKey listed

/-! ## One step -/

/-- The key of a group is not that of an attribute. -/
theorem attributeKey_ne_keyAt (named : Named name) (array : AsArray name step) :
    attributeKey progress.key name ≠ progress.keyAt step := by
  intro same
  rcases array with ⟨use, rfl, -⟩
  rcases eq_object_of_key named (fun other own => by cases own; exact named) same.symm with
    ⟨-, impossible⟩
  cases impossible

theorem mem_arrayKeyAt {arrayKey : String} (goes : terminates step = false)
    (listed : arrayKey ∈ (progress.arrayKeyAt step).toList) :
    ∃ name, AsArray name step ∧ arrayKey = attributeKey progress.key name := by
  rw [Option.mem_toList] at listed
  match step, goes, listed with
  | .group name true use, goes, listed =>
    cases listed
    exact ⟨name, ⟨use, rfl, goes⟩, rfl⟩

/-- Making a scope that uses its attribute in one way. -/
theorem Undivided.made (undivided : Undivided markers growth)
    (keyed : KeyOf growth progress.scope progress.key)
    (unknown : growth.find? (progress.keyAt step) = none) (goes : terminates step = false)
    {made : Growth} (makes : Makes growth progress step made) (uses : Uses markers progress.scope step)
    (unambiguous : Unambiguous made) : Undivided markers made := by
  rcases makes with ⟨apart, rfl⟩
  have known : ∀ key id, growth.find? key = some id → (growth.addScope (progress.keyAt step)
      (scopeMade growth progress step) (progress.arrayKeyAt step)).find? key = some id := by
    intro key id known
    rw [find?_addScope, if_neg]
    · exact known
    · rintro rfl
      rw [unknown] at known
      cases known
  refine ⟨unambiguous, ?_, ?_, ?_⟩
  · intro id scope found elsewhere
    rcases old_or_new found with old | ⟨rfl, rfl⟩
    · rcases undivided.scopes id scope old elsewhere with ⟨parent, key, step, made⟩
      exact ⟨parent, key, step, made.mono known (List.subset_append_right _ _) rfl⟩
    · refine ⟨progress.scope, progress.key, step, rfl, keyed.imp_right (known _ _), ?_, goes,
        isArray_scopeMade growth progress goes, rfl, ?_, uses⟩
      · show (growth.addScope _ _ _).find? (progress.keyAt step) = _
        rw [find?_addScope, if_pos rfl]
      · rintro name ⟨use, rfl, -⟩
        exact List.mem_append_left _ (.head _)
  · intro arrayKey listed
    rcases List.mem_append.mp listed with new | old
    · rcases mem_arrayKeyAt goes new with ⟨name, array, rfl⟩
      exact ⟨progress.scope, progress.key, name, step, keyed.imp_right (known _ _), rfl, array, uses⟩
    · exact (undivided.marked arrayKey old).mono known
  · intro arrayKey listed
    rw [find?_addScope]
    rcases List.mem_append.mp listed with new | old
    · rcases mem_arrayKeyAt goes new with ⟨name, array, rfl⟩
      rw [if_neg (attributeKey_ne_keyAt (uses.named array.name_footprint) array)]
      have free : ¬ (growth.find? (attributeKey progress.key name)).isSome = true :=
        fun used => apart name (.inr ⟨array, used⟩)
      simpa using free
    · rw [if_neg]
      · exact undivided.apart arrayKey old
      · -- Only an object has the key of an attribute, and this one is used as an array.
        rintro rfl
        rcases undivided.marked _ old with ⟨parent, key, name, other, -, same, array, used⟩
        rcases eq_object_of_key (used.named array.name_footprint) (fun _ => uses.named) same with
          ⟨rfl, object⟩
        rw [same] at old
        exact apart name (.inl ⟨object, old⟩)

theorem Undivided.onward (undivided : Undivided markers growth) (sound : Sound growth)
    (keyed : progress.lost = false → KeyOf growth progress.scope progress.key)
    (run : walkStep (growth, progress) step = .ok after)
    (uses : progress.lost = false → after.2.lost = false → Uses markers progress.scope step) :
    Undivided markers after.1 := by
  have taking := taken_of_walkStep run
  have unambiguous := taking.unambiguous sound undivided.keys
  cases taking with
  | astray | missing | found => exact undivided
  | narrowed | ended =>
    exact undivided.of_sameFrames (sameFrames_modifyDimension growth _ _) rfl rfl
  | made arrayKey onTrack unknown opening goes =>
    exact undivided.made (keyed onTrack) unknown goes (makes_of_walkStep onTrack unknown opening run)
      (uses onTrack onTrack) unambiguous

/-! ## Markers -/

/-- A walk through an outline of undivided attributes that stands at the scope of its
key. -/
structure Keeping (markers : List Marker) (walk : Walk) : Prop where
  walking : Walking walk
  undivided : Undivided markers walk.1
  keyed : walk.2.lost = false → KeyOf walk.1 walk.2.scope walk.2.key

theorem Keeping.run {earlier : List Marker} {marker : Marker} {begun : Growth} {read : ReadMarker}
    {steps : List Step} {walk : Walk} (grown : earlier.foldlM grow Growth.start = .ok begun)
    (reading : readMarker marker = .ok read) (within : steps <+: read.path.steps.1)
    (undivided : Undivided earlier begun)
    (run : steps.foldlM walkStep (begun, beginWalk begun marker) = .ok walk) :
    Keeping (earlier ++ [marker]) walk := by
  refine foldlM_induction_along (motive := fun _ walk => Keeping (earlier ++ [marker]) walk) ?_ ?_ run
  · intro front step before after inside ran keeping stepped
    have taking := taken_of_walkStep stepped
    rcases inside.trans within with ⟨back, split⟩
    refine ⟨⟨taking.sound keeping.walking.1 keeping.walking.2,
      taking.scope_lt keeping.walking.1 keeping.walking.2⟩, ?_, taking.keyOf keeping.keyed⟩
    refine keeping.undivided.onward keeping.walking.1 keeping.keyed stepped fun onTrack further => ?_
    refine ⟨earlier, marker, [], before, after, rfl, ?_, rfl, stepped, further⟩
    exact ⟨begun, read, front, back, grown, reading, by rw [← split]; simp, ran, onTrack⟩
  · refine ⟨walking_begin (sound_growth sound_start grown) marker, ?_, fun _ => .inl ⟨rfl, rfl⟩⟩
    exact undivided.further [marker]

theorem undivided_of_growth (run : markers.foldlM grow Growth.start = .ok growth) :
    Undivided markers growth := by
  refine foldlM_induction_along (motive := Undivided) ?_ undivided_start run
  intro earlier marker before after _ ran undivided grown
  rcases grow_eq_ok.mp grown with ⟨read, walk, reading, steps, rfl⟩
  have keeping := Keeping.run ran reading (List.prefix_refl _) undivided steps
  exact keeping.undivided.of_sameFrames (sameFrames_record walk read read.path.steps.2) rfl rfl

/-! ## What a marker makes itself -/

/-- All keys that a walk has added are those of scopes and attributes that its own key
has come past. -/
structure Short (begun : Growth) (walk : Walk) : Prop where
  keys : ∀ key id, walk.1.find? key = some id →
    begun.find? key = some id ∨ key.length ≤ walk.2.key.length
  arrayKeys : ∀ arrayKey ∈ walk.1.arrayKeys,
    arrayKey ∈ begun.arrayKeys ∨ arrayKey.length ≤ walk.2.key.length

theorem length_arrayKeyAt {arrayKey : String}
    (listed : arrayKey ∈ (progress.arrayKeyAt step).toList) :
    arrayKey.length ≤ (progress.keyAt step).length := by
  rw [Option.mem_toList] at listed
  match step, listed with
  | .group name true use, listed =>
    cases listed
    unfold Progress.keyAt
    rw [String.length_append]
    exact Nat.le_add_right _ _

theorem Short.onward {begun : Growth} (short : Short begun (growth, progress))
    (run : walkStep (growth, progress) step = .ok after) : Short begun after := by
  have longer := length_le_keyAt progress step
  have entered : ∀ {id closing lost opens closes}, Short begun (growth,
      { progress.enter (progress.keyAt step) id with
        closing := closing, lost := lost, opens := opens, closes := closes }) := by
    intro id closing lost opens closes
    exact ⟨fun key id known => (short.keys key id known).imp_right fun le => le.trans longer,
      fun arrayKey listed => (short.arrayKeys arrayKey listed).imp_right fun le => le.trans longer⟩
  have taking := taken_of_walkStep run
  cases taking with
  | astray | missing => exact ⟨short.keys, short.arrayKeys⟩
  | found | narrowed | ended => exact ⟨entered.keys, entered.arrayKeys⟩
  | made arrayKey onTrack unknown opening goes =>
    have marks := congrArg Growth.arrayKeys (makes_of_walkStep onTrack unknown opening run).made
    refine ⟨fun key id known => ?_, fun marked listed => ?_⟩
    · rw [find?_addScope] at known
      split at known
      · next same =>
        rw [same]
        exact .inr (Nat.le_refl _)
      · exact entered.keys key id known
    · rw [marks] at listed
      rcases List.mem_append.mp listed with new | old
      · exact .inr (length_arrayKeyAt new)
      · exact entered.arrayKeys marked old

theorem Short.run {begun : Growth} {marker : Marker} {steps : List Step} {walk : Walk}
    (run : steps.foldlM walkStep (begun, beginWalk begun marker) = .ok walk) : Short begun walk :=
  foldlM_induction (motive := Short begun) (fun _ _ _ _ short taking => short.onward taking)
    ⟨fun _ _ known => .inl known, fun _ listed => .inl listed⟩ run

theorem length_lt_attributeKey (key name : String) : key.length < (attributeKey key name).length := by
  unfold attributeKey
  rw [String.length_append, String.length_append]
  have one : ".".length = 1 := rfl
  omega

/-! ## Documents -/

variable {id other parent : Nat} {scope otherScope : Scope} {key : String}

/-- An object was made by a step to its attribute as an object. -/
theorem MadeFrom.asObject (made : MadeFrom markers growth id scope parent key step)
    (object : scope.IsObject name) : AsObject name step := by
  have goes := made.goes
  have kind := made.kind.symm.trans object.1
  have access := made.access.symm.trans object.2
  match step, kind, access, goes with
  | .object _, _, access, _ =>
    cases access
    rfl
  | .group _ _ (.search _), _, impossible, _ => cases impossible
  | .group _ _ (.loop _ _), impossible, _, _ => cases impossible
  | .group _ _ (.terminate _), _, _, impossible => cases impossible

/-- A scope that iterates over an attribute or searches it was made by a step that does. -/
theorem MadeFrom.asArray (made : MadeFrom markers growth id scope parent key step)
    (array : scope.IsArrayOf name) : AsArray name step := by
  have goes := made.goes
  rcases array with ⟨repeated, field⟩ | ⟨conditions, search⟩
  · have kind := made.kind.symm.trans repeated
    have access := made.access.symm.trans field
    match step, kind, access, goes with
    | .group _ true (.loop _ _), _, access, goes =>
      cases access
      exact ⟨_, rfl, goes⟩
    | .group _ false (.loop _ _), _, impossible, _ => cases impossible
  · have access := made.access.symm.trans search
    match step, access, goes with
    | .group _ true (.search _), access, goes =>
      cases access
      exact ⟨_, rfl, goes⟩
    | .group _ false (.search _), impossible, _ => cases impossible
    | .group _ true (.loop _ _), impossible, _ => cases impossible
    | .group _ false (.loop _ _), impossible, _ => cases impossible

/-- No two scopes under one scope use an attribute in two ways. -/
theorem Undivided.exclusive (undivided : Undivided markers growth)
    (found : growth.outline.scopes[id]? = some scope)
    (otherFound : growth.outline.scopes[other]? = some otherScope) (inside : id ≠ root)
    (otherInside : other ≠ root) (link : scope.parent = some parent)
    (otherLink : otherScope.parent = some parent) (object : scope.IsObject name) :
    ¬ otherScope.IsArrayOf name := by
  intro array
  rcases undivided.scopes id scope found inside with ⟨_, key, step, made⟩
  rcases undivided.scopes other otherScope otherFound otherInside with
    ⟨_, otherKey, otherStep, otherMade⟩
  cases link.symm.trans made.link
  cases otherLink.symm.trans otherMade.link
  cases made.keyed.key_eq undivided.keys otherMade.keyed
  have free := undivided.apart _ (otherMade.marks name (otherMade.asArray array))
  have known := made.known
  rw [made.asObject object] at known
  have same : key ++ (Step.object name).attributeKey ++ (Step.object name).groupKey =
      attributeKey key name := String.append_empty
  rw [same, free] at known
  cases known

/-- The walk behind some markers at which mixed use is refused: an earlier one uses the
attribute in the other way. -/
theorem Undivided.conflict {earlier : List Marker} {begun : Growth} {walk : Walk}
    (undivided : Undivided earlier begun) (sound : Sound begun) (unambiguous : Unambiguous walk.1)
    (keyed : KeyOf walk.1 walk.2.scope walk.2.key) (short : Short begun walk)
    (known : ∀ key id, begun.find? key = some id → walk.1.find? key = some id)
    (stands : ∀ name, step.footprint.name = some name → Named name)
    (mixes : Mixes walk.1 walk.2 step name) :
    ∃ other, Uses earlier walk.2.scope other ∧
      (AsObject name step ∧ AsArray name other ∨ AsArray name step ∧ AsObject name other) := by
  have longer := Nat.not_le_of_lt (length_lt_attributeKey walk.2.key name)
  rcases mixes with ⟨object, marked⟩ | ⟨array, used⟩
  · have named : Named name := stands name (by rw [object]; rfl)
    have old := (short.arrayKeys _ marked).resolve_right longer
    rcases undivided.marked _ old with ⟨parent, key, own, other, parentKey, same, array, uses⟩
    rcases attributeKey_inj named (uses.named array.name_footprint) same with ⟨rfl, rfl⟩
    have here := keyed.scope_eq unambiguous (parentKey.imp_right (known _ _))
    rw [here]
    exact ⟨other, uses, .inl ⟨object, array⟩⟩
  · rcases Option.isSome_iff_exists.mp used with ⟨id, found⟩
    have old := (short.keys _ id found).resolve_right longer
    have elsewhere : id ≠ root := by
      rintro rfl
      exact undivided.keys.inside _ old
    have there := Array.getElem?_eq_getElem (sound.known _ id old)
    rcases undivided.scopes id _ there elsewhere with ⟨parent, key, other, made⟩
    have same := undivided.keys.once _ _ id made.known old
    have named := stands name array.name_footprint
    rcases eq_object_of_key named (fun _ => made.uses.named) same with ⟨rfl, object⟩
    have here := keyed.scope_eq unambiguous (made.keyed.imp_right (known _ _))
    rw [here]
    exact ⟨other, made.uses, .inr ⟨array, object⟩⟩

theorem find?_run {steps : List Step} {before after : Walk}
    (run : steps.foldlM walkStep before = .ok after) :
    ∀ key id, before.1.find? key = some id → after.1.find? key = some id :=
  foldlM_induction (motive := fun walk => ∀ key id, before.1.find? key = some id →
      walk.1.find? key = some id)
    (fun _ _ _ _ kept taking key id known => (taken_of_walkStep taking).find?_eq_some
      (kept key id known)) (fun _ _ known => known) run

theorem readMarker_ne_conflict (marker : Marker) {path : String} :
    readMarker marker ≠ .error (.conflictingUse path name) := by
  intro run
  rcases readMarker_eq_error run with ⟨fault, impossible⟩
  cases impossible

theorem settle_ne_conflict {policy : Unterminated} {outline : Outline} {path : String} :
    settle policy outline ≠ .error (.conflictingUse path name) := by
  intro run
  rcases settle_eq_error run with ⟨id, scope, dimension, impossible⟩
  cases impossible

/-- What a document is refused for with mixed use: a marker stands before a step that uses
an attribute in one way, and one before it has used it in the other from the same scope. -/
theorem conflict_of_growth {path : String}
    (run : markers.foldlM grow Growth.start = .error (.conflictingUse path name)) :
    ∃ earlier marker later step walk other, markers = earlier ++ marker :: later ∧
      marker.path = path ∧ StandsBefore earlier marker step walk ∧
      walkStep walk step = .error (.conflictingUse path name) ∧
      Uses earlier walk.2.scope other ∧
      (AsObject name step ∧ AsArray name other ∨ AsArray name step ∧ AsObject name other) := by
  rcases foldlM_eq_error run with ⟨earlier, marker, later, begun, split, grown, fails⟩
  rcases bind_eq_error.mp fails with unread | ⟨read, reading, fails⟩
  · exact absurd unread (readMarker_ne_conflict marker)
  · rcases bind_eq_error.mp fails with fails | ⟨_, -, impossible⟩
    · rcases foldlM_eq_error fails with ⟨front, step, back, walk, taken, walks, refused⟩
      have steps : read.path.steps.1 = front ++ step :: back := taken
      have undivided := undivided_of_growth grown
      have within : front <+: read.path.steps.1 := by
        rw [steps]
        exact List.prefix_append _ _
      have keeping := Keeping.run grown reading within undivided walks
      rcases mixes_of_conflict refused with ⟨onTrack, same, mixes⟩
      have stands : StandsBefore earlier marker step walk :=
        ⟨begun, read, front, back, grown, reading, steps, walks, onTrack⟩
      rcases undivided.conflict (sound_growth sound_start grown) keeping.undivided.keys
        (keeping.keyed onTrack) (Short.run walks) (find?_run walks) (fun _ => stands.named) mixes
        with ⟨other, uses, ways⟩
      have own : walk.2.marker = marker := marker_run walks
      refine ⟨earlier, marker, later, step, walk, other, split, ?_, stands, refused, uses, ways⟩
      rw [same, own]
    · cases impossible

/-- Under one scope no attribute is used in two ways, and a document is refused for such use
only where an earlier marker has used the attribute in the other way. -/
theorem attributes_used_one_way (markers : List Marker) (policy : Unterminated) :
    (∀ outline, ofMarkers markers policy = .ok outline →
      ∀ (id other parent : Nat) scope otherScope name, outline.scopes[id]? = some scope →
        outline.scopes[other]? = some otherScope → scope.parent = some parent →
        otherScope.parent = some parent → scope.IsObject name → ¬ otherScope.IsArrayOf name) ∧
    ∀ path name, ofMarkers markers policy = .error (.conflictingUse path name) →
      ∃ earlier marker later step walk other,
        inDocumentOrder markers = earlier ++ marker :: later ∧ marker.path = path ∧
        StandsBefore earlier marker step walk ∧
        walkStep walk step = .error (.conflictingUse path name) ∧
        Uses earlier walk.2.scope other ∧
        (AsObject name step ∧ AsArray name other ∨ AsArray name step ∧ AsObject name other) := by
  constructor
  · intro outline accepted id other parent scope otherScope name found otherFound link otherLink
    rcases ofMarkers_eq_ok accepted with ⟨growth, grown, rfl⟩
    have rooted := (sound_growth sound_start grown).coherent.rooted
    have elsewhere : ∀ {id : Nat} {scope : Scope}, growth.outline.scopes[id]? = some scope →
        scope.parent = some parent → id ≠ root := by
      rintro id scope found link rfl
      rcases rooted.payload with ⟨payload, there, orphan, -⟩
      rw [there] at found
      cases found
      rw [orphan] at link
      cases link
    exact (undivided_of_growth grown).exclusive found otherFound (elsewhere found link)
      (elsewhere otherFound otherLink) link otherLink
  · intro path name refused
    rcases bind_eq_error.mp refused with conflict | ⟨growth, -, unsettled⟩
    · exact conflict_of_growth conflict
    · exact absurd unsettled settle_ne_conflict

/-- An object beside an array. -/
def objectBesideArray : List Marker := [⟨0, "d.owner.name"⟩, ⟨3, "d.cars[i].name"⟩]

/-- One attribute as an array and as an object. -/
def arrayThenObject : List Marker := [⟨3, "d.cars.first"⟩, ⟨0, "d.cars[i].name"⟩]

theorem attributes_used_one_way_cars :
    (∃ outline scope otherScope, ofMarkers objectBesideArray .permissive = .ok outline ∧
      outline.scopes[1]? = some scope ∧ outline.scopes[2]? = some otherScope ∧
      scope.IsObject "owner" ∧ ¬ otherScope.IsArrayOf "owner") ∧
    ∃ earlier marker later step walk other,
      inDocumentOrder arrayThenObject = earlier ++ marker :: later ∧ marker.path = "d.cars.first" ∧
      StandsBefore earlier marker step walk ∧
      walkStep walk step = .error (.conflictingUse "d.cars.first" "cars") ∧
      Uses earlier walk.2.scope other ∧
      (AsObject "cars" step ∧ AsArray "cars" other ∨ AsArray "cars" step ∧ AsObject "cars" other) := by
  constructor
  · have beside : (do
        let outline ← ofMarkers objectBesideArray .permissive
        if (outline.scopes[1]?.any fun scope =>
            decide (scope.IsObject "owner" ∧ scope.parent = some 0)) = true ∧
          (outline.scopes[2]?.any fun scope => decide (scope.parent = some 0)) = true
        then .ok outline else .error (.stopped 0 0) : Except Error Outline).isOk = true := by
      decide +kernel
    rcases exists_of_isOk beside with ⟨_, run⟩
    rcases bind_eq_ok.mp run with ⟨outline, accepted, run⟩
    split at run
    · next both =>
      rcases (Option.any_eq_true _ _).mp both.1 with ⟨scope, found, known⟩
      rcases (Option.any_eq_true _ _).mp both.2 with ⟨otherScope, otherFound, otherLink⟩
      rcases of_decide_eq_true known with ⟨object, link⟩
      exact ⟨outline, scope, otherScope, accepted, found, otherFound, object,
        (attributes_used_one_way objectBesideArray .permissive).1 outline accepted 1 2 0 scope
          otherScope "owner" found otherFound link (of_decide_eq_true otherLink) object⟩
    · cases run
  · have refused : (ofMarkers arrayThenObject .permissive).map (fun _ => ()) =
        .error (.conflictingUse "d.cars.first" "cars") := by
      decide +kernel
    exact (attributes_used_one_way arrayThenObject .permissive).2 _ _ (map_eq_error.mp refused)

end Stencil.Outline
