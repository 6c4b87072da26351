import Stencil.Outline.Growth
import Stencil.Proofs.Outline.Carried

namespace Stencil.Outline

/-!
# What never changes about a scope

A scope gets conditions, ends and slots as further markers mention it.  Its name,
its place in the tree, the way its value is reached and the marker that made it
stay as they are: its frame.  Everything that is read off the tree alone depends
on frames only, so it is the same before and after a change of anything else,
and for old scopes also after new ones were added.
-/

/-- The unchanging part of a scope. -/
structure Frame where
  name : String
  repeated : Bool
  parent : Option ScopeId
  access : Access
  depth : Nat
  opened : Place

def frame (scope : Scope) : Frame :=
  ⟨scope.name, scope.isArray, scope.parent, scope.access, scope.depth, scope.opened⟩

/-- Scopes stay where they are, with the frames they have. -/
def Keeps (before after : Outline) : Prop :=
  ∀ (id : Nat) scope, before.scopes[id]? = some scope →
    ∃ later, after.scopes[id]? = some later ∧ frame later = frame scope

theorem Keeps.refl (outline : Outline) : Keeps outline outline :=
  fun _ scope found => ⟨scope, found, rfl⟩

theorem Keeps.trans {first second third : Outline} (early : Keeps first second)
    (late : Keeps second third) : Keeps first third := by
  intro id scope found
  obtain ⟨between, foundBetween, same⟩ := early id scope found
  obtain ⟨later, foundLater, alsoSame⟩ := late id between foundBetween
  exact ⟨later, foundLater, alsoSame.trans same⟩

variable {before after : Outline}

theorem Keeps.size_le (keeps : Keeps before after) :
    before.scopes.size ≤ after.scopes.size := by
  by_contra smaller
  have found := Array.getElem?_eq_getElem (Nat.lt_of_not_le smaller)
  obtain ⟨later, foundLater, -⟩ := keeps _ _ found
  exact Nat.lt_irrefl _ (lt_size_of_getElem? foundLater)

/-- Each old scope is carried to itself. -/
theorem Keeps.carries (keeps : Keeps before after) : Carries id before after where
  payload := rfl
  scopes id scope found := by
    obtain ⟨later, foundLater, same⟩ := keeps id scope found
    refine ⟨later, foundLater, ?_, congrArg Frame.access same, congrArg Frame.repeated same⟩
    rw [Option.map_id_apply]
    exact congrArg Frame.parent same
  injective := Function.injective_id

/-- The ancestry of an old scope is what it was. -/
theorem Keeps.ancestry (keeps : Keeps before after) (rooted : Rooted before)
    (later : Rooted after) {id : Nat} (bound : id < before.scopes.size) :
    after.ancestry id = before.ancestry id :=
  (keeps.carries.ancestry rooted later bound).trans (List.map_id _)

theorem Keeps.scopeIs_isArray (keeps : Keeps before after) {id : Nat}
    (bound : id < before.scopes.size) :
    after.scopeIs Scope.isArray id = before.scopeIs Scope.isArray id :=
  keeps.carries.scopeIs_isArray bound

theorem Keeps.depthOf (keeps : Keeps before after) {id : Nat}
    (bound : id < before.scopes.size) : after.depthOf id = before.depthOf id := by
  have found := Array.getElem?_eq_getElem bound
  obtain ⟨new, foundNew, same⟩ := keeps id _ found
  rw [depthOf_eq found, depthOf_eq foundNew]
  exact congrArg Frame.depth same

/-- The dimensions around an old scope are what they were. -/
theorem Keeps.dimensionsAround (keeps : Keeps before after) (rooted : Rooted before)
    (later : Rooted after) {id : Nat} (bound : id < before.scopes.size) :
    after.dimensionsAround id = before.dimensionsAround id :=
  (keeps.carries.dimensionsAround rooted later bound).trans (List.map_id _)

/-! ## Changes that keep all frames -/

/-- Two outlines with the same frames. -/
def SameFrames (before after : Outline) : Prop :=
  after.scopes.map frame = before.scopes.map frame

theorem SameFrames.getElem? (same : SameFrames before after) (id : Nat) :
    after.scopes[id]?.map frame = before.scopes[id]?.map frame := by
  have := congrArg (fun frames => frames[id]?) same
  simpa [SameFrames] using this

theorem SameFrames.symm (same : SameFrames before after) : SameFrames after before :=
  Eq.symm same

theorem SameFrames.size (same : SameFrames before after) :
    after.scopes.size = before.scopes.size := by
  have := congrArg Array.size same
  simpa using this

theorem SameFrames.keeps (same : SameFrames before after) : Keeps before after := by
  intro id scope found
  have eq := same.getElem? id
  rw [found] at eq
  obtain ⟨later, foundLater, sameFrame⟩ := Option.map_eq_some_iff.mp eq
  exact ⟨later, foundLater, sameFrame⟩

theorem SameFrames.scopeIs_isArray {before after : Outline} (same : SameFrames before after)
    (id : Nat) : after.scopeIs Scope.isArray id = before.scopeIs Scope.isArray id := by
  have frames := congrArg (Option.map Frame.repeated) (same.getElem? id)
  rw [Option.map_map, Option.map_map] at frames
  exact congrArg (fun found => found.getD false) frames

/-- Being rooted is a matter of frames. -/
theorem SameFrames.rooted (same : SameFrames before after) (rooted : Rooted before) :
    Rooted after := by
  constructor
  · obtain ⟨scope, found, orphan, object, flat⟩ := rooted.payload
    obtain ⟨later, foundLater, sameFrame⟩ := same.keeps root scope found
    exact ⟨later, foundLater, (congrArg Frame.parent sameFrame).trans orphan,
      (congrArg Frame.repeated sameFrame).trans object,
      (congrArg Frame.depth sameFrame).trans flat⟩
  · intro id scope found elsewhere
    obtain ⟨earlier, foundEarlier, sameFrame⟩ := same.symm.keeps id scope found
    obtain ⟨parent, link, smaller, depth⟩ := rooted.inside id earlier foundEarlier elsewhere
    refine ⟨parent, (congrArg Frame.parent sameFrame).symm.trans link, smaller, ?_⟩
    have array : earlier.isArray = scope.isArray := congrArg Frame.repeated sameFrame
    have sameDepth : earlier.depth = scope.depth := congrArg Frame.depth sameFrame
    rw [← sameDepth, depth, array, same.keeps.depthOf
      (smaller.trans (lt_size_of_getElem? foundEarlier))]

/-- Changing a scope without touching its frame changes no frame. -/
theorem sameFrames_modify (outline : Outline) (id : Nat) {change : Scope → Scope}
    (framed : ∀ scope, frame (change scope) = frame scope) :
    SameFrames outline { outline with scopes := outline.scopes.modify id change } := by
  unfold SameFrames
  apply Array.ext_getElem?
  intro other
  simp only [Array.getElem?_map, Array.getElem?_modify]
  split
  · cases outline.scopes[other]? with
    | none => rfl
    | some scope => simp [framed scope]
  · rfl

theorem sameFrames_modifyDimension (growth : Growth) (id : Nat) (change : Dimension → Dimension) :
    SameFrames growth.outline (growth.modifyDimension id change).outline := by
  refine sameFrames_modify growth.outline id fun scope => ?_
  cases kind : scope.kind with
  | object => rfl
  | array dimension => simp [frame, Scope.isArray, Scope.dimension?, kind]

/-- Changing a dimension changes this one only. -/
theorem dimension?_modifyDimension (growth : Growth) (id other : Nat)
    (change : Dimension → Dimension) :
    (growth.modifyDimension id change).outline.scopes[other]?.bind Scope.dimension? =
      if other = id then (growth.outline.scopes[other]?.bind Scope.dimension?).map change
      else growth.outline.scopes[other]?.bind Scope.dimension? := by
  simp only [Growth.modifyDimension, Growth.modifyScope, Array.getElem?_modify]
  by_cases same : other = id
  · subst same
    rw [if_pos rfl, if_pos rfl]
    cases growth.outline.scopes[other]? with
    | none => rfl
    | some scope => cases kind : scope.kind <;> simp [Scope.dimension?, kind]
  · rw [if_neg same, if_neg fun equal => same equal.symm]

theorem sameFrames_addSlot (outline : Outline) (slot : Slot) :
    SameFrames outline (addSlot outline slot) :=
  sameFrames_modify outline slot.scope fun _ => rfl

/-! ## New scopes -/

theorem getElem?_addScope_old {growth : Growth} {key : String} {scope : Scope}
    {arrayKey : Option String} {id : Nat} (bound : id < growth.outline.scopes.size) :
    (growth.addScope key scope arrayKey).outline.scopes[id]? = growth.outline.scopes[id]? := by
  simp only [Growth.addScope]
  rw [Array.getElem?_push_lt bound, Array.getElem?_eq_getElem bound]

theorem getElem?_addScope_new (growth : Growth) (key : String) (scope : Scope)
    (arrayKey : Option String) :
    (growth.addScope key scope arrayKey).outline.scopes[growth.outline.scopes.size]? =
      some scope := by
  simp [Growth.addScope]

theorem size_addScope (growth : Growth) (key : String) (scope : Scope)
    (arrayKey : Option String) :
    (growth.addScope key scope arrayKey).outline.scopes.size =
      growth.outline.scopes.size + 1 := by
  simp [Growth.addScope]

/-- A scope of a growth with one more is that one or an old one. -/
theorem old_or_new {growth : Growth} {key : String} {scope other : Scope}
    {arrayKey : Option String} {id : Nat}
    (found : (growth.addScope key scope arrayKey).outline.scopes[id]? = some other) :
    growth.outline.scopes[id]? = some other ∨
      id = growth.outline.scopes.size ∧ other = scope := by
  have bound := lt_size_of_getElem? found
  rw [size_addScope] at bound
  rcases Nat.lt_succ_iff_lt_or_eq.mp bound with old | same
  · rw [getElem?_addScope_old old] at found
    exact .inl found
  · rw [same, getElem?_addScope_new] at found
    exact .inr ⟨same, (Option.some.inj found).symm⟩

theorem keeps_addScope (growth : Growth) (key : String) (scope : Scope)
    (arrayKey : Option String) :
    Keeps growth.outline (growth.addScope key scope arrayKey).outline := by
  intro id old found
  exact ⟨old, (getElem?_addScope_old (lt_size_of_getElem? found)).trans found, rfl⟩

/-- A scope added inside an old one keeps an outline rooted. -/
theorem rooted_addScope {growth : Growth} (rooted : Rooted growth.outline) {key : String}
    {scope : Scope} {arrayKey : Option String} {parent : Nat}
    (link : scope.parent = some parent) (bound : parent < growth.outline.scopes.size)
    (depth : scope.depth = growth.outline.depthOf parent + if scope.isArray then 1 else 0) :
    Rooted (growth.addScope key scope arrayKey).outline := by
  have keeps := keeps_addScope growth key scope arrayKey
  constructor
  · obtain ⟨payload, found, orphan, object, flat⟩ := rooted.payload
    obtain ⟨later, foundLater, sameFrame⟩ := keeps root payload found
    exact ⟨later, foundLater, (congrArg Frame.parent sameFrame).trans orphan,
      (congrArg Frame.repeated sameFrame).trans object,
      (congrArg Frame.depth sameFrame).trans flat⟩
  · intro id other found elsewhere
    rcases old_or_new found with foundOld | ⟨rfl, rfl⟩
    · obtain ⟨outer, outerLink, smaller, outerDepth⟩ := rooted.inside id other foundOld elsewhere
      refine ⟨outer, outerLink, smaller, ?_⟩
      rw [outerDepth, keeps.depthOf (smaller.trans (lt_size_of_getElem? foundOld))]
    · exact ⟨parent, link, bound, by rw [depth, keeps.depthOf bound]⟩

end Stencil.Outline
