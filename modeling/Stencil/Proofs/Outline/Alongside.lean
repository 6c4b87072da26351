import Stencil.Proofs.Outline.Beside
import Stencil.Proofs.Outline.Identity

namespace Stencil.Outline

open Marker (Step)

/-!
# Walking alone and behind a first part

A marker of the second part walks alone and behind the first part side by side.
Where the walk alone finds a scope, the other finds its image.  Where it makes one,
the other makes the image or finds it in the base, and then it is an object.  Behind
a terminator both stand below a dimension of the second part, so there is nothing in
the base to be found by the one and missed by the other.
-/

/-- Two walks of a marker side by side. -/
structure Alongside (move : Relocation) (base : Growth) (alone whole : Walk) : Prop where
  beside : Beside move base alone.1 whole.1
  progress : whole.2 = move.progress alone.2
  closed : alone.2.closing = true → base.outline.scopes.size ≤ move.scope alone.2.scope

/-- A walk that does not stand at a dimension of the base. -/
def Fresh (base : Growth) (walk : Walk) : Prop :=
  walk.2.lost = false → walk.1.outline.scopeIs Scope.isArray walk.2.scope = true →
    base.outline.scopes.size ≤ walk.2.scope

variable {move : Relocation} {base alone whole : Growth} {progress : Progress} {step : Step}

/-! ## What a step does here and there -/

theorem dimension_terminate (place : Place) (dimension : Dimension) :
    (move.dimension dimension).terminate (move.place place) =
      move.dimension (dimension.terminate place) := by
  unfold Dimension.terminate Relocation.dimension
  congr 1
  · cases dimension.closing <;> rfl
  · cases dimension.skipEnd with
    | none => simp [Relocation.place]
    | some skipEnd => simp [Relocation.place, Nat.add_max_add_right]

theorem changed_progress (dimension : Dimension) :
    (move.progress progress).changed step (move.dimension dimension) =
      move.dimension (progress.changed step dimension) := by
  match step with
  | .object _ => rfl
  | .group _ _ (.search _) => rfl
  | .group _ _ (.loop _ conditions) =>
    unfold Progress.changed
    cases closing : progress.closing <;> simp [Relocation.progress, closing, Relocation.dimension]
  | .group _ _ (.terminate _) => exact dimension_terminate progress.place dimension

theorem entered_progress (id : Nat) (ended : Bool) :
    (move.progress progress).entered step (move.scope id) ended =
      move.progress (progress.entered step id ended) := by
  unfold Progress.entered
  cases terminates step <;> cases ended <;> simp [Relocation.progress, Progress.enter] <;> rfl

theorem image_scopeMade (goes : terminates step = false) :
    move.Image (scopeMade alone progress step)
      (scopeMade whole (move.progress progress) step) := by
  refine ⟨rfl, rfl, ?_, fun _ => rfl⟩
  match step, goes with
  | .object _, _ => rfl
  | .group _ _ (.search _), _ => rfl
  | .group _ _ (.loop _ _), _ => rfl

/-- A terminator ends a dimension. -/
theorem Taken.isArray_of_terminates {growth : Growth} {after : Walk}
    (taking : Taken growth progress step after) (onTrack : progress.lost = false)
    {id : Nat} (known : growth.find? (progress.keyAt step) = some id)
    (ends : terminates step = true) : growth.outline.scopeIs Scope.isArray id = true := by
  cases taking with
  | astray lost => simp [lost] at onTrack
  | missing _ unknown => simp [known] at unknown
  | found _ _ _ goes => simp [goes] at ends
  | narrowed _ _ _ _ _ _ _ use => simp [use, terminates] at ends
  | made _ _ unknown => simp [known] at unknown
  | ended other _ _ iterator _ same _ named =>
    rw [known] at same
    cases same
    rcases Option.map_eq_some_iff.mp named with ⟨dimension, found, -⟩
    rcases Option.bind_eq_some_iff.mp found with ⟨scope, foundScope, kind⟩
    exact scopeIs_eq_true.mpr ⟨scope, foundScope, by rw [Scope.isArray, kind]; rfl⟩

/-- A scope that is no dimension is reached by the step that leaves its footprint. -/
theorem access_of_footprint {scope : Scope} (written : step.Written) (plain : step.Plain)
    (searches : ∀ field others, scope.access = .search field others →
      others ≠ [] ∧ Condition.Legible others)
    (arrays : scope.access = .whole → scope.isArray = true) (object : scope.isArray = false)
    (goes : terminates step = false) (same : footprintOf scope = step.footprint) :
    repeats step = false ∧ scope.access = accessMade step := by
  have groups : (footprintOf scope).group = step.footprint.group :=
    congrArg Marker.Footprint.group same
  have names : (footprintOf scope).name = step.footprint.name :=
    congrArg Marker.Footprint.name same
  match step, goes, written, plain, same, groups, names with
  | .object name, _, _, _, _, groups, names =>
    refine ⟨rfl, ?_⟩
    unfold footprintOf at groups names
    cases access : scope.access with
    | field other =>
      rw [access] at names
      exact congrArg Access.field (Option.some.inj names)
    | whole =>
      rw [access] at groups
      cases groups
    | search field conditions =>
      rw [access] at groups
      cases groups
  | .group name follows (.search conditions), _, written, plain, same, _, _ =>
    exact ⟨rfl, access_of_footprint_eq written plain searches same⟩
  | .group name follows (.loop _ _), _, _, _, _, groups, _ =>
    -- Only a dimension leaves empty brackets.
    exfalso
    unfold footprintOf at groups
    cases access : scope.access with
    | field other =>
      rw [access, object] at groups
      cases groups
    | whole =>
      rw [arrays access] at object
      cases object
    | search field conditions =>
      rw [access] at groups
      exact Condition.listText_ne_empty (searches field conditions access).1
        (Option.some.inj groups)

theorem Beside.scopeIs_hasEnd (beside : Beside move base alone whole) {id : Nat}
    (bound : id < alone.outline.scopes.size) :
    whole.outline.scopeIs Scope.hasEnd (move.scope id) =
      alone.outline.scopeIs Scope.hasEnd id := by
  have found := Array.getElem?_eq_getElem bound
  rcases beside.images id _ found with ⟨image, foundImage, same⟩
  rw [scopeIs_eq found, scopeIs_eq foundImage, same.hasEnd]

/-! ## One step -/

variable {taken : List Step} {after afterWhole : Walk}

/-- Both walks enter a scope that is known alone. -/
theorem Alongside.enters (along : Alongside move base (alone, progress) (whole, move.progress progress))
    (walkedWhole : AtTrail (whole, move.progress progress) taken)
    (readable : Marker.Readable (trail (taken ++ [step]))) (onTrack : progress.lost = false)
    {id : Nat} (known : alone.find? (progress.keyAt step) = some id)
    (taking : Taken alone progress step after)
    (takingWhole : Taken whole (move.progress progress) step afterWhole) :
    Alongside move base after afterWhole := by
  have beside := along.beside
  have bound := (beside.keyed.keyOf _ id known).2.1
  have knownWhole : whole.find? ((move.progress progress).keyAt step) = some (move.scope id) :=
    beside.find?_eq_some known
  rw [taking.of_known onTrack known, takingWhole.of_known onTrack knownWhole]
  refine ⟨beside.modifyDimension bound changed_progress, ?_, ?_⟩
  · rw [beside.scopeIs_hasEnd bound]
    exact entered_progress id _
  · intro closing
    have closing : (progress.closing || terminates step) = true := closing
    rcases Bool.or_eq_true_iff.mp closing with already | ends
    · rcases parent_of_find? walkedWhole readable onTrack knownWhole with ⟨scope, found, link⟩
      exact Nat.le_of_lt (Nat.lt_of_le_of_lt (along.closed already)
        (beside.keyedWhole.rooted.parent_lt found link))
    · exact beside.beyond id (taking.isArray_of_terminates onTrack known ends)

/-- An object found by a step is what the step would make. -/
theorem object_of_find? (walked : AtTrail (whole, progress) taken)
    (readable : Marker.Readable (trail (taken ++ [step]))) (written : step.Written)
    (plain : step.Plain) (onTrack : progress.lost = false) (goes : terminates step = false)
    {id : Nat} (known : whole.find? (progress.keyAt step) = some id)
    (single : whole.outline.scopeIs Scope.isArray id = false) :
    repeats step = false ∧ ∃ scope, whole.outline.scopes[id]? = some scope ∧
      scope.parent = some progress.scope ∧ scope.access = accessMade step ∧
      scope.isArray = false := by
  have keyed := walked.keyed
  rcases parent_of_find? walked readable onTrack known with ⟨scope, found, link⟩
  have object : scope.isArray = false := by
    rw [← single, scopeIs_eq found]
  rcases access_of_footprint written plain (keyed.searches id scope found)
    (keyed.arrays id scope found (keyed.keyOf _ id known).1) object goes
    (footprint_of_find? walked readable onTrack known found) with ⟨plainly, access⟩
  exact ⟨plainly, scope, found, link, access, object⟩

/-- A scope that one walk makes and the other finds in the base is an object there, and
the image of the one that is made. -/
theorem image_of_find? (walkedWhole : AtTrail (whole, move.progress progress) taken)
    (readable : Marker.Readable (trail (taken ++ [step]))) (written : step.Written)
    (plain : step.Plain) (onTrack : progress.lost = false) (goes : terminates step = false)
    {id : Nat} (known : whole.find? ((move.progress progress).keyAt step) = some id)
    (single : whole.outline.scopeIs Scope.isArray id = false) :
    repeats step = false ∧ ∃ scope, whole.outline.scopes[id]? = some scope ∧
      move.Image (scopeMade alone progress step) scope := by
  rcases object_of_find? walkedWhole readable written plain onTrack goes known single with
    ⟨plainly, scope, found, link, access, object⟩
  have made : (scopeMade alone progress step).isArray = false := by
    rw [isArray_scopeMade alone progress goes, plainly]
  refine ⟨plainly, scope, found, link, access, ?_, fun array => ?_⟩
  · unfold Scope.isArray at object made
    rw [Option.isSome_eq_false_iff, Option.isNone_iff_eq_none] at object made
    rw [object, made]
    rfl
  · rw [made] at array
    cases array

/-- The walk alone makes a scope that the other finds in the base. -/
theorem Alongside.finds (along : Alongside move base (alone, progress) (whole, move.progress progress))
    (walkedWhole : AtTrail (whole, move.progress progress) taken)
    (readable : Marker.Readable (trail (taken ++ [step]))) (written : step.Written)
    (plain : step.Plain) (onTrack : progress.lost = false) (opening : progress.closing = false)
    (goes : terminates step = false)
    (known : whole.find? ((move.progress progress).keyAt step) =
      some (move.scope alone.outline.scopes.size))
    (old : move.scope alone.outline.scopes.size < base.outline.scopes.size)
    {arrayKey : Option String}
    (keyed : Keyed (alone.addScope (progress.keyAt step) (scopeMade alone progress step) arrayKey))
    (takingWhole : Taken whole (move.progress progress) step afterWhole)
    (fresh : Fresh base afterWhole) :
    Alongside move base
      (alone.addScope (progress.keyAt step) (scopeMade alone progress step) arrayKey,
        { progress.enter (progress.keyAt step) alone.outline.scopes.size with
          opens := progress.opens ++ if repeats step then [alone.outline.scopes.size] else [] })
      afterWhole := by
  rw [takingWhole.of_known onTrack known] at fresh ⊢
  have same := sameFrames_modifyDimension whole (move.scope alone.outline.scopes.size)
    ((move.progress progress).changed step)
  have object : whole.outline.scopeIs Scope.isArray (move.scope alone.outline.scopes.size) =
      false := by
    by_contra array
    rw [Bool.not_eq_false, ← same.scopeIs_isArray] at array
    exact Nat.not_lt_of_le (fresh onTrack array) old
  rcases image_of_find? walkedWhole readable written plain onTrack goes known object with
    ⟨single, scope, found, sameImage⟩
  have made : (scopeMade alone progress step).isArray = false := by
    rw [isArray_scopeMade alone progress goes, single]
  rw [changed_of_not_repeats goes single, modifyDimension_self]
  refine ⟨along.beside.shared keyed old found sameImage made, ?_, fun closing => ?_⟩
  · simp [Progress.entered, goes, single, Relocation.progress, Progress.enter]
    rfl
  · exact absurd (opening.symm.trans closing) Bool.false_ne_true

/-- Both walks make a scope, or the one alone makes it and the other finds it in the
base. -/
theorem Alongside.makes (along : Alongside move base (alone, progress) (whole, move.progress progress))
    (walked : AtTrail (alone, progress) taken)
    (walkedWhole : AtTrail (whole, move.progress progress) taken)
    (readable : Marker.Readable (trail (taken ++ [step]))) (written : step.Written)
    (plain : step.Plain) (onTrack : progress.lost = false)
    (unknown : alone.find? (progress.keyAt step) = none) (opening : progress.closing = false)
    (taking : Taken alone progress step after)
    (takingWhole : Taken whole (move.progress progress) step afterWhole)
    (fresh : Fresh base afterWhole) (places : Places move after.1.outline afterWhole.1.outline) :
    Alongside move base after afterWhole := by
  have beside := along.beside
  rcases taking.of_unknown onTrack unknown opening with ⟨goes, arrayKey, rfl⟩
  have keyed := (keyed_made walked readable written plain onTrack goes unknown arrayKey).1
  cases knownWhole : whole.find? ((move.progress progress).keyAt step) with
  | none =>
    rcases takingWhole.of_unknown onTrack knownWhole opening with ⟨-, arrayKeyWhole, rfl⟩
    have keyedWhole :=
      (keyed_made walkedWhole readable written plain onTrack goes knownWhole arrayKeyWhole).1
    have placed := ToAddress.new_of_made walked walkedWhole readable written plain onTrack onTrack
      goes unknown knownWhole places
    refine ⟨beside.made keyed keyedWhole placed (image_scopeMade goes), ?_, fun closing => ?_⟩
    · cases again : repeats step <;> simp [Relocation.progress, Progress.enter, placed] <;> rfl
    · exact absurd (opening.symm.trans closing) Bool.false_ne_true
  | some image =>
    have old := beside.lt_of_find? unknown knownWhole
    rw [takingWhole.of_known onTrack knownWhole] at places
    have placed := ToAddress.new_of_known walked walkedWhole readable written plain onTrack onTrack
      goes unknown knownWhole (sameFrames_modifyDimension whole image _) places
    subst placed
    exact along.finds walkedWhole readable written plain onTrack opening goes knownWhole old keyed
      takingWhole fresh

/-- A step keeps two walks side by side. -/
theorem Alongside.onward (along : Alongside move base (alone, progress) (whole, move.progress progress))
    (walked : AtTrail (alone, progress) taken)
    (walkedWhole : AtTrail (whole, move.progress progress) taken)
    (readable : Marker.Readable (trail (taken ++ [step]))) (written : step.Written)
    (plain : step.Plain) (taking : Taken alone progress step after)
    (takingWhole : Taken whole (move.progress progress) step afterWhole)
    (fresh : Fresh base afterWhole) (places : Places move after.1.outline afterWhole.1.outline) :
    Alongside move base after afterWhole := by
  cases lost : progress.lost with
  | true =>
    rw [taking.of_lost lost, takingWhole.of_lost lost]
    exact along
  | false =>
    cases known : alone.find? (progress.keyAt step) with
    | some id => exact along.enters walkedWhole readable lost known taking takingWhole
    | none =>
      cases closing : progress.closing with
      | false =>
        exact along.makes walked walkedWhole readable written plain lost known closing taking
          takingWhole fresh places
      | true =>
        have unknown : whole.find? ((move.progress progress).keyAt step) = none := by
          cases knownWhole : whole.find? ((move.progress progress).keyAt step) with
          | none => rfl
          | some image =>
            exfalso
            rcases parent_of_find? walkedWhole readable lost knownWhole with ⟨scope, found, link⟩
            have inside := along.beside.keyedWhole.rooted.parent_lt found link
            exact Nat.lt_asymm (along.beside.lt_of_find? known knownWhole)
              (Nat.lt_of_le_of_lt (along.closed closing) inside)
        rw [taking.of_closing lost known closing, takingWhole.of_closing lost unknown closing]
        exact ⟨along.beside, rfl, along.closed⟩

end Stencil.Outline
