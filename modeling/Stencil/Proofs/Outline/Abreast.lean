import Stencil.Proofs.Outline.Omission
import Stencil.Proofs.Outline.Recorded

namespace Stencil.Outline

open Marker (Step)

/-!
# Walking with and without a further marker

A marker behind the further one walks through both outlines.  Where the walk without it
finds a scope, the other finds its image.  Where it makes one, the other makes the image or
finds an object that the further marker made.  Behind a terminator the walk without it may
get lost while the other goes on among the scopes of the further marker; it does nothing
there, since none of their dimensions ends.
-/

/-! ## What stays -/

/-- Scopes stay with their frames, and dimensions that have ended stay ended. -/
structure Extends (before after : Outline) : Prop where
  keeps : Keeps before after
  ended : ∀ id : Nat, before.scopeIs Scope.hasEnd id = true →
    after.scopeIs Scope.hasEnd id = true

theorem Extends.refl (outline : Outline) : Extends outline outline :=
  ⟨.refl outline, fun _ ends => ends⟩

theorem Extends.trans {first second third : Outline} (early : Extends first second)
    (late : Extends second third) : Extends first third :=
  ⟨early.keeps.trans late.keeps, fun id ends => late.ended id (early.ended id ends)⟩

section

variable {growth : Growth} {progress : Progress} {step : Step} {after : Walk}

theorem Taken.extends (taking : Taken growth progress step after) :
    Extends growth.outline after.1.outline where
  keeps := taking.keeps
  ended id ends := by
    rw [scopeIs_hasEnd] at ends ⊢
    rcases Option.isSome_iff_exists.mp ends with ⟨place, ended⟩
    by_cases here : terminates step = true ∧ after.2.lost = false ∧ after.2.scope = id
    · have same : after.1.outline.closingOf id = _ := congrArg Prod.fst ((taking.endsOf id).1 here)
      rw [same]
      show ((growth.outline.closingOf id).or _).isSome = true
      rw [ended]
      rfl
    · have same : after.1.outline.closingOf id = _ := congrArg Prod.fst ((taking.endsOf id).2 here)
      rw [same]
      exact ends

/-- A step that ends a dimension leaves it with an end. -/
theorem Taken.hasEnd (taking : Taken growth progress step after) (ends : terminates step = true)
    (onTrack : after.2.lost = false) :
    after.1.outline.scopeIs Scope.hasEnd after.2.scope = true := by
  have same : after.1.outline.closingOf after.2.scope = _ :=
    congrArg Prod.fst ((taking.endsOf after.2.scope).1 ⟨ends, onTrack, rfl⟩)
  rw [scopeIs_hasEnd, same]
  show ((growth.outline.closingOf after.2.scope).or _).isSome = true
  cases growth.outline.closingOf after.2.scope <;> rfl

end

theorem extends_run {steps : List Step} {before after : Walk}
    (run : steps.foldlM walkStep before = .ok after) :
    Extends before.1.outline after.1.outline :=
  foldlM_induction (motive := fun walk => Extends before.1.outline walk.1.outline)
    (fun _ _ _ _ extended taken => extended.trans (taken_of_walkStep taken).extends) (.refl _) run

theorem extends_record (walk : Walk) (read : ReadMarker) (field : String) :
    Extends walk.1.outline (record walk read field).outline where
  keeps := (sameFrames_record walk read field).keeps
  ended id ends := by
    have same : (record walk read field).outline.closingOf id = walk.1.outline.closingOf id :=
      told_of_sameDimension (dimension?_record walk read field id)
    rw [scopeIs_hasEnd] at ends ⊢
    rw [same]
    exact ends

theorem extends_grow {growth after : Growth} {marker : Marker}
    (grown : grow growth marker = .ok after) : Extends growth.outline after.outline := by
  rcases grow_eq_ok.mp grown with ⟨read, walk, -, run, rfl⟩
  exact (extends_run run).trans (extends_record walk read _)

theorem extends_growth {markers : List Marker} {before after : Growth}
    (grown : markers.foldlM grow before = .ok after) : Extends before.outline after.outline :=
  foldlM_induction (motive := fun growth => Extends before.outline growth.outline)
    (fun _ _ _ _ extended grown => extended.trans (extends_grow grown)) (.refl _) grown

/-! ## What stands aside -/

/-- The scopes that the further marker made, told by their numbers, stand aside. -/
structure Aside (move : Omission) (first last : Nat) (part whole : Outline) : Prop where
  places : ToAddress move.scope part whole
  /-- Its dimensions are mentioned by no other marker. -/
  single : ∀ id : Nat, id < part.scopes.size → first ≤ move.scope id → move.scope id < last →
    whole.scopeIs Scope.isArray (move.scope id) = false
  /-- Its dimensions do not end. -/
  endless : ∀ image : Nat, first ≤ image → image < last →
    whole.scopeIs Scope.hasEnd image = false

theorem Aside.of_extends {move : Omission} {first last : Nat}
    {part whole later laterWhole : Outline} (aside : Aside move first last later laterWhole)
    (extended : Extends part later) (extendedWhole : Extends whole laterWhole)
    (rooted : Rooted part) (laterRooted : Rooted later) (rootedWhole : Rooted whole)
    (laterRootedWhole : Rooted laterWhole) : Aside move first last part whole where
  places := aside.places.of_keeps extended.keeps extendedWhole.keeps rooted laterRooted
    rootedWhole laterRootedWhole
  single id bound begins ends := by
    by_contra array
    have array := Bool.of_not_eq_false array
    have later := aside.single id (bound.trans_le extended.keeps.size_le) begins ends
    rw [extendedWhole.keeps.scopeIs_isArray (lt_size_of_scopeIs array), array] at later
    cases later
  endless image begins ends := by
    by_contra ended
    have later := aside.endless image begins ends
    rw [extendedWhole.ended image (Bool.of_not_eq_false ended)] at later
    cases later

/-! ## One step -/

/-- The progress of a marker in both outlines: the same, or lost in the one and aside in
the other. -/
inductive Abreast (move : Omission) (part : Outline) (own image : Progress) : Prop
  | together (same : image = move.progress own)
  | astray (lost : own.lost = true) (closing : own.closing = true) (scope : ScopeId)
      (key : String) (still : Bool)
      (same : image = { move.progress own with scope := scope, key := key, lost := still })
      (beside : still = false → ∀ id : Nat, id < part.scopes.size → move.scope id ≠ scope)

/-- Two walks of a marker. -/
structure WalksAbreast (move : Omission) (base wholeBase : Growth) (own image : Walk) : Prop where
  covers : Covers move base wholeBase own.1 image.1
  progress : Abreast move own.1.outline own.2 image.2

variable {move : Omission} {base wholeBase part whole : Growth} {progress : Progress} {step : Step}

theorem Omission.entered_progress (id : Nat) (ended : Bool) :
    (move.progress progress).entered step (move.scope id) ended =
      move.progress (progress.entered step id ended) := by
  unfold Progress.entered
  cases terminates step <;> cases ended <;> simp [Omission.progress, Progress.enter] <;> rfl

variable {taken : List Step} {image : Progress} {after afterWhole : Walk}

/-- Behind a terminator a walk goes through the scopes that stand aside and leaves them as
they are. -/
theorem Covers.passes (covers : Covers move base wholeBase part whole)
    (aside : Aside move base.outline.scopes.size wholeBase.outline.scopes.size after.1.outline
      afterWhole.1.outline)
    (onTrack : image.lost = false) (closing : image.closing = true) {id : Nat}
    (known : whole.find? (image.keyAt step) = some id)
    (beside : ∀ own : Nat, own < part.outline.scopes.size → move.scope own ≠ id)
    (takingWhole : Taken whole image step afterWhole) :
    afterWhole = (whole, image.enter (image.keyAt step) id) := by
  have bound := (covers.keyedWhole.keyOf _ id known).2.1
  have reached := takingWhole.of_known onTrack known
  rcases covers.further bound beside with ⟨begins, ends⟩
  have goes : terminates step = false := by
    by_contra terminated
    have ended := takingWhole.hasEnd (Bool.of_not_eq_false terminated)
      (by rw [reached]; exact onTrack)
    have here : afterWhole.2.scope = id := by
      rw [reached]
      rfl
    rw [here, aside.endless id begins ends] at ended
    cases ended
  rw [reached, changed_of_passes goes fun _ => closing, modifyDimension_self]
  simp [Progress.entered, goes, Progress.enter]

/-- The walk that is lost stays so, and the other stays aside. -/
theorem Covers.strays (covers : Covers move base wholeBase part whole)
    (walkedWhole : AtTrail (whole, image) taken)
    (readable : Marker.Readable (trail (taken ++ [step])))
    (aside : Aside move base.outline.scopes.size wholeBase.outline.scopes.size after.1.outline
      afterWhole.1.outline)
    (lost : progress.lost = true) (closing : progress.closing = true) {scope : ScopeId}
    {key : String} {still : Bool}
    (same : image = { move.progress progress with scope := scope, key := key, lost := still })
    (beside : still = false → ∀ id : Nat, id < part.outline.scopes.size → move.scope id ≠ scope)
    (taking : Taken part progress step after) (takingWhole : Taken whole image step afterWhole) :
    WalksAbreast move base wholeBase after afterWhole := by
  have imageClosing : image.closing = true := by
    rw [same]
    exact closing
  have imageLost : image.lost = still := by rw [same]
  rw [taking.of_lost lost]
  cases still with
  | true =>
    rw [takingWhole.of_lost imageLost]
    exact ⟨covers, .astray lost closing scope key true same beside⟩
  | false =>
    cases known : whole.find? (image.keyAt step) with
    | none =>
      rw [takingWhole.of_closing imageLost known imageClosing]
      refine ⟨covers, .astray lost closing scope key true ?_ fun impossible => ?_⟩
      · rw [same]
        rfl
      · cases impossible
    | some id =>
      -- What lies in a scope that stands aside stands aside.
      have inside : ∀ own : Nat, own < part.outline.scopes.size → move.scope own ≠ id := by
        rintro own bound rfl
        rcases parent_of_find? walkedWhole readable imageLost known with ⟨other, found, link⟩
        have foundOwn := Array.getElem?_eq_getElem bound
        rcases covers.images own _ foundOwn with ⟨again, foundAgain, alike⟩
        cases found.symm.trans foundAgain
        rw [alike.parent] at link
        rcases Option.map_eq_some_iff.mp link with ⟨parent, ownLink, moved⟩
        have inner := covers.keyed.rooted.parent_lt foundOwn ownLink
        have there : image.scope = scope := by rw [same]
        exact beside rfl parent (inner.trans bound) (moved.trans there)
      rw [covers.passes aside imageLost imageClosing known inside takingWhole]
      refine ⟨covers, .astray lost closing id (image.keyAt step) false ?_ fun _ => inside⟩
      rw [same]
      rfl

/-- Both walks enter a scope that is known without the further marker. -/
theorem Covers.enters (covers : Covers move base wholeBase part whole)
    (onTrack : progress.lost = false) {id : Nat}
    (known : part.find? (progress.keyAt step) = some id) (taking : Taken part progress step after)
    (takingWhole : Taken whole (move.progress progress) step afterWhole) :
    WalksAbreast move base wholeBase after afterWhole := by
  have bound := (covers.keyed.keyOf _ id known).2.1
  have knownWhole : whole.find? ((move.progress progress).keyAt step) = some (move.scope id) :=
    covers.carried.find?_eq_some covers.keyed covers.keyedWhole known
  have reached := taking.of_known onTrack known
  have reachedWhole := takingWhole.of_known onTrack knownWhole
  have same := sameFrames_modifyDimension part id (progress.changed step)
  have sameWhole := sameFrames_modifyDimension whole (move.scope id)
    ((move.progress progress).changed step)
  have ends : ∀ other : Nat, other < part.outline.scopes.size →
      afterWhole.1.outline.endsOf (move.scope other) = move.ends (after.1.outline.endsOf other) := by
    intro other otherBound
    have place : (move.progress progress).place = move.place progress.place := rfl
    have scope : after.2.scope = id := by
      rw [reached]
      rfl
    have scopeWhole : afterWhole.2.scope = move.scope id := by
      rw [reachedWhole]
      rfl
    have lost : after.2.lost = false := by
      rw [reached]
      exact onTrack
    have lostWhole : afterWhole.2.lost = false := by
      rw [reachedWhole]
      exact onTrack
    by_cases here : terminates step = true ∧ id = other
    · rcases here with ⟨terminated, rfl⟩
      rw [(taking.endsOf id).1 ⟨terminated, lost, scope⟩,
        (takingWhole.endsOf _).1 ⟨terminated, lostWhole, scopeWhole⟩, place, covers.ends id bound,
        Omission.endAt_ends]
    · have elsewhere : ¬ (terminates step = true ∧ after.2.lost = false ∧ after.2.scope = other) :=
        fun ⟨terminated, _, there⟩ => here ⟨terminated, scope.symm.trans there⟩
      have elsewhereWhole : ¬ (terminates step = true ∧ afterWhole.2.lost = false ∧
          afterWhole.2.scope = move.scope other) := by
        rintro ⟨terminated, -, there⟩
        exact here ⟨terminated, covers.carried.injective covers.keyed covers.keyedWhole bound
          otherBound (scopeWhole.symm.trans there)⟩
      rw [(taking.endsOf other).2 elsewhere, (takingWhole.endsOf _).2 elsewhereWhole,
        covers.ends other otherBound]
  rw [reached, reachedWhole] at ends ⊢
  refine ⟨covers.of_sameFrames same rfl sameWhole rfl ends covers.slots covers.occurrences,
    .together ?_⟩
  rw [covers.scopeIs_hasEnd bound]
  exact Omission.entered_progress id _

theorem Omission.image_scopeMade (goes : terminates step = false) :
    move.Image (scopeMade part progress step) (scopeMade whole (move.progress progress) step) := by
  refine ⟨⟨rfl, rfl, ?_⟩, fun _ => rfl⟩
  rw [isArray_scopeMade _ _ goes, isArray_scopeMade _ _ goes]

/-- The one walk makes an object where the other finds one that the further marker made. -/
theorem Covers.finds (covers : Covers move base wholeBase part whole)
    (walkedWhole : AtTrail (whole, move.progress progress) taken)
    (readable : Marker.Readable (trail (taken ++ [step]))) (written : step.Written)
    (plain : step.Plain) (onTrack : progress.lost = false) (goes : terminates step = false)
    (known : whole.find? ((move.progress progress).keyAt step) =
      some (move.scope part.outline.scopes.size))
    (object : whole.outline.scopeIs Scope.isArray (move.scope part.outline.scopes.size) = false)
    {arrayKey : Option String}
    (keyed : Keyed (part.addScope (progress.keyAt step) (scopeMade part progress step) arrayKey))
    (silent : ∀ id, (part.addScope (progress.keyAt step) (scopeMade part progress step)
      arrayKey).outline.endsOf id = part.outline.endsOf id)
    (takingWhole : Taken whole (move.progress progress) step afterWhole) :
    WalksAbreast move base wholeBase
      (part.addScope (progress.keyAt step) (scopeMade part progress step) arrayKey,
        { progress.enter (progress.keyAt step) part.outline.scopes.size with
          opens := progress.opens ++ if repeats step then [part.outline.scopes.size] else [] })
      afterWhole := by
  rcases object_of_find? walkedWhole readable written plain onTrack goes known object with
    ⟨single, scope, found, link, access, plainly⟩
  have made : (scopeMade part progress step).isArray = false := by
    rw [isArray_scopeMade part progress goes, single]
  have alike : move.Image (scopeMade part progress step) scope := by
    refine ⟨⟨link, access, plainly.trans made.symm⟩, fun array => ?_⟩
    rw [made] at array
    cases array
  rw [takingWhole.of_known onTrack known, changed_of_not_repeats goes single,
    modifyDimension_self]
  refine ⟨covers.shared keyed found alike made silent, .together ?_⟩
  simp [Progress.entered, goes, single, Omission.progress, Progress.enter]
  rfl

/-- Both walks make a scope, or the one makes it and the other finds an object that the
further marker made. -/
theorem Covers.makes (covers : Covers move base wholeBase part whole)
    (walked : AtTrail (part, progress) taken)
    (walkedWhole : AtTrail (whole, move.progress progress) taken)
    (readable : Marker.Readable (trail (taken ++ [step]))) (written : step.Written)
    (plain : step.Plain) (onTrack : progress.lost = false)
    (unknown : part.find? (progress.keyAt step) = none) (opening : progress.closing = false)
    (taking : Taken part progress step after)
    (takingWhole : Taken whole (move.progress progress) step afterWhole)
    (aside : Aside move base.outline.scopes.size wholeBase.outline.scopes.size after.1.outline
      afterWhole.1.outline) : WalksAbreast move base wholeBase after afterWhole := by
  have silent := fun id => (taking.endsOf id).2
  rcases taking.of_unknown onTrack unknown opening with ⟨goes, arrayKey, rfl⟩
  have silent : ∀ id, (part.addScope (progress.keyAt step) (scopeMade part progress step)
      arrayKey).outline.endsOf id = part.outline.endsOf id :=
    fun id => silent id fun ends => by simp [goes] at ends
  have keyed := (keyed_made walked readable written plain onTrack goes unknown arrayKey).1
  cases knownWhole : whole.find? ((move.progress progress).keyAt step) with
  | none =>
    have silentWhole := fun id => (takingWhole.endsOf id).2 fun ends => by simp [goes] at ends
    rcases takingWhole.of_unknown onTrack knownWhole opening with ⟨-, arrayKeyWhole, rfl⟩
    have keyedWhole :=
      (keyed_made walkedWhole readable written plain onTrack goes knownWhole arrayKeyWhole).1
    have placed := ToAddress.new_of_made walked walkedWhole readable written plain onTrack onTrack
      goes unknown knownWhole aside.places
    refine ⟨covers.made keyed keyedWhole placed (Omission.image_scopeMade goes) silent silentWhole,
      .together ?_⟩
    cases again : repeats step <;> simp [Omission.progress, Progress.enter, placed] <;> rfl
  | some image =>
    have elsewhere : ∀ own : Nat, own < part.outline.scopes.size → move.scope own ≠ image :=
      fun own ownBound => covers.carried.ne_of_find? covers.keyed covers.keyedWhole unknown
        knownWhole ownBound
    rcases covers.further (covers.keyedWhole.keyOf _ image knownWhole).2.1 elsewhere with
      ⟨begins, ends⟩
    rw [takingWhole.of_known onTrack knownWhole] at aside
    have same := sameFrames_modifyDimension whole image ((move.progress progress).changed step)
    have placed := ToAddress.new_of_known walked walkedWhole readable written plain onTrack onTrack
      goes unknown knownWhole same aside.places
    subst placed
    have more : part.outline.scopes.size < (part.addScope (progress.keyAt step)
        (scopeMade part progress step) arrayKey).outline.scopes.size := by
      rw [size_addScope]
      exact Nat.lt_succ_self _
    have object : whole.outline.scopeIs Scope.isArray (move.scope part.outline.scopes.size) =
        false := by
      rw [← same.scopeIs_isArray]
      exact aside.single _ more begins ends
    exact covers.finds walkedWhole readable written plain onTrack goes knownWhole object keyed
      silent takingWhole

/-- A step keeps two walks abreast. -/
theorem WalksAbreast.onward
    (abreast : WalksAbreast move base wholeBase (part, progress) (whole, image))
    (walked : AtTrail (part, progress) taken) (walkedWhole : AtTrail (whole, image) taken)
    (readable : Marker.Readable (trail (taken ++ [step]))) (written : step.Written)
    (plain : step.Plain) (taking : Taken part progress step after)
    (takingWhole : Taken whole image step afterWhole)
    (aside : Aside move base.outline.scopes.size wholeBase.outline.scopes.size after.1.outline
      afterWhole.1.outline) : WalksAbreast move base wholeBase after afterWhole := by
  have covers := abreast.covers
  cases abreast.progress with
  | astray lost closing scope key still same beside =>
    exact covers.strays walkedWhole readable aside lost closing same beside taking takingWhole
  | together same =>
    subst same
    cases lost : progress.lost with
    | true =>
      rw [taking.of_lost lost, takingWhole.of_lost lost]
      exact abreast
    | false =>
      cases known : part.find? (progress.keyAt step) with
      | some id => exact covers.enters lost known taking takingWhole
      | none =>
        cases closing : progress.closing with
        | false =>
          exact covers.makes walked walkedWhole readable written plain lost known closing taking
            takingWhole aside
        | true =>
          rw [taking.of_closing lost known closing]
          cases knownWhole : whole.find? ((move.progress progress).keyAt step) with
          | none =>
            rw [takingWhole.of_closing lost knownWhole closing]
            exact ⟨covers, .together rfl⟩
          | some id =>
            have elsewhere : ∀ own : Nat, own < part.outline.scopes.size → move.scope own ≠ id :=
              fun own bound => covers.carried.ne_of_find? covers.keyed covers.keyedWhole known
                knownWhole bound
            have onTrack : (move.progress progress).lost = false := lost
            rw [covers.passes aside onTrack closing knownWhole elsewhere takingWhole]
            refine ⟨covers, .astray rfl closing id ((move.progress progress).keyAt step) false ?_
              fun _ => elsewhere⟩
            simp [Progress.enter, Progress.lose, Omission.progress, lost]

end Stencil.Outline
