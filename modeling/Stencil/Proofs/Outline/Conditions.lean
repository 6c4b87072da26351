import Stencil.Proofs.Condition.Repeated
import Stencil.Proofs.Outline.Origins
import Stencil.Proofs.Outline.Undivided

namespace Stencil.Outline

open Condition (allHold allHold_iff Bounded)
open Marker (Step)

/-!
# The conditions of a dimension

A dimension is made with the conditions of the group that mentions it first, and gets those
of every further group that leads to it, unless the marker has passed a terminator.  So an
element satisfies the conditions of a dimension just if it satisfies every condition that
some marker put there.  Where a condition is put, how often, and in which order
makes no difference to what is kept.
-/

/-- The conditions that a step puts on the elements of the dimension to which it leads. -/
def narrowing : Step → List Condition
  | .group _ _ (.loop _ conditions) => conditions
  | _ => []

/-- The conditions of a dimension; a scope that is none has none. -/
def conditionsOf (outline : Outline) (id : ScopeId) : List Condition :=
  ((outline.scopes[id]?.bind Scope.dimension?).map Dimension.conditions).getD []

theorem conditionsOf_eq {outline : Outline} {id : Nat} {scope : Scope}
    (found : outline.scopes[id]? = some scope) : outline.conditionsOf id = scope.conditions := by
  simp [conditionsOf, found, Scope.conditions]

/-- Some conditions hold of an element just if all that were written do. -/
structure Collects (written : Condition → Prop) (conditions : List Condition) : Prop where
  bounded : Bounded conditions
  holds : ∀ element index length, allHold conditions element index length = true ↔
    ∀ condition, written condition → condition.holds element index length = true

section

variable {written others : Condition → Prop} {held added : List Condition}

theorem Collects.congr (collects : Collects written held)
    (same : ∀ condition, others condition ↔ written condition) : Collects others held := by
  have equal : others = written := funext fun condition => propext (same condition)
  rw [equal]
  exact collects

theorem Collects.add (collects : Collects written held) (bounded : Bounded added) :
    Collects (fun condition => written condition ∨ condition ∈ added) (addConditions held added) where
  bounded := bounded_addConditions collects.bounded bounded
  holds element index length := by
    rw [allHold_addConditions collects.bounded bounded, Bool.and_eq_true_iff, collects.holds,
      allHold_iff]
    simp only [or_imp, forall_and]

/-- The conditions of a new dimension stay as they are written. -/
theorem Collects.fresh (collects : Collects written []) (bounded : Bounded added) :
    Collects (fun condition => written condition ∨ condition ∈ added) added where
  bounded := bounded
  holds element index length := by
    have earlier := (collects.holds element index length).mp rfl
    rw [allHold_iff]
    simp only [or_imp, forall_and]
    exact ⟨fun all => ⟨earlier, all⟩, fun all => all.2⟩

end

/-! ## Steps -/

variable {growth : Growth} {progress : Progress} {step : Step} {after : Walk}
  {written : Condition → Prop}

/-- A number is that of a dimension, or of no scope so far. -/
def Repeats (outline : Outline) (id : ScopeId) : Prop :=
  ∀ scope, outline.scopes[id]? = some scope → scope.isArray = true

theorem Repeats.of_keeps {before after : Outline} {id : ScopeId} (repeated : Repeats after id)
    (keeps : Keeps before after) : Repeats before id := by
  intro scope found
  rcases keeps id scope found with ⟨later, foundLater, same⟩
  exact (congrArg Frame.repeated same).symm.trans (repeated later foundLater)

theorem conditionsOf_of_size_le {outline : Outline} {id : Nat}
    (beyond : outline.scopes.size ≤ id) : outline.conditionsOf id = [] := by
  have unknown : outline.scopes[id]? = none := Array.getElem?_eq_none beyond
  simp [conditionsOf, unknown]

theorem conditions_changed (progress : Progress) (step : Step) (dimension : Dimension) :
    (progress.changed step dimension).conditions =
      if progress.closing then dimension.conditions
      else addConditions dimension.conditions (narrowing step) := by
  match step with
  | .object _ => exact (ite_self _).symm
  | .group _ _ (.search _) => exact (ite_self _).symm
  | .group _ _ (.terminate _) => exact (ite_self _).symm
  | .group _ _ (.loop _ _) =>
    cases closing : progress.closing <;> simp [Progress.changed, closing, narrowing]

theorem conditions_scopeMade (goes : terminates step = false) :
    (scopeMade growth progress step).conditions = narrowing step := by
  match step, goes with
  | .object _, _ => rfl
  | .group _ _ (.search _), _ => rfl
  | .group _ _ (.loop _ _), _ => rfl

/-- A step puts conditions on a dimension. -/
def Puts (progress : Progress) (after : Walk) (id : ScopeId) : Prop :=
  progress.closing = false ∧ after.2.lost = false ∧ after.2.scope = id

/-- Steps leave the conditions of other dimensions alone. -/
theorem Taken.conditionsOf_elsewhere (taking : Taken growth progress step after) {id : Nat}
    (elsewhere : ¬ Puts progress after id) :
    after.1.outline.conditionsOf id = growth.outline.conditionsOf id := by
  cases lost : progress.lost with
  | true => rw [taking.of_lost lost]
  | false =>
    cases known : growth.find? (progress.keyAt step) with
    | some other =>
      rw [taking.of_known lost known] at elsewhere ⊢
      unfold conditionsOf
      rw [dimension?_modifyDimension]
      split
      · next here =>
        have closing : progress.closing = true :=
          Bool.of_not_eq_false fun opening => elsewhere ⟨opening, lost, here.symm⟩
        rw [Option.map_map]
        congr 2
        funext dimension
        exact (conditions_changed progress step dimension).trans (if_pos closing)
      · rfl
    | none =>
      cases closing : progress.closing with
      | true => rw [taking.of_closing lost known closing]
      | false =>
        rcases taking.of_unknown lost known closing with ⟨goes, arrayKey, rfl⟩
        rcases Nat.lt_trichotomy id growth.outline.scopes.size with old | here | beyond
        · unfold conditionsOf
          rw [getElem?_addScope_old old]
        · exact absurd ⟨closing, lost, here.symm⟩ elsewhere
        · rw [conditionsOf_of_size_le (Nat.le_of_lt beyond), conditionsOf_of_size_le]
          rw [size_addScope]
          exact beyond

/-- A step adds its conditions to those of the dimension to which it leads. -/
theorem Taken.collects (taking : Taken growth progress step after) (sound : Sound growth)
    {id : Nat} (repeated : Repeats growth.outline id) (bounded : Bounded (narrowing step))
    (here : Puts progress after id) (collects : Collects written (growth.outline.conditionsOf id)) :
    Collects (fun condition => written condition ∨ condition ∈ narrowing step)
      (after.1.outline.conditionsOf id) := by
  rcases here with ⟨opening, onTrack, rfl⟩
  cases lost : progress.lost with
  | true =>
    rw [taking.of_lost lost, lost] at onTrack
    cases onTrack
  | false =>
    cases known : growth.find? (progress.keyAt step) with
    | some id =>
      rw [taking.of_known lost known] at repeated ⊢ collects
      have found := Array.getElem?_eq_getElem (sound.known _ id known)
      rcases Option.isSome_iff_exists.mp (repeated _ found) with ⟨dimension, kind⟩
      have before : growth.outline.conditionsOf id = dimension.conditions := by
        simp [conditionsOf, found, kind]
      have now : (growth.modifyDimension id (progress.changed step)).outline.conditionsOf id =
          addConditions (growth.outline.conditionsOf id) (narrowing step) := by
        rw [before]
        unfold conditionsOf
        rw [dimension?_modifyDimension, if_pos rfl, found, Option.bind_some, kind]
        exact (conditions_changed progress step dimension).trans (by rw [opening]; rfl)
      show Collects _ ((growth.modifyDimension id (progress.changed step)).outline.conditionsOf id)
      rw [now]
      exact collects.add bounded
    | none =>
      rcases taking.of_unknown lost known opening with ⟨goes, arrayKey, rfl⟩
      have made := getElem?_addScope_new growth (progress.keyAt step)
        (scopeMade growth progress step) arrayKey
      show Collects _ ((growth.addScope _ _ arrayKey).outline.conditionsOf growth.outline.scopes.size)
      rw [conditionsOf_eq made, conditions_scopeMade goes]
      refine Collects.fresh ?_ bounded
      rw [← conditionsOf_of_size_le (Nat.le_refl growth.outline.scopes.size)]
      exact collects

/-! ## Walks -/

/-- A step writes a condition on a dimension, before any terminator of its path. -/
def Writes (id : ScopeId) (condition : Condition) (front : List Step) (step : Step) (walk : Walk) :
    Prop :=
  (∀ other ∈ front, terminates other = false) ∧ walk.2.lost = false ∧ walk.2.scope = id ∧
    condition ∈ narrowing step

theorem writes_iff {taken : List Step} {marker : Marker} {begun : Growth} {id : ScopeId}
    {condition : Condition}
    (run : taken.foldlM walkStep (begun, beginWalk begun marker) = .ok (growth, progress))
    (taking : Taken growth progress step after) :
    Writes id condition taken step after ↔
      Puts progress after id ∧ condition ∈ narrowing step := by
  have opens : after.2.lost = false →
      (progress.closing = false ↔ ∀ other ∈ taken, terminates other = false) := by
    intro onTrack
    have tracked : progress.lost = false := by
      by_contra lost
      rw [taking.of_lost (Bool.of_not_eq_false lost)] at onTrack
      exact lost onTrack
    rw [show progress.closing = _ from closing_run run tracked]
    simp
  unfold Writes Puts
  constructor
  · rintro ⟨straight, onTrack, here, listed⟩
    exact ⟨⟨(opens onTrack).mpr straight, onTrack, here⟩, listed⟩
  · rintro ⟨⟨straight, onTrack, here⟩, listed⟩
    exact ⟨(opens onTrack).mp straight, onTrack, here, listed⟩

/-- A walk adds the conditions that its steps write. -/
theorem collects_run {steps : List Step} {marker : Marker} {id : Nat}
    (run : steps.foldlM walkStep (growth, beginWalk growth marker) = .ok after)
    (sound : Sound growth) (bounded : ∀ step ∈ steps, Bounded (narrowing step))
    (repeated : Repeats after.1.outline id)
    (collects : Collects written (growth.outline.conditionsOf id)) :
    Collects (fun condition => written condition ∨
        TakesAlong (Writes id condition) (growth, beginWalk growth marker) steps)
      (after.1.outline.conditionsOf id) := by
  refine foldlM_induction_along
    (motive := fun taken walk => Repeats walk.1.outline id →
      Collects (fun condition => written condition ∨
          TakesAlong (Writes id condition) (growth, beginWalk growth marker) taken)
        (walk.1.outline.conditionsOf id)) ?_ ?_ run repeated
  · intro taken step before after within ran holds stepped repeated
    have taking := taken_of_walkStep stepped
    have repeatedBefore := repeated.of_keeps taking.keeps
    have earlier := holds repeatedBefore
    have split : ∀ condition, TakesAlong (Writes id condition) (growth, beginWalk growth marker)
        (taken ++ [step]) ↔ TakesAlong (Writes id condition) (growth, beginWalk growth marker)
          taken ∨ Puts before.2 after id ∧ condition ∈ narrowing step := by
      intro condition
      rw [takesAlong_append _ (foldlM_concat_eq_ok.mpr ⟨before, ran, stepped⟩),
        writes_iff ran taking]
    by_cases here : Puts before.2 after id
    · have walking := walking_run (walking_begin sound marker) ran
      have own := bounded step (within.subset (List.mem_append_right _ (.head _)))
      refine (taking.collects walking.1 repeatedBefore own here earlier).congr fun condition => ?_
      rw [split, ← or_assoc]
      simp [here]
    · rw [taking.conditionsOf_elsewhere here]
      refine earlier.congr fun condition => ?_
      rw [split]
      simp [here]
  · intro _
    refine collects.congr fun condition => ?_
    simp [TakesAlong]

/-! ## Markers -/

theorem conditionsOf_record (walk : Walk) (read : ReadMarker) (field : String) (id : Nat) :
    (record walk read field).outline.conditionsOf id = walk.1.outline.conditionsOf id :=
  congrArg (fun found => (Option.map Dimension.conditions found).getD [])
    (dimension?_record walk read field id)

theorem bounded_narrowing {marker : Marker} {read : ReadMarker}
    (reading : readMarker marker = .ok read) :
    ∀ step ∈ read.path.steps.1, Bounded (narrowing step) := by
  rcases readMarker_eq_ok reading with ⟨-, path⟩
  intro step listed
  match step, listed with
  | .group _ _ (.loop _ _), listed =>
    exact Marker.written_bounds_steps (Marker.read_of_readPath path) listed
  | .object _, _ => exact fun _ impossible => by cases impossible
  | .group _ _ (.search _), _ => exact fun _ impossible => by cases impossible
  | .group _ _ (.terminate _), _ => exact fun _ impossible => by cases impossible

/-- The conditions that some markers, in the order of the document, write on a dimension. -/
def WrittenBy (markers : List Marker) (id : ScopeId) (condition : Condition) : Prop :=
  ∃ earlier marker later, markers = earlier ++ marker :: later ∧
    Takes (Writes id condition) earlier marker

/-- A dimension collects what the markers write on it. -/
theorem collects_of_growth {markers : List Marker}
    (run : markers.foldlM grow Growth.start = .ok growth) {id : Nat}
    (repeated : Repeats growth.outline id) :
    Collects (WrittenBy markers id) (growth.outline.conditionsOf id) := by
  refine foldlM_induction_along
    (motive := fun taken growth => Repeats growth.outline id →
      Collects (WrittenBy taken id) (growth.outline.conditionsOf id)) ?_ ?_ run repeated
  · intro taken marker before after _ ran holds grown repeated
    have earlier := holds (repeated.of_keeps (keeps_grow grown))
    rcases grow_eq_ok.mp grown with ⟨read, walk, reading, steps, rfl⟩
    have walked := repeated.of_keeps (sameFrames_record walk read _).keeps
    rw [conditionsOf_record]
    refine (collects_run steps (sound_growth sound_start ran) (bounded_narrowing reading) walked
      earlier).congr fun condition => ?_
    rw [← takes_iff_takesAlong _ ran reading]
    exact exists_split_concat (fun earlier marker => Takes (Writes id condition) earlier marker)
      taken marker
  · intro repeated
    have none : Growth.start.outline.conditionsOf id = [] := by
      cases id with
      | zero => rfl
      | succ => rfl
    rw [none]
    refine ⟨fun _ impossible => (by cases impossible), fun element index length => ?_⟩
    refine ⟨fun _ condition wrote => ?_, fun _ => rfl⟩
    rcases wrote with ⟨earlier, marker, later, impossible, -⟩
    simp at impossible

end Stencil.Outline
