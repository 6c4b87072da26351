import Stencil.Outline.Growth
import Stencil.Proofs.Fallible

namespace Stencil.Outline

open Marker (Step GroupUse)

/-!
# What one step can do

A step of a walk is one of few things: it passes by when the walk is lost, it
gets lost, it enters a scope that exists, perhaps adding conditions to it, it
ends a repetition, or it makes a scope.  `Taken` lists them with all that is
known in each case.  Whatever holds along a walk is proved from this list.
-/

/-- The key under which a step looks for its scope. -/
def Progress.keyAt (progress : Progress) (step : Step) : String :=
  progress.key ++ step.attributeKey ++ step.groupKey

/-- What a scope made by a step is. -/
def kindMade : Step → Kind
  | .group _ _ (.loop iterator conditions) => .array ⟨iterator, none, none, conditions⟩
  | _ => .object

/-- How a scope made by a step is reached. -/
def accessMade : Step → Access
  | .object name => .field name
  | .group name follows (.search conditions) =>
    .search (if follows then some name else none) conditions
  | .group name follows _ => if follows then .field name else .whole

/-- The name of a scope made by a step. -/
def nameMade : Step → String
  | .object name => name
  | .group name _ _ => name

/-- Whether a step ends a repetition. -/
def terminates : Step → Bool
  | .group _ _ (.terminate _) => true
  | _ => false

/-- Whether a scope made by a step is a dimension. -/
def repeats : Step → Bool
  | .group _ _ (.loop _ _) => true
  | _ => false

/-- The scope made by a step of a walk. -/
def scopeMade (growth : Growth) (progress : Progress) (step : Step) : Scope :=
  progress.newScope (nameMade step) (kindMade step) (accessMade step)
    (growth.outline.depthOf progress.scope + if repeats step then 1 else 0)

/-- The walk behind one step, case by case. -/
inductive Taken (growth : Growth) (progress : Progress) (step : Step) : Walk → Prop where
  /-- A scope looked for earlier was missing. -/
  | astray (lost : progress.lost = true) : Taken growth progress step (growth, progress)
  /-- The scope is missing, and a terminator was passed. -/
  | missing (onTrack : progress.lost = false)
      (unknown : growth.find? (progress.keyAt step) = none)
      (closing : progress.closing = true) :
      Taken growth progress step (growth, progress.lose)
  /-- The scope exists. -/
  | found (id : ScopeId) (onTrack : progress.lost = false)
      (known : growth.find? (progress.keyAt step) = some id) (goes : terminates step = false)
      (passes : repeats step = true → progress.closing = true) :
      Taken growth progress step (growth, progress.enter (progress.keyAt step) id)
  /-- The dimension exists and gets the conditions of this marker. -/
  | narrowed (id : ScopeId) (name : String) (follows : Bool) (iterator : String)
      (conditions : List Condition) (onTrack : progress.lost = false)
      (known : growth.find? (progress.keyAt step) = some id)
      (use : step = .group name follows (.loop iterator conditions))
      (opening : progress.closing = false) :
      Taken growth progress step
        (growth.modifyDimension id fun dimension =>
            { dimension with conditions := addConditions dimension.conditions conditions },
          progress.enter (progress.keyAt step) id)
  /-- The scope is made. -/
  | made (arrayKey : Option String) (onTrack : progress.lost = false)
      (unknown : growth.find? (progress.keyAt step) = none)
      (opening : progress.closing = false) (goes : terminates step = false) :
      Taken growth progress step
        (growth.addScope (progress.keyAt step) (scopeMade growth progress step) arrayKey,
          { progress.enter (progress.keyAt step) growth.outline.scopes.size with
            opens := progress.opens ++
              if repeats step then [growth.outline.scopes.size] else [] })
  /-- The dimension exists and is ended. -/
  | ended (id : ScopeId) (name : String) (follows : Bool) (iterator : String)
      (onTrack : progress.lost = false)
      (known : growth.find? (progress.keyAt step) = some id)
      (use : step = .group name follows (.terminate iterator))
      (same : (growth.outline.scopes[id]?.bind Scope.dimension?).map Dimension.iterator =
        some iterator) :
      Taken growth progress step
        (growth.modifyDimension id (Dimension.terminate progress.place),
          { progress.enter (progress.keyAt step) id with
            closing := true
            closes := if growth.outline.scopeIs Scope.hasEnd id then progress.closes
              else progress.closes ++ [id] })

variable {growth : Growth} {progress : Progress} {step : Step} {after : Walk}

theorem walkStep_of_lost (lost : progress.lost = true) :
    walkStep (growth, progress) step = .ok (growth, progress) := by
  simp only [walkStep, lost, if_true]

/-! ## Where the scope of a step is known -/

/-- What a step does to a dimension that exists. -/
def Progress.changed (progress : Progress) (step : Step) (dimension : Dimension) : Dimension :=
  match step with
  | .group _ _ (.loop _ conditions) =>
    if progress.closing then dimension
    else { dimension with conditions := addConditions dimension.conditions conditions }
  | .group _ _ (.terminate _) => dimension.terminate progress.place
  | _ => dimension

/-- A marker in a scope that exists. -/
def Progress.entered (progress : Progress) (step : Step) (id : ScopeId) (ended : Bool) :
    Progress :=
  { progress.enter (progress.keyAt step) id with
    closing := progress.closing || terminates step
    closes := if terminates step && !ended then progress.closes ++ [id] else progress.closes }

theorem modifyDimension_self (growth : Growth) (id : ScopeId) :
    growth.modifyDimension id (fun dimension => dimension) = growth := by
  have same : ∀ change : Scope → Scope, (∀ scope, change scope = scope) →
      growth.modifyScope id change = growth := by
    intro change still
    have scopes : growth.outline.scopes.modify id change = growth.outline.scopes := by
      apply Array.ext_getElem?
      intro other
      rw [Array.getElem?_modify]
      split
      · cases growth.outline.scopes[other]? with
        | none => rfl
        | some scope => rw [Option.map_some, still scope]
      · rfl
    unfold Growth.modifyScope
    rw [scopes]
  apply same
  intro scope
  cases scope with
  | mk name kind parent access depth opened slots =>
    cases kind with
    | object => rfl
    | array dimension => rfl

/-- Only a dimension that gets more conditions or an end is changed. -/
theorem changed_of_passes (goes : terminates step = false)
    (passes : repeats step = true → progress.closing = true) :
    progress.changed step = fun dimension => dimension := by
  funext dimension
  match step, goes, passes with
  | .object _, _, _ => rfl
  | .group _ _ (.search _), _, _ => rfl
  | .group _ _ (.loop _ _), _, passes => simp [Progress.changed, passes rfl]

theorem changed_of_not_repeats (goes : terminates step = false) (single : repeats step = false) :
    progress.changed step = fun dimension => dimension :=
  changed_of_passes goes fun again => absurd (single.symm.trans again) Bool.false_ne_true

theorem changed_loop (opening : progress.closing = false) (name : String) (follows : Bool)
    (iterator : String) (conditions : List Condition) :
    progress.changed (.group name follows (.loop iterator conditions)) =
      fun dimension => { dimension with
        conditions := addConditions dimension.conditions conditions } := by
  funext dimension
  simp [Progress.changed, opening]

/-- A step to a scope that exists goes there. -/
theorem walkStep_of_known (onTrack : progress.lost = false) (goes : terminates step = false)
    {id : ScopeId} (known : growth.find? (progress.keyAt step) = some id) :
    walkStep (growth, progress) step =
      .ok (growth.modifyDimension id (progress.changed step),
        progress.enter (progress.keyAt step) id) := by
  unfold Progress.keyAt at known
  match step, goes, known with
  | .object name, goes, known =>
    rw [changed_of_not_repeats goes rfl, modifyDimension_self]
    simp only [walkStep, onTrack, Bool.false_eq_true, if_false, walkObject, known]
    rfl
  | .group name follows (.search conditions), goes, known =>
    rw [changed_of_not_repeats goes rfl, modifyDimension_self]
    simp only [walkStep, onTrack, Bool.false_eq_true, if_false, walkSearch, known]
    rfl
  | .group name follows (.loop iterator conditions), goes, known =>
    simp only [walkStep, onTrack, Bool.false_eq_true, if_false, walkLoop, known]
    cases closing : progress.closing with
    | true =>
      rw [changed_of_passes goes fun _ => closing, modifyDimension_self]
      rfl
    | false =>
      rw [changed_loop closing]
      rfl

/-! ## Where it is not -/

/-- The key of an attribute under that of a scope. -/
def attributeKey (key name : String) : String := key ++ ("." ++ name)

/-- The key under which a step marks an attribute as an array. -/
def Progress.arrayKeyAt (progress : Progress) : Step → Option String
  | .group name true _ => some (attributeKey progress.key name)
  | _ => none

/-- A step uses an attribute in one way that is used in the other. -/
def Growth.refuses (growth : Growth) (progress : Progress) : Step → Bool
  | .object name => growth.arrayKeys.contains (attributeKey progress.key name)
  | .group name follows _ => follows && (growth.find? (attributeKey progress.key name)).isSome

/-- The progress of a marker in the scope that it has made. -/
def Progress.makes (progress : Progress) (step : Step) (id : ScopeId) : Progress :=
  { progress.enter (progress.keyAt step) id with
    opens := progress.opens ++ if repeats step then [id] else [] }

theorem keyAt_object (progress : Progress) (name : String) :
    progress.keyAt (.object name) = attributeKey progress.key name := by
  simp [Progress.keyAt, Step.attributeKey, Step.groupKey, attributeKey]

/-- A step to a scope that does not exist gets lost behind a terminator.  In front of one it
makes the scope, unless it uses an attribute in another way. -/
theorem walkStep_of_unknown (onTrack : progress.lost = false) (goes : terminates step = false)
    (unknown : growth.find? (progress.keyAt step) = none) :
    walkStep (growth, progress) step =
      if progress.closing then .ok (growth, progress.lose)
      else if growth.refuses progress step then .error (progress.mixedUse (nameMade step))
      else .ok (growth.addScope (progress.keyAt step) (scopeMade growth progress step)
        (progress.arrayKeyAt step), progress.makes step growth.outline.scopes.size) := by
  unfold Progress.keyAt at unknown
  match step, goes, unknown with
  | .object name, _, unknown =>
    simp only [walkStep, onTrack, Bool.false_eq_true, if_false, walkObject, unknown]
    rw [Growth.refuses, ← keyAt_object]
    simp [Progress.makes, Progress.enter, repeats]
    rfl
  | .group name follows (.search conditions), _, unknown =>
    simp only [walkStep, onTrack, Bool.false_eq_true, if_false, walkSearch, unknown]
    cases follows <;> simp [Growth.refuses, Progress.makes, Progress.enter, repeats] <;> rfl
  | .group name follows (.loop iterator conditions), _, unknown =>
    simp only [walkStep, onTrack, Bool.false_eq_true, if_false, walkLoop, unknown]
    cases follows <;> rfl

/-! ## Where it is ended -/

theorem findTerminated_eq_ok {key iterator : String} {id : ScopeId}
    (run : findTerminated (growth, progress) key iterator = .ok id) :
    growth.find? key = some id ∧
      (growth.outline.scopes[id]?.bind Scope.dimension?).map Dimension.iterator =
        some iterator := by
  unfold findTerminated at run
  cases known : growth.find? key with
  | none => simp [known] at run
  | some other =>
    simp only [known] at run
    split at run
    · next same =>
      cases run
      exact ⟨rfl, same⟩
    · cases run

theorem walkStep_terminate {name : String} {follows : Bool} {iterator : String}
    (onTrack : progress.lost = false) :
    walkStep (growth, progress) (.group name follows (.terminate iterator)) =
      walkTerminator (growth, progress)
        (progress.keyAt (.group name follows (.terminate iterator))) iterator := by
  simp only [walkStep, onTrack, Bool.false_eq_true, if_false]
  rfl

theorem taken_of_walkTerminator {name : String} {follows : Bool} {iterator : String}
    (onTrack : progress.lost = false)
    (run : walkTerminator (growth, progress)
      (progress.keyAt (.group name follows (.terminate iterator))) iterator = .ok after) :
    Taken growth progress (.group name follows (.terminate iterator)) after := by
  unfold walkTerminator at run
  obtain ⟨id, reached, run⟩ := bind_eq_ok.mp run
  obtain ⟨known, same⟩ := findTerminated_eq_ok reached
  cases run
  have ended := Taken.ended id name follows iterator onTrack known rfl same
  cases first : growth.outline.scopeIs Scope.hasEnd id with
  | true => simpa [first] using ended
  | false => simpa [first] using ended

/-- In front of a terminator a step makes the scope that does not exist, where it uses no
attribute in another way. -/
theorem made_of_walkStep (onTrack : progress.lost = false)
    (unknown : growth.find? (progress.keyAt step) = none) (opening : progress.closing = false)
    (run : walkStep (growth, progress) step = .ok after) :
    terminates step = false ∧ growth.refuses progress step = false ∧
      after = (growth.addScope (progress.keyAt step) (scopeMade growth progress step)
        (progress.arrayKeyAt step), progress.makes step growth.outline.scopes.size) := by
  cases goes : terminates step with
  | true =>
    match step, goes, unknown, run with
    | .group name follows (.terminate iterator), _, unknown, run =>
      rw [walkStep_terminate onTrack] at run
      rcases bind_eq_ok.mp run with ⟨id, reached, -⟩
      have known := (findTerminated_eq_ok reached).1
      rw [unknown] at known
      cases known
  | false =>
    rw [walkStep_of_unknown onTrack goes unknown, if_neg (ne_true_of_eq_false opening)] at run
    cases refused : growth.refuses progress step with
    | true =>
      rw [if_pos refused] at run
      cases run
    | false =>
      rw [if_neg (ne_true_of_eq_false refused)] at run
      cases run
      exact ⟨rfl, rfl, rfl⟩

/-- A step that ends no repetition is one of those listed, if it does not fail. -/
theorem taken_of_goes (onTrack : progress.lost = false) (goes : terminates step = false)
    (run : walkStep (growth, progress) step = .ok after) : Taken growth progress step after := by
  cases known : growth.find? (progress.keyAt step) with
  | some id =>
    rw [walkStep_of_known onTrack goes known] at run
    cases run
    by_cases passes : repeats step = true → progress.closing = true
    · rw [changed_of_passes goes passes, modifyDimension_self]
      exact .found id onTrack known goes passes
    · rcases Classical.not_imp.mp passes with ⟨again, opening⟩
      match step, again, known with
      | .group name follows (.loop iterator conditions), _, known =>
        have opening := eq_false_of_ne_true opening
        rw [changed_loop opening]
        exact .narrowed id name follows iterator conditions onTrack known rfl opening
  | none =>
    cases closing : progress.closing with
    | true =>
      rw [walkStep_of_unknown onTrack goes known, if_pos closing] at run
      cases run
      exact .missing onTrack known closing
    | false =>
      rcases made_of_walkStep onTrack known closing run with ⟨-, -, rfl⟩
      exact .made _ onTrack known closing goes

/-- Every step that does not fail is one of those listed. -/
theorem taken_of_walkStep (run : walkStep (growth, progress) step = .ok after) :
    Taken growth progress step after := by
  cases lost : progress.lost with
  | true =>
    rw [walkStep_of_lost lost] at run
    cases run
    exact .astray lost
  | false =>
    cases goes : terminates step with
    | false => exact taken_of_goes lost goes run
    | true =>
      match step, goes, run with
      | .group name follows (.terminate iterator), _, run =>
        rw [walkStep_terminate lost] at run
        exact taken_of_walkTerminator lost run

/-! ## What is refused -/

/-- A terminator is refused for the repetition that it should end. -/
theorem findTerminated_eq_error {key iterator : String} {error : Error}
    (run : findTerminated (growth, progress) key iterator = .error error) :
    ∃ fault counterpart, error =
      .brokenRepetition progress.marker.path progress.marker.offset fault counterpart := by
  unfold findTerminated at run
  cases known : growth.find? key with
  | none =>
    simp only [known] at run
    cases run
    exact ⟨_, _, rfl⟩
  | some id =>
    simp only [known] at run
    split at run
    · cases run
    · cases run
      exact ⟨_, _, rfl⟩

/-- A step is refused where it uses an attribute in another way or ends no repetition. -/
theorem walkStep_eq_error {error : Error} (run : walkStep (growth, progress) step = .error error) :
    progress.lost = false ∧
      ((terminates step = false ∧ growth.refuses progress step = true ∧
          error = progress.mixedUse (nameMade step)) ∨
        ∃ fault counterpart, error =
          .brokenRepetition progress.marker.path progress.marker.offset fault counterpart) := by
  cases lost : progress.lost with
  | true =>
    rw [walkStep_of_lost lost] at run
    cases run
  | false =>
    refine ⟨rfl, ?_⟩
    cases goes : terminates step with
    | true =>
      match step, goes, run with
      | .group name follows (.terminate iterator), _, run =>
        rw [walkStep_terminate lost] at run
        rcases bind_eq_error.mp run with fails | ⟨id, -, impossible⟩
        · exact .inr (findTerminated_eq_error fails)
        · cases impossible
    | false =>
      cases known : growth.find? (progress.keyAt step) with
      | some id =>
        rw [walkStep_of_known lost goes known] at run
        cases run
      | none =>
        rw [walkStep_of_unknown lost goes known] at run
        split at run
        · cases run
        · split at run
          · next refused =>
            cases run
            exact .inl ⟨rfl, refused, rfl⟩
          · cases run

/-! ## The walk behind a step -/

theorem Taken.of_lost (taken : Taken growth progress step after) (lost : progress.lost = true) :
    after = (growth, progress) := by
  cases taken <;> simp_all

theorem Taken.of_known (taken : Taken growth progress step after) (onTrack : progress.lost = false)
    {id : ScopeId} (known : growth.find? (progress.keyAt step) = some id) :
    after = (growth.modifyDimension id (progress.changed step),
      progress.entered step id (growth.outline.scopeIs Scope.hasEnd id)) := by
  cases taken with
  | astray lost => simp [lost] at onTrack
  | missing _ unknown => simp [known] at unknown
  | found other _ same goes passes =>
    rw [known] at same
    cases same
    rw [changed_of_passes goes passes, modifyDimension_self]
    simp [Progress.entered, goes, Progress.enter]
  | narrowed other name follows iterator conditions _ same use opening =>
    rw [known] at same
    cases same
    subst use
    have goes : terminates (.group name follows (.loop iterator conditions)) = false := rfl
    rw [changed_loop opening]
    simp [Progress.entered, goes, Progress.enter]
  | made _ _ unknown => simp [known] at unknown
  | ended other name follows iterator _ same use _ =>
    rw [known] at same
    cases same
    subst use
    have ends : terminates (.group name follows (.terminate iterator)) = true := rfl
    have terminated : progress.changed (.group name follows (.terminate iterator)) =
        Dimension.terminate progress.place := rfl
    rw [terminated]
    cases ended : growth.outline.scopeIs Scope.hasEnd id <;>
      simp [Progress.entered, ends, Progress.enter]

theorem Taken.of_closing (taken : Taken growth progress step after)
    (onTrack : progress.lost = false) (unknown : growth.find? (progress.keyAt step) = none)
    (closing : progress.closing = true) : after = (growth, progress.lose) := by
  cases taken <;> simp_all

theorem Taken.of_unknown (taken : Taken growth progress step after)
    (onTrack : progress.lost = false) (unknown : growth.find? (progress.keyAt step) = none)
    (opening : progress.closing = false) :
    terminates step = false ∧ ∃ arrayKey, after =
      (growth.addScope (progress.keyAt step) (scopeMade growth progress step) arrayKey,
        { progress.enter (progress.keyAt step) growth.outline.scopes.size with
          opens := progress.opens ++
            if repeats step then [growth.outline.scopes.size] else [] }) := by
  cases taken with
  | made arrayKey _ _ _ goes => exact ⟨goes, arrayKey, rfl⟩
  | astray | missing | found | narrowed | ended => simp_all

end Stencil.Outline
