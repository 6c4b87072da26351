import Stencil.Proofs.Marker.Steps
import Stencil.Proofs.Meaning.Nested
import Stencil.Proofs.Outline.Taken

namespace Stencil.Marker

open Meaning (kept keep_eq_kept)

/-!
# Following a path

A path without iterators leads to one value.  Each segment follows an attribute, and each
of its groups finds an element of the array reached; the first segment stands for the
payload.  Told along the steps of the path it is the same value, since every step goes
on from what the one before it reached.
-/

/-! ## Paths without iterators -/

/-- No group of the path has an iterator. -/
def Path.Unrepeated (path : Path) : Prop :=
  ∀ segment ∈ path.segments, ∀ group ∈ segment.groups, group.iterator = none

instance (path : Path) : Decidable path.Unrepeated :=
  inferInstanceAs (Decidable (∀ segment ∈ path.segments, ∀ group ∈ segment.groups,
    group.iterator = none))

/-- Such a path ends no repetition. -/
theorem Path.Unrepeated.not_terminates {path : Path} (unrepeated : path.Unrepeated)
    (read : ∀ segment ∈ path.segments, segment.Read) : path.terminates = false := by
  unfold terminates
  refine List.any_eq_false.mpr fun segment listed => ?_
  rw [Bool.not_eq_true]
  refine List.any_eq_false.mpr fun group inside ends => ?_
  have named := ((read segment listed).groups group inside).ends ends
  rw [unrepeated segment listed group inside] at named
  cases named

/-- A step to an attribute, or one that searches. -/
def Step.Direct (step : Step) : Prop :=
  Outline.terminates step = false ∧ Outline.repeats step = false

theorem Group.use_of_unrepeated {group : Group} (unrepeated : group.iterator = none) :
    group.use = .search group.conditions := by
  unfold use
  rw [unrepeated]

theorem Path.Unrepeated.direct {path : Path} (unrepeated : path.Unrepeated) :
    ∀ step ∈ path.steps.1, step.Direct := by
  intro step member
  rcases source_of_mem_steps member with ⟨segment, listed, rfl | ⟨group, inside, follows, rfl⟩⟩
  · exact ⟨rfl, rfl⟩
  · rw [Group.use_of_unrepeated (unrepeated segment listed group inside)]
    exact ⟨rfl, rfl⟩

/-! ## Values -/

/-- The first element of an array that satisfies the conditions of a group. -/
def Group.find? (group : Group) (value : Option Value) : Option Value :=
  (kept group.conditions (Value.elements value)).head?

/-- A search of the outline finds that element. -/
theorem Group.reach_search (group : Group) (value : Option Value) :
    (Access.search none group.conditions).reach value = group.find? value := by
  rw [Access.reach, keep_eq_kept]
  rfl

/-- What groups find one after the other. -/
def findThrough (groups : List Group) (value : Option Value) : Option Value :=
  groups.foldl (fun found group => group.find? found) value

/-- Follow the attribute of a segment and search behind it. -/
def Segment.follow (value : Option Value) (segment : Segment) : Option Value :=
  findThrough segment.groups (value.bind fun outer => outer.field? segment.name)

/-- The value a path leads to from the payload. -/
def Path.follow (path : Path) (payload : Value) : Option Value :=
  match path.segments with
  | [] => some payload
  | first :: rest => rest.foldl Segment.follow (findThrough first.groups (some payload))

/-! ## Values along steps -/

/-- What steps lead to, each from what the one before it reached. -/
def reached (value : Option Value) (steps : List Step) : Option Value :=
  steps.foldl (fun found step => (Outline.accessMade step).reach found) value

theorem reached_append (value : Option Value) (front back : List Step) :
    reached value (front ++ back) = reached (reached value front) back :=
  List.foldl_append ..

/-- Groups behind a value search it one after the other. -/
theorem reached_groupSteps {name : String} {groups : List Group}
    (unrepeated : ∀ group ∈ groups, group.iterator = none) :
    ∀ value, reached value (groupSteps name false groups) = findThrough groups value := by
  induction groups with
  | nil => exact fun _ => rfl
  | cons group rest ih =>
    intro value
    rw [groupSteps, Group.use_of_unrepeated (unrepeated group (.head _))]
    refine (ih (fun other member => unrepeated other (.tail _ member)) _).trans ?_
    exact congrArg (findThrough rest) (group.reach_search value)

theorem reached_segmentSteps {segment : Segment}
    (unrepeated : ∀ group ∈ segment.groups, group.iterator = none) (value : Option Value) :
    reached value segment.steps = segment.follow value := by
  unfold Segment.steps Segment.follow
  cases groups : segment.groups with
  | nil => rfl
  | cons group rest =>
    rw [groups] at unrepeated
    rw [List.isEmpty_cons, if_neg (by decide), groupSteps,
      Group.use_of_unrepeated (unrepeated group (.head _))]
    refine (reached_groupSteps (fun other member => unrepeated other (.tail _ member)) _).trans ?_
    exact congrArg (findThrough rest)
      (group.reach_search (value.bind fun outer => outer.field? segment.name))

/-- The empty name designates the value itself. -/
theorem bind_field?_empty (value : Option Value) :
    (value.bind fun outer => outer.field? "") = value := by
  cases value <;> rfl

theorem reached_tailSteps {segments : List Segment}
    (unrepeated : ∀ segment ∈ segments, ∀ group ∈ segment.groups, group.iterator = none) :
    ∀ value, ((reached value (tailSteps segments).1).bind fun outer =>
        outer.field? (tailSteps segments).2) = segments.foldl Segment.follow value := by
  induction segments with
  | nil => exact bind_field?_empty
  | cons segment rest ih =>
    intro value
    have own := reached_segmentSteps (unrepeated segment (.head _)) value
    cases rest with
    | nil =>
      unfold tailSteps
      split
      · next empty =>
        rw [List.foldl_cons, List.foldl_nil, Segment.follow, List.isEmpty_iff.mp empty]
        rfl
      · rw [own, bind_field?_empty]
        rfl
    | cons next more =>
      unfold tailSteps
      simp only
      rw [reached_append, own, ih fun other member => unrepeated other (.tail _ member)]
      rfl

/-- The attribute to insert, told along the steps of a path, is what the path leads to. -/
theorem Path.Unrepeated.follow {path : Path} (unrepeated : path.Unrepeated) (payload : Value) :
    ((reached (some payload) path.steps.1).bind fun outer => outer.field? path.steps.2) =
      path.follow payload := by
  unfold steps Path.follow
  cases segments : path.segments with
  | nil => exact bind_field?_empty _
  | cons first rest =>
    unfold Unrepeated at unrepeated
    rw [segments] at unrepeated
    simp only
    rw [reached_append, reached_groupSteps (unrepeated first (.head _)),
      reached_tailSteps fun segment member => unrepeated segment (.tail _ member)]

end Stencil.Marker
