import Stencil.Marker

namespace Stencil.Marker

/-!
# Paths as steps

Reading a path from the payload on, every attribute and every group is one step
to an inner scope, up to the attribute that is inserted.  The first segment
stands for the payload and is no step, whatever its name.

Steps that are written alike lead to the same scope.  A key is the text of a
sequence of steps with everything left out that does not tell scopes apart: the
names of iterators and the conditions of repetitions.
-/

/-- What a group does with the array it stands behind. -/
inductive GroupUse where
  /-- Repeat it under the name of an iterator. -/
  | loop (iterator : String) (conditions : List Condition)
  /-- End the repetition. -/
  | terminate (iterator : String)
  /-- Find one element. -/
  | search (conditions : List Condition)
  deriving Repr

/-- One step to an inner scope. -/
inductive Step where
  | object (name : String)
  /-- A group behind `name`.  Of several groups only the first follows the
  attribute itself; the others, and those behind the payload, go on from the
  value reached. -/
  | group (name : String) (follows : Bool) (use : GroupUse)
  deriving Repr

/-- What a group does. -/
def Group.use (group : Group) : GroupUse :=
  match group.iterator with
  | none => .search group.conditions
  | some iterator =>
    if group.terminates then .terminate iterator else .loop iterator group.conditions

/-- The groups of a segment as steps. -/
def groupSteps (name : String) (follows : Bool) : List Group → List Step
  | [] => []
  | group :: rest => .group name follows group.use :: groupSteps name false rest

/-- A segment after the first as steps: an object unless it has groups. -/
def Segment.steps (segment : Segment) : List Step :=
  if segment.groups.isEmpty then [.object segment.name]
  else groupSteps segment.name true segment.groups

/-- The segments after the first as steps, and the attribute to insert: the last
segment, unless it has groups. -/
def tailSteps : List Segment → List Step × String
  | [] => ([], "")
  | [last] => if last.groups.isEmpty then ([], last.name) else (last.steps, "")
  | segment :: rest =>
    let tail := tailSteps rest
    (segment.steps ++ tail.1, tail.2)

/-- The steps of a path and the attribute to insert. -/
def Path.steps (path : Path) : List Step × String :=
  match path.segments with
  | [] => ([], "")
  | first :: rest =>
    let tail := tailSteps rest
    (groupSteps first.name false first.groups ++ tail.1, tail.2)

/-! ## Keys -/

/-- The part of a key that names the attribute, where a step follows one. -/
def Step.attributeKey : Step → String
  | object name => "." ++ name
  | group name true _ => "." ++ name
  | group _ false _ => ""

/-- The part of a key that stands for the group. -/
def Step.groupKey : Step → String
  | object _ => ""
  | group _ _ (.search conditions) => "[" ++ Condition.listText conditions ++ "]"
  | group _ _ _ => "[]"

/-- The part of a key that a step adds. -/
def Step.key (step : Step) : String := step.attributeKey ++ step.groupKey

end Stencil.Marker
