import Stencil.Proofs.Marker.Steps

namespace Stencil.Marker

/-!
# Names in paths

A path that was read has a segment, and no name in it is empty.  So an attribute that is
inserted is told from the value itself, which is what the empty name designates, and a
path names the payload itself just if it is one segment without groups.
-/

/-- A property that a path has if it can be read is decidable. -/
instance {cs : List Char} {fits : Path → Prop} [DecidablePred fits] :
    Decidable (∀ path, readPath cs = .ok path → fits path) :=
  match readPath cs with
  | .ok path => decidable_of_iff (fits path)
      ⟨fun own _ read => Except.ok.inj read ▸ own, fun own => own path rfl⟩
  | .error _ => isTrue fun _ impossible => nomatch impossible

/-! ## Segments -/

theorem name_ne_empty_of_readSegment {raw : List Char} {segment : Segment}
    (run : readSegment raw = .ok segment) : segment.name ≠ "" := by
  rcases readSegment_eq_ok.mp run with ⟨named, name, -⟩
  intro empty
  have none := String.toList_eq_nil_iff.mpr empty
  rw [name, String.toList_ofList] at none
  exact named none

/-- A path that has segments, each with a name. -/
structure Path.Named (path : Path) : Prop where
  segments : path.segments ≠ []
  names : ∀ segment ∈ path.segments, segment.name ≠ ""

theorem named_of_readPath {cs : List Char} {path : Path} (run : readPath cs = .ok path) :
    path.Named where
  segments := by
    rcases List.exists_cons_of_ne_nil (splitParts_ne_nil .groups '.' .start
      (compact .start (Text.cutFirst .groups ':' .start cs).1)) with ⟨part, parts, split⟩
    have made := (readPath_eq_ok.mp run).2.1
    rw [split] at made
    rcases mapM_cons_eq_ok.mp made with ⟨segment, rest, -, -, segments⟩
    rw [segments]
    exact List.cons_ne_nil segment rest
  names segment member := by
    rcases exists_readSegment run segment member with ⟨raw, -, read⟩
    exact name_ne_empty_of_readSegment read

/-! ## Steps -/

theorem segmentSteps_ne_nil (segment : Segment) : segment.steps ≠ [] := by
  unfold Segment.steps
  cases segment.groups with
  | nil => exact List.cons_ne_nil _ _
  | cons group rest => exact List.cons_ne_nil _ _

/-- What is true of the names of all segments is true of those that steps follow. -/
theorem forall_followed {path : Path} {motive : String → Prop}
    (each : ∀ segment ∈ path.segments, motive segment.name) {step : Step}
    (member : step ∈ path.steps.1) {name : String} (own : step.footprint.name = some name) :
    motive name := by
  rcases source_of_mem_steps member with ⟨segment, listed, rfl | ⟨group, inside, follows, rfl⟩⟩
  · cases own
    exact each segment listed
  · cases follows with
    | true =>
      cases own
      exact each segment listed
    | false => cases own

/-- The steps of a path follow attributes with names. -/
theorem Path.Named.name_ne_empty {path : Path} (named : path.Named) {step : Step}
    (member : step ∈ path.steps.1) {name : String} (own : step.footprint.name = some name) :
    name ≠ "" :=
  forall_followed (motive := (· ≠ "")) named.names member own

/-- Names end before the first square bracket. -/
theorem not_mem_bracket_of_readPath {cs : List Char} {path : Path}
    (run : readPath cs = .ok path) : ∀ segment ∈ path.segments, ']' ∉ segment.name.toList := by
  intro segment listed inside
  rcases exists_readSegment run segment listed with ⟨raw, -, read⟩
  rw [(readSegment_eq_ok.mp read).2.1, String.toList_ofList] at inside
  have outside := List.mem_takeWhile_imp inside
  simp [isBracket] at outside

/-! ## The payload itself -/

/-- Whether a path names the payload itself: one segment and no groups. -/
def Path.namesPayload (path : Path) : Bool :=
  match path.segments with
  | [only] => only.groups.isEmpty
  | _ => false

theorem Path.not_terminates_of_namesPayload {path : Path} (names : path.namesPayload = true) :
    path.terminates = false := by
  unfold namesPayload at names
  unfold terminates
  split at names
  · next only segments => simp [segments, List.isEmpty_iff.mp names]
  · cases names

theorem tailSteps_ne_nil {segments : List Segment} (nonempty : segments ≠ [])
    (names : ∀ segment ∈ segments, segment.name ≠ "") : tailSteps segments ≠ ([], "") := by
  match segments, nonempty with
  | [last], _ =>
    unfold tailSteps
    split
    · intro same
      exact names last (.head _) (congrArg Prod.snd same)
    · intro same
      exact segmentSteps_ne_nil last (congrArg Prod.fst same)
  | segment :: next :: more, _ =>
    unfold tailSteps
    intro same
    have none : segment.steps ++ (tailSteps (next :: more)).1 = [] := congrArg Prod.fst same
    exact segmentSteps_ne_nil segment (List.append_eq_nil_iff.mp none).1

/-- Only a path that names the payload has no steps and no attribute. -/
theorem Path.Named.steps_eq_nil_iff {path : Path} (named : path.Named) :
    path.steps = ([], "") ↔ path.namesPayload = true := by
  rcases path with ⟨segments, chain⟩
  match segments, named with
  | [], named => exact absurd rfl named.segments
  | [only], _ =>
    unfold steps namesPayload
    cases groups : only.groups <;> simp [tailSteps, groupSteps, groups]
  | first :: next :: more, named =>
    have further := tailSteps_ne_nil (List.cons_ne_nil next more)
      fun segment member => named.names segment (.tail _ member)
    constructor
    · intro same
      have steps : groupSteps first.name false first.groups ++ (tailSteps (next :: more)).1 = [] :=
        congrArg Prod.fst same
      have field : (tailSteps (next :: more)).2 = "" := congrArg Prod.snd same
      exact absurd (Prod.ext (List.append_eq_nil_iff.mp steps).2 field) further
    · intro impossible
      cases impossible

end Stencil.Marker
