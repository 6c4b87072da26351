import Stencil.Proofs.Condition.Written
import Stencil.Proofs.Marker.Reading

namespace Stencil.Marker

/-!
# The steps of a path that was read

Steps inherit from their segments what keys need: readable names, written
conditions, and an order in which a group without an attribute of its own comes
behind another group or behind the payload.
-/

/-- A step of a path that was read. -/
structure Step.Written (step : Step) : Prop where
  name : ∀ name, step.footprint.name = some name → ∀ c ∈ name.toList, c ≠ '.' ∧ c ≠ '['
  searches : ∀ name follows conditions, step = .group name follows (.search conditions) →
    conditions ≠ [] ∧ ∀ condition ∈ conditions, condition.Written

/-- The conditions of a search are plain. -/
def Step.Plain (step : Step) : Prop :=
  ∀ name follows conditions, step = .group name follows (.search conditions) →
    ∀ condition ∈ conditions, condition.Plain

/-- The conditions of a path are plain. -/
def Path.Plain (path : Path) : Prop :=
  ∀ segment ∈ path.segments, ∀ group ∈ segment.groups, ∀ condition ∈ group.conditions,
    condition.Plain

instance (path : Path) : Decidable path.Plain :=
  inferInstanceAs (Decidable (∀ segment ∈ path.segments, ∀ group ∈ segment.groups,
    ∀ condition ∈ group.conditions, condition.Plain))

theorem Step.Written.readable {step : Step} (written : step.Written) (plain : step.Plain) :
    step.footprint.Readable := by
  refine ⟨?_, written.name, ?_⟩
  · cases step with
    | object name => exact .inl rfl
    | group name follows use => exact .inr rfl
  · intro text shown
    match step, shown with
    | .group name follows (.search conditions), shown =>
      cases shown
      obtain ⟨nonempty, each⟩ := written.searches name follows conditions rfl
      exact .inr ⟨conditions, nonempty, ⟨each, plain name follows conditions rfl⟩, rfl⟩
    | .group name follows (.loop iterator conditions), shown =>
      cases shown
      exact .inl rfl
    | .group name follows (.terminate iterator), shown =>
      cases shown
      exact .inl rfl

/-! ## Groups -/

theorem Group.use_search {group : Group} {conditions : List Condition}
    (searches : group.use = .search conditions) :
    group.iterator = none ∧ group.conditions = conditions := by
  unfold Group.use at searches
  split at searches
  · next alone =>
    cases searches
    exact ⟨alone, rfl⟩
  · split at searches <;> cases searches

theorem Group.use_loop {group : Group} {iterator : String} {conditions : List Condition}
    (loops : group.use = .loop iterator conditions) : group.conditions = conditions := by
  unfold Group.use at loops
  split at loops
  · cases loops
  · split at loops
    · cases loops
    · cases loops
      rfl

/-- Every step of some groups stands for one of them. -/
theorem mem_groupSteps {name : String} {follows : Bool} {groups : List Group} {step : Step}
    (member : step ∈ groupSteps name follows groups) :
    ∃ group ∈ groups, ∃ behind, step = .group name behind group.use := by
  induction groups generalizing follows with
  | nil => cases member
  | cons group rest ih =>
    rcases List.mem_cons.mp member with rfl | later
    · exact ⟨group, .head _, follows, rfl⟩
    · rcases ih later with ⟨other, listed, same⟩
      exact ⟨other, .tail _ listed, same⟩

theorem Group.Read.written_step {name : String} {group : Group} (read : group.Read)
    (readable : ∀ c ∈ name.toList, c ≠ '.' ∧ c ≠ '[') (follows : Bool) :
    (Step.group name follows group.use).Written := by
  refine ⟨fun other named => ?_, fun other otherFollows conditions same => ?_⟩
  · cases follows with
    | true =>
      cases named
      exact readable
    | false => cases named
  · injection same with _ _ searches
    obtain ⟨alone, rfl⟩ := Group.use_search searches
    refine ⟨read.searches alone, fun condition inside => ?_⟩
    obtain ⟨text, made⟩ := read.conditions condition inside
    rw [alone] at made
    exact Condition.written_of_read? made

/-- Behind a group anything may stand. -/
theorem before_of_group {left right : Footprint} (group : left.group.isSome) :
    left.Before right := by
  intro impossible
  rw [Option.isNone_iff_eq_none] at impossible
  rw [impossible] at group
  cases group

theorem before_of_name {left right : Footprint} (name : right.name.isSome) : left.Before right :=
  fun _ => name

theorem ordered_groupSteps (name : String) (groups : List Group) :
    ∀ follows : Bool,
      ((groupSteps name follows groups).map Step.footprint).IsChain Footprint.Before := by
  induction groups with
  | nil => intro follows; exact .nil
  | cons group rest ih =>
    intro follows
    rw [groupSteps, List.map_cons, List.isChain_cons]
    exact ⟨fun _ _ => before_of_group rfl, ih false⟩

/-! ## Segments -/

theorem mem_segmentSteps {segment : Segment} {step : Step} (member : step ∈ segment.steps) :
    step = .object segment.name ∨ step ∈ groupSteps segment.name true segment.groups := by
  unfold Segment.steps at member
  split at member
  · exact .inl (List.mem_singleton.mp member)
  · exact .inr member

theorem ordered_segmentSteps (segment : Segment) :
    (segment.steps.map Step.footprint).IsChain Footprint.Before := by
  unfold Segment.steps
  split
  · exact .singleton _
  · exact ordered_groupSteps _ _ _

/-- The steps of a segment begin at its attribute. -/
theorem named_segmentSteps (segment : Segment) :
    ∀ footprint ∈ (segment.steps.map Step.footprint).head?, footprint.name.isSome := by
  intro footprint first
  unfold Segment.steps at first
  split at first
  · cases first
    rfl
  · cases groups : segment.groups with
    | nil =>
      rw [groups] at first
      cases first
    | cons group rest =>
      rw [groups] at first
      cases first
      rfl

/-! ## Paths -/

/-- What is proved of the steps of every segment holds of those of a tail. -/
theorem mem_tailSteps {segments : List Segment} {step : Step}
    (member : step ∈ (tailSteps segments).1) : ∃ segment ∈ segments, step ∈ segment.steps := by
  induction segments with
  | nil => cases member
  | cons segment rest ih =>
    cases rest with
    | nil =>
      unfold tailSteps at member
      split at member
      · cases member
      · exact ⟨segment, .head _, member⟩
    | cons next more =>
      unfold tailSteps at member
      rcases List.mem_append.mp member with here | later
      · exact ⟨segment, .head _, here⟩
      · obtain ⟨other, listed, inside⟩ := ih later
        exact ⟨other, .tail _ listed, inside⟩

theorem ordered_append {front back : List Footprint} (first : front.IsChain Footprint.Before)
    (second : back.IsChain Footprint.Before)
    (named : ∀ footprint ∈ back.head?, footprint.name.isSome) :
    (front ++ back).IsChain Footprint.Before := by
  rw [List.isChain_append]
  exact ⟨first, second, fun _ _ footprint head => before_of_name (named footprint head)⟩

theorem ordered_tailSteps (segments : List Segment) :
    ((tailSteps segments).1.map Step.footprint).IsChain Footprint.Before ∧
      ∀ footprint ∈ ((tailSteps segments).1.map Step.footprint).head?,
        footprint.name.isSome := by
  induction segments with
  | nil => exact ⟨.nil, fun _ impossible => nomatch impossible⟩
  | cons segment rest ih =>
    cases rest with
    | nil =>
      unfold tailSteps
      split
      · exact ⟨.nil, fun _ impossible => nomatch impossible⟩
      · exact ⟨ordered_segmentSteps segment, named_segmentSteps segment⟩
    | cons next more =>
      obtain ⟨ordered, named⟩ := ih
      unfold tailSteps
      simp only [List.map_append]
      refine ⟨ordered_append (ordered_segmentSteps segment) ordered named, ?_⟩
      intro footprint first
      rw [List.head?_append] at first
      cases front : (segment.steps.map Step.footprint).head? with
      | some footprint' =>
        rw [front] at first
        cases first
        exact named_segmentSteps segment footprint front
      | none =>
        rw [front] at first
        exact named footprint first

variable {path : Path}

theorem mem_steps {step : Step} (member : step ∈ path.steps.1) :
    (∃ first ∈ path.segments, step ∈ groupSteps first.name false first.groups) ∨
      ∃ segment ∈ path.segments, step ∈ segment.steps := by
  unfold Path.steps at member
  split at member
  · cases member
  · next first rest segments =>
    rcases List.mem_append.mp member with grouped | later
    · exact .inl ⟨first, segments ▸ .head _, grouped⟩
    · obtain ⟨segment, listed, inside⟩ := mem_tailSteps later
      exact .inr ⟨segment, segments ▸ .tail _ listed, inside⟩

/-- Every step goes to the attribute of a segment or stands for one of its groups. -/
theorem source_of_mem_steps {step : Step} (member : step ∈ path.steps.1) :
    ∃ segment ∈ path.segments, step = .object segment.name ∨
      ∃ group ∈ segment.groups, ∃ follows, step = .group segment.name follows group.use := by
  rcases mem_steps member with ⟨first, listed, grouped⟩ | ⟨segment, listed, inside⟩
  · exact ⟨first, listed, .inr (mem_groupSteps grouped)⟩
  · exact ⟨segment, listed, (mem_segmentSteps inside).imp_right mem_groupSteps⟩

/-- The bounds of the conditions of a repetition were written down. -/
theorem written_bounds_steps (read : ∀ segment ∈ path.segments, segment.Read) {name : String}
    {follows : Bool} {iterator : String} {conditions : List Condition}
    (member : .group name follows (.loop iterator conditions) ∈ path.steps.1) :
    ∀ condition ∈ conditions, condition.bound.Written := by
  rcases source_of_mem_steps member with ⟨segment, listed, impossible | ⟨group, inside, _, same⟩⟩
  · cases impossible
  · injection same with _ _ loops
    intro condition held
    have own : condition ∈ group.conditions := by
      rw [Group.use_loop loops.symm]
      exact held
    rcases ((read segment listed).groups group inside).conditions condition own with ⟨text, made⟩
    exact Condition.written_bound_of_read? made

theorem written_steps (read : ∀ segment ∈ path.segments, segment.Read) :
    ∀ step ∈ path.steps.1, step.Written := by
  intro step member
  rcases source_of_mem_steps member with ⟨segment, listed, rfl | ⟨group, inside, follows, rfl⟩⟩
  · refine ⟨fun name named => ?_, fun _ _ _ impossible => by cases impossible⟩
    cases named
    exact (read segment listed).name
  · exact ((read segment listed).groups group inside).written_step (read segment listed).name follows

theorem plain_steps (plain : path.Plain) : ∀ step ∈ path.steps.1, step.Plain := by
  intro step member name otherFollows conditions same condition held
  rcases source_of_mem_steps member with ⟨segment, listed, rfl | ⟨group, inside, follows, rfl⟩⟩
  · cases same
  · injection same with _ _ searches
    obtain ⟨-, rfl⟩ := Group.use_search searches
    exact plain segment listed group inside condition held

theorem ordered_steps (path : Path) :
    (path.steps.1.map Step.footprint).IsChain Footprint.Before := by
  unfold Path.steps
  split
  · exact .nil
  · next first rest segments =>
    obtain ⟨ordered, named⟩ := ordered_tailSteps rest
    rw [List.map_append]
    exact ordered_append (ordered_groupSteps _ _ _) ordered named

/-- The steps of a path that was read can be read off their key. -/
theorem readable_steps (read : ∀ segment ∈ path.segments, segment.Read) (plain : path.Plain) :
    Readable (path.steps.1.map Step.footprint) := by
  refine ⟨fun footprint member => ?_, ordered_steps path⟩
  obtain ⟨step, listed, rfl⟩ := List.mem_map.mp member
  exact (written_steps read step listed).readable (plain_steps plain step listed)

/-! ## Steps that end a repetition -/

theorem exists_groupStep (name : String) {groups : List Group} {group : Group}
    (listed : group ∈ groups) : ∀ follows : Bool,
      ∃ behind, Step.group name behind group.use ∈ groupSteps name follows groups := by
  induction groups with
  | nil => cases listed
  | cons first rest ih =>
    intro follows
    rcases List.mem_cons.mp listed with rfl | later
    · exact ⟨follows, .head _⟩
    · rcases ih later false with ⟨behind, member⟩
      exact ⟨behind, .tail _ member⟩

/-- The steps of a segment with groups are among those of a tail. -/
theorem segmentSteps_subset_tailSteps {segments : List Segment} {segment : Segment}
    (listed : segment ∈ segments) (grouped : segment.groups ≠ []) :
    segment.steps ⊆ (tailSteps segments).1 := by
  induction segments with
  | nil => cases listed
  | cons first rest ih =>
    cases rest with
    | nil =>
      cases List.mem_singleton.mp listed
      unfold tailSteps
      rw [if_neg (by simpa using grouped)]
      exact List.Subset.refl _
    | cons next more =>
      unfold tailSteps
      rcases List.mem_cons.mp listed with rfl | later
      · exact List.subset_append_left _ _
      · exact List.Subset.trans (ih later) (List.subset_append_right _ _)

/-- A path that ends a repetition has a step that does. -/
theorem exists_terminator (read : ∀ segment ∈ path.segments, segment.Read)
    (ends : path.terminates = true) : ∃ name behind iterator,
      Step.group name behind (.terminate iterator) ∈ path.steps.1 := by
  rcases List.any_eq_true.mp ends with ⟨segment, listed, some⟩
  rcases List.any_eq_true.mp some with ⟨group, among, terminates⟩
  rcases Option.isSome_iff_exists.mp (((read segment listed).groups group among).ends terminates)
    with ⟨iterator, named⟩
  have use : group.use = .terminate iterator := by
    unfold Group.use
    rw [named]
    simp [terminates]
  have grouped : segment.groups ≠ [] := List.ne_nil_of_mem among
  unfold Path.steps
  cases segments : path.segments with
  | nil =>
    rw [segments] at listed
    cases listed
  | cons first rest =>
    rw [segments] at listed
    rcases List.mem_cons.mp listed with rfl | later
    · rcases exists_groupStep segment.name among false with ⟨behind, member⟩
      rw [use] at member
      exact ⟨segment.name, behind, iterator, List.mem_append_left _ member⟩
    · rcases exists_groupStep segment.name among true with ⟨behind, member⟩
      rw [use] at member
      refine ⟨segment.name, behind, iterator, List.mem_append_right _ ?_⟩
      apply segmentSteps_subset_tailSteps later grouped
      unfold Segment.steps
      rw [if_neg (by simpa using grouped)]
      exact member

end Stencil.Marker
