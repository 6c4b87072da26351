import Stencil.Proofs.Condition.Distinct
import Stencil.Proofs.Outline.Address

namespace Stencil

open Outline

/-!
# Scopes are identified by the steps that lead to them

Markers come to one scope only by the same steps: the same attributes, the same
dimensions and the same searches, condition by condition.  Searches are found again
by the text of their conditions, and a text bound is not escaped there.  So this
needs that no text bound seems to end before its end; a bound with an apostrophe
before a comma can make one search look like another.
-/

/-! ## Shapes -/

namespace Marker

/-- What a step says about the payload. -/
inductive Shape where
  | object (name : String)
  /-- A dimension, whether it is repeated or ended. -/
  | dimension (name : Option String)
  | search (name : Option String) (conditions : List Condition)

/-- The attribute that the group of a step follows. -/
def attributeOf (name : String) (follows : Bool) : Option String :=
  if follows then some name else none

def Step.shape : Step → Shape
  | .object name => .object name
  | .group name follows (.search conditions) => .search (attributeOf name follows) conditions
  | .group name follows _ => .dimension (attributeOf name follows)

/-- The number of conditions of a search. -/
def Shape.conditionCount : Shape → Nat
  | .search _ conditions => conditions.length
  | _ => 0

end Marker

namespace Condition

/-- The text of a condition is not empty, nor is that of a list of them. -/
theorem listText_cons_ne_empty (condition : Condition) (more : List Condition) :
    listText (condition :: more) ≠ "" := by
  intro empty
  have whole := toList_listText_cons condition more []
  rw [empty, toList_text] at whole
  obtain ⟨c, rest, tail, -⟩ := follows_listTail more []
  have length := congrArg List.length whole
  rw [tail] at length
  cases shown : condition.comparison <;>
    simp [shown, Comparison.symbol] at length <;> omega

theorem listText_ne_empty {conditions : List Condition} (nonempty : conditions ≠ []) :
    listText conditions ≠ "" := by
  obtain ⟨condition, more, rfl⟩ := List.exists_cons_of_ne_nil nonempty
  exact listText_cons_ne_empty condition more

end Condition

namespace Marker

/-- A search leaves no footprint of a dimension. -/
theorem Step.Written.search_text_ne {name : String} {follows : Bool}
    {conditions : List Condition} (written : (Step.group name follows (.search conditions)).Written) :
    Condition.listText conditions ≠ "" :=
  Condition.listText_ne_empty (written.searches name follows conditions rfl).1

theorem Step.legible {name : String} {follows : Bool} {conditions : List Condition}
    (written : (Step.group name follows (.search conditions)).Written)
    (plain : (Step.group name follows (.search conditions)).Plain) :
    Condition.Legible conditions :=
  ⟨(written.searches name follows conditions rfl).2, plain name follows conditions rfl⟩

/-- Steps that leave the same footprint say the same. -/
theorem shape_eq_of_footprint_eq {step other : Step} (written : step.Written)
    (otherWritten : other.Written) (plain : step.Plain) (otherPlain : other.Plain)
    (same : step.footprint = other.footprint) : step.shape = other.shape := by
  have names : step.footprint.name = other.footprint.name := congrArg Footprint.name same
  have groups : step.footprint.group = other.footprint.group := congrArg Footprint.group same
  -- What is no search leaves no text between brackets.
  match step, other, written, otherWritten, plain, otherPlain, names, groups with
  | .object name, .object otherName, _, _, _, _, names, _ =>
    cases names
    rfl
  | .object name, .group _ _ _, _, _, _, _, _, groups => cases groups
  | .group _ _ _, .object name, _, _, _, _, _, groups => cases groups
  | .group name follows (.search conditions), .group otherName otherFollows (.search others),
      written, otherWritten, plain, otherPlain, names, groups =>
    have texts : Condition.listText conditions = Condition.listText others :=
      Option.some.inj groups
    have equal := Condition.listText_injective (written.searches _ _ _ rfl).1
      (otherWritten.searches _ _ _ rfl).1 (Step.legible written plain)
      (Step.legible otherWritten otherPlain) texts
    rw [equal]
    exact congrArg (Shape.search · others) names
  | .group name follows (.search conditions), .group _ _ (.loop _ _), written, _, _, _, _, groups =>
    exact absurd (Option.some.inj groups) written.search_text_ne
  | .group name follows (.search conditions), .group _ _ (.terminate _), written, _, _, _, _,
      groups =>
    exact absurd (Option.some.inj groups) written.search_text_ne
  | .group _ _ (.loop _ _), .group _ _ (.search _), _, otherWritten, _, _, _, groups =>
    exact absurd (Option.some.inj groups).symm otherWritten.search_text_ne
  | .group _ _ (.terminate _), .group _ _ (.search _), _, otherWritten, _, _, _, groups =>
    exact absurd (Option.some.inj groups).symm otherWritten.search_text_ne
  | .group _ _ (.loop _ _), .group _ _ (.loop _ _), _, _, _, _, names, _ =>
    exact congrArg Shape.dimension names
  | .group _ _ (.loop _ _), .group _ _ (.terminate _), _, _, _, _, names, _ =>
    exact congrArg Shape.dimension names
  | .group _ _ (.terminate _), .group _ _ (.loop _ _), _, _, _, _, names, _ =>
    exact congrArg Shape.dimension names
  | .group _ _ (.terminate _), .group _ _ (.terminate _), _, _, _, _, names, _ =>
    exact congrArg Shape.dimension names

end Marker

namespace Outline

open Marker (Step)

/-- Steps that leave the same trail say the same. -/
theorem shapes_eq_of_trail_eq {steps others : List Step} (walkable : Walkable steps)
    (otherWalkable : Walkable others) (same : trail steps = trail others) :
    steps.map Step.shape = others.map Step.shape := by
  have length : steps.length = others.length := by
    have := congrArg List.length same
    simpa [trail] using this
  refine List.ext_getElem (by simpa using length) fun index bound otherBound => ?_
  rw [List.length_map] at bound otherBound
  have footprints : steps[index].footprint = others[index].footprint := by
    have := congrArg (fun footprints => footprints[index]?) same
    simpa [trail, bound, otherBound] using this
  rw [List.getElem_map, List.getElem_map]
  exact Marker.shape_eq_of_footprint_eq (walkable.written _ (List.getElem_mem bound))
    (otherWalkable.written _ (List.getElem_mem otherBound))
    (walkable.plain _ (List.getElem_mem bound))
    (otherWalkable.plain _ (List.getElem_mem otherBound)) footprints

/-! ## Where markers come to -/

/-- The first steps of a marker, and where they lead it behind some others. -/
def trace (earlier : List Marker) (marker : Marker) (count : Nat) :
    Except Error (List Step × Walk) := do
  let growth ← earlier.foldlM grow Growth.start
  let read ← readMarker marker
  let steps := read.path.steps.1.take count
  let walk ← steps.foldlM walkStep (growth, beginWalk growth marker)
  .ok (steps, walk)

/-- One of the markers comes by these steps, the first of its path, to this
scope. -/
def Leads (markers : List Marker) (steps : List Step) (id : ScopeId) : Prop :=
  ∃ earlier marker later count walk, inDocumentOrder markers = earlier ++ marker :: later ∧
    trace earlier marker count = .ok (steps, walk) ∧ walk.2.lost = false ∧ walk.2.scope = id

/-- Scopes stand for the steps that lead to them. -/
structure Identified (markers : List Marker) (outline : Outline) : Prop where
  /-- To one scope leads one sequence of attributes, dimensions and searches. -/
  steps : ∀ steps others id, Leads markers steps id → Leads markers others id →
    steps.map Step.shape = others.map Step.shape
  /-- A scope to which a search leads searches with its conditions. -/
  searches : ∀ front name follows conditions id,
    Leads markers (front ++ [.group name follows (.search conditions)]) id →
    ∃ scope, outline.scopes[id]? = some scope ∧
      scope.access = .search (Marker.attributeOf name follows) conditions

variable {markers : List Marker} {policy : Unterminated} {outline : Outline}

theorem trace_eq_ok {earlier : List Marker} {marker : Marker} {count : Nat} {steps : List Step}
    {walk : Walk} (traced : trace earlier marker count = .ok (steps, walk)) :
    ∃ growth read, earlier.foldlM grow Growth.start = .ok growth ∧ readMarker marker = .ok read ∧
      steps = read.path.steps.1.take count ∧
      steps.foldlM walkStep (growth, beginWalk growth marker) = .ok walk := by
  obtain ⟨growth, grown, traced⟩ := bind_eq_ok.mp traced
  obtain ⟨read, reading, traced⟩ := bind_eq_ok.mp traced
  obtain ⟨reached, run, traced⟩ := bind_eq_ok.mp traced
  cases traced
  exact ⟨growth, read, grown, reading, rfl, run⟩

theorem keeps_growth {markers : List Marker} {before after : Growth}
    (grown : markers.foldlM grow before = .ok after) : Keeps before.outline after.outline :=
  foldlM_induction (motive := fun growth => Keeps before.outline growth.outline)
    (fun _ _ _ _ keeps grown => keeps.trans (keeps_grow grown)) (.refl _) grown

/-- The walk of a marker to a scope, and the rest of the run behind it. -/
structure ComesBy (markers : List Marker) (growth begun : Growth) (marker : Marker)
    (read : ReadMarker) (steps : List Step) (walk : Walk) : Prop where
  listed : marker ∈ markers
  reading : readMarker marker = .ok read
  within : steps <+: read.path.steps.1
  grown : ∃ earlier, earlier <+: markers ∧ earlier.foldlM grow Growth.start = .ok begun
  run : steps.foldlM walkStep (begun, beginWalk begun marker) = .ok walk
  rest : ∃ (back : List Step) (later : List Marker) (final : Walk),
    back.foldlM walkStep walk = .ok final ∧
      later.foldlM grow (record final read read.path.steps.2) = .ok growth

theorem comesBy_of_trace {growth : Growth} {earlier later : List Marker} {marker : Marker}
    {count : Nat} {steps : List Step} {walk : Walk}
    (grown : (earlier ++ marker :: later).foldlM grow Growth.start = .ok growth)
    (traced : trace earlier marker count = .ok (steps, walk)) :
    ∃ begun read, ComesBy (earlier ++ marker :: later) growth begun marker read steps walk := by
  rcases trace_eq_ok traced with ⟨begun, read, grownBefore, reading, rfl, run⟩
  rcases foldlM_append_eq_ok.mp grown with ⟨between, grownBetween, rest⟩
  cases grownBefore.symm.trans grownBetween
  rcases foldlM_cons_eq_ok.mp rest with ⟨recorded, grownHere, rest⟩
  rcases grow_eq_ok.mp grownHere with ⟨sameRead, final, readingHere, runHere, rfl⟩
  cases reading.symm.trans readingHere
  rw [← List.take_append_drop count read.path.steps.1] at runHere
  rcases foldlM_append_eq_ok.mp runHere with ⟨middle, runFront, runBack⟩
  cases run.symm.trans runFront
  exact ⟨begun, read, {
    listed := List.mem_append_right _ (.head _)
    reading := reading
    within := List.take_prefix _ _
    grown := ⟨earlier, List.prefix_append _ _, grownBefore⟩
    run := run
    rest := ⟨_, later, final, runBack, rest⟩ }⟩

theorem Leads.comesBy {growth : Growth} {steps : List Step} {id : ScopeId}
    (grown : (inDocumentOrder markers).foldlM grow Growth.start = .ok growth)
    (leads : Leads markers steps id) : ∃ begun marker read walk,
      ComesBy (inDocumentOrder markers) growth begun marker read steps walk ∧
        walk.2.lost = false ∧ walk.2.scope = id := by
  rcases leads with ⟨earlier, marker, later, count, walk, order, traced, onTrack, stands⟩
  rw [order] at grown ⊢
  rcases comesBy_of_trace grown traced with ⟨begun, read, comes⟩
  exact ⟨begun, marker, read, walk, comes, onTrack, stands⟩

/-- What the further steps and the markers behind do keeps the scope. -/
theorem ComesBy.keeps {growth begun : Growth} {marker : Marker} {read : ReadMarker}
    {steps : List Step} {walk : Walk} (comes : ComesBy markers growth begun marker read steps walk) :
    Keeps walk.1.outline growth.outline := by
  rcases comes.rest with ⟨back, later, final, runBack, rest⟩
  exact ((keeps_run runBack).trans (sameFrames_record final read _).keeps).trans (keeps_growth rest)

/-- The scope that some steps lead to has their trail as its address in the whole
outline. -/
theorem Leads.address (accepted : ofMarkers markers policy = .ok outline)
    (plain : PlainMarkers markers) {steps : List Step} {id : Nat}
    (leads : Leads markers steps id) :
    Walkable steps ∧ id < outline.scopes.size ∧ outline.address id = trail steps := by
  rcases ofMarkers_eq_ok accepted with ⟨growth, grown, rfl⟩
  rcases leads.comesBy grown with ⟨begun, marker, read, walk, comes, onTrack, rfl⟩
  rcases comes.grown with ⟨earlier, front, grownBefore⟩
  rcases comes.within with ⟨back, split⟩
  have ordered := plain.ordered
  have keyedWhole := keyed_growth keyed_start ordered grown
  have keyed := keyed_growth keyed_start (fun other member => ordered other (front.subset member))
    grownBefore
  rcases readMarker_eq_ok comes.reading with ⟨-, path⟩
  have walkable := walkable_steps path (ordered marker comes.listed _ path)
  rw [← split] at walkable
  have reached := (atTrail_begin keyed marker).run walkable.left comes.run
  have keeps := comes.keeps
  refine ⟨walkable.left, reached.bound.trans_le keeps.size_le, ?_⟩
  rw [keeps.address reached.keyed.rooted keyedWhole.rooted reached.bound]
  exact reached.address onTrack

/-- The footprint of a search tells how its scope is reached. -/
theorem access_of_footprint_eq {scope : Scope} {name : String} {follows : Bool}
    {conditions : List Condition} (written : (Step.group name follows (.search conditions)).Written)
    (plain : (Step.group name follows (.search conditions)).Plain)
    (searches : ∀ field others, scope.access = .search field others →
      others ≠ [] ∧ Condition.Legible others)
    (same : footprintOf scope = (Step.group name follows (.search conditions)).footprint) :
    scope.access = .search (Marker.attributeOf name follows) conditions := by
  have groups : (footprintOf scope).group = some (Condition.listText conditions) :=
    congrArg Marker.Footprint.group same
  have names : (footprintOf scope).name = Marker.attributeOf name follows :=
    congrArg Marker.Footprint.name same
  unfold footprintOf at groups names
  cases access : scope.access with
  | field name =>
    rw [access] at groups
    simp only at groups
    split at groups
    · exact absurd (Option.some.inj groups).symm written.search_text_ne
    · cases groups
  | whole =>
    rw [access] at groups
    exact absurd (Option.some.inj groups).symm written.search_text_ne
  | search field others =>
    rw [access] at groups names
    obtain ⟨nonempty, legible⟩ := searches field others access
    have equal := Condition.listText_injective nonempty (written.searches _ _ _ rfl).1 legible
      (Marker.Step.legible written plain) (Option.some.inj groups)
    rw [equal]
    exact congrArg (Access.search · conditions) names

/-- In an outline of markers with plain conditions no two scopes share their
steps, and no two sequences of steps share a scope. -/
theorem scopes_identified (accepted : ofMarkers markers policy = .ok outline)
    (plain : PlainMarkers markers) : Identified markers outline := by
  constructor
  · intro steps others id leads alsoLeads
    obtain ⟨walkable, -, address⟩ := leads.address accepted plain
    obtain ⟨otherWalkable, -, otherAddress⟩ := alsoLeads.address accepted plain
    exact shapes_eq_of_trail_eq walkable otherWalkable (address.symm.trans otherAddress)
  · intro front name follows conditions id leads
    obtain ⟨walkable, bound, address⟩ := leads.address accepted plain
    obtain ⟨growth, grown, rfl⟩ := ofMarkers_eq_ok accepted
    have keyed := keyed_growth keyed_start plain.ordered grown
    have found := Array.getElem?_eq_getElem bound
    have elsewhere : id ≠ root := by
      rintro rfl
      rw [address_root keyed.rooted] at address
      simp [trail] at address
    obtain ⟨parent, link, -⟩ := keyed.rooted.inside id _ found elsewhere
    rw [address_inside keyed.rooted found link, trail, List.map_append, List.map_singleton]
      at address
    have last := List.singleton_inj.mp (List.append_inj' address rfl).2
    exact ⟨_, found, access_of_footprint_eq (walkable.written _ (by simp))
      (walkable.plain _ (by simp)) (keyed.searches id _ found) last⟩

/-! ### Two documents -/

/-- Searches that differ in a text bound. -/
def apartMarkers : List Marker :=
  [⟨0, "d.cars[a='x',b='y'].n"⟩, ⟨5, "d.cars[a=\"x'y\",b='y'].n"⟩]

theorem scopes_identified_apart : ∃ outline, ofMarkers apartMarkers .permissive = .ok outline ∧
    Identified apartMarkers outline := by
  obtain ⟨outline, accepted⟩ := exists_of_isOk
    (by decide +kernel : (ofMarkers apartMarkers .permissive).isOk = true)
  exact ⟨outline, accepted, scopes_identified accepted (by decide +kernel)⟩

/-- Two conditions, and one condition that looks like them. -/
def confusedMarkers : List Marker :=
  [⟨0, "d.cars[a='x',b='y'].n"⟩, ⟨5, "d.cars[a=\"x',b='y\"].n"⟩]

/-- How many conditions the first step of a marker has, and where it leads. -/
def firstSearch (earlier : List Marker) (marker : Marker) : Option (List Nat × Bool × Nat) :=
  (trace earlier marker 1).toOption.map fun traced =>
    (traced.1.map fun step => step.shape.conditionCount, traced.2.2.lost, traced.2.2.scope)

theorem leads_of_firstSearch {earlier later : List Marker} {marker : Marker} {count scope : Nat}
    (order : inDocumentOrder markers = earlier ++ marker :: later)
    (shown : firstSearch earlier marker = some ([count], false, scope)) :
    ∃ step : Step, step.shape.conditionCount = count ∧ Leads markers [step] scope := by
  obtain ⟨⟨steps, walk⟩, traced, same⟩ := Option.map_eq_some_iff.mp shown
  simp only [Prod.mk.injEq] at same
  obtain ⟨counts, onTrack, reached⟩ := same
  obtain ⟨step, rfl⟩ : ∃ step, steps = [step] := by
    rw [← List.length_eq_one_iff]
    simpa using congrArg List.length counts
  refine ⟨step, by simpa using counts, earlier, marker, later, 1, walk, order, ?_, onTrack, reached⟩
  cases made : trace earlier marker 1 with
  | error fault =>
    rw [made] at traced
    cases traced
  | ok outcome =>
    rw [made] at traced
    cases traced
    rfl

/-- A text bound with an apostrophe before a comma: one scope stands for two
searches. -/
theorem scopes_confused : ∃ outline, ofMarkers confusedMarkers .permissive = .ok outline ∧
    ¬ Identified confusedMarkers outline := by
  obtain ⟨outline, accepted⟩ := exists_of_isOk
    (by decide +kernel : (ofMarkers confusedMarkers .permissive).isOk = true)
  refine ⟨outline, accepted, fun identified => ?_⟩
  have order : inDocumentOrder confusedMarkers = confusedMarkers := rfl
  have both : firstSearch [] ⟨0, "d.cars[a='x',b='y'].n"⟩ = some ([2], false, 1) := by
    decide +kernel
  have alone : firstSearch [⟨0, "d.cars[a='x',b='y'].n"⟩] ⟨5, "d.cars[a=\"x',b='y\"].n"⟩ =
      some ([1], false, 1) := by
    decide +kernel
  obtain ⟨step, two, leads⟩ := leads_of_firstSearch order both
  obtain ⟨other, one, alsoLeads⟩ := leads_of_firstSearch order alone
  have same := List.singleton_inj.mp (identified.steps _ _ _ leads alsoLeads)
  rw [same, one] at two
  exact absurd two (by decide)

end Outline

end Stencil
