import Stencil.Proofs.Outline.Conditions

namespace Stencil.Outline

open Condition (allHold keep)
open Marker (Step)

/-!
# Conditions accumulate wherever they are written

The elements that a dimension keeps are told by the set of the conditions that the markers
write on it.  So it makes no difference which marker has which of them, and how often.  Nor
does the order of the markers: the key of a scope is that of the steps that lead to it, and
a path leads somewhere from every place in the document until it passes a terminator.
-/

variable {growth : Growth} {progress : Progress} {step : Step} {after : Walk}
  {markers : List Marker}

/-! ## Keys of steps -/

/-- The key of the scope to which some steps lead. -/
def pathKey (steps : List Step) : String :=
  steps.foldl (fun key step => key ++ step.attributeKey ++ step.groupKey) ""

theorem pathKey_concat (front : List Step) (step : Step) :
    pathKey (front ++ [step]) = pathKey front ++ step.attributeKey ++ step.groupKey :=
  List.foldl_concat ..

theorem Taken.key_eq (taking : Taken growth progress step after) (onTrack : after.2.lost = false) :
    progress.lost = false ∧ after.2.key = progress.keyAt step := by
  cases taking with
  | astray lost => exact absurd (onTrack.symm.trans lost) (by decide)
  | missing => cases onTrack
  | found _ tracked | narrowed _ _ _ _ _ tracked | made _ tracked | ended _ _ _ _ tracked =>
    exact ⟨tracked, rfl⟩

theorem key_run {steps : List Step} {marker : Marker}
    (run : steps.foldlM walkStep (growth, beginWalk growth marker) = .ok after)
    (onTrack : after.2.lost = false) : after.2.key = pathKey steps := by
  refine foldlM_induction_from_nil
    (motive := fun taken walk => walk.2.lost = false → walk.2.key = pathKey taken)
    (fun taken step before after holds run onTrack => ?_) steps (fun _ => rfl) run onTrack
  rcases (taken_of_walkStep run).key_eq onTrack with ⟨tracked, same⟩
  rw [same, Progress.keyAt, holds tracked, pathKey_concat]

theorem find?_growth {before after : Growth} (grown : markers.foldlM grow before = .ok after) :
    ∀ key id, before.find? key = some id → after.find? key = some id := by
  refine foldlM_induction (motive := fun growth => ∀ key id, before.find? key = some id →
    growth.find? key = some id) (fun earlier marker later _ kept grown key id known => ?_)
    (fun _ _ known => known) grown
  rcases grow_eq_ok.mp grown with ⟨read, walk, -, steps, rfl⟩
  exact find?_run steps key id (kept key id known)

/-- The steps that lead to a scope tell its key. -/
theorem Leads.keyOf {steps : List Step} {id : ScopeId}
    (grown : (inDocumentOrder markers).foldlM grow Growth.start = .ok growth)
    (leads : Leads markers steps id) : KeyOf growth id (pathKey steps) := by
  rcases leads.comesBy grown with ⟨begun, marker, read, walk, comes, onTrack, rfl⟩
  rcases comes.grown with ⟨earlier, -, grownBefore⟩
  have keeping := Keeping.run grownBefore comes.reading comes.within
    (undivided_of_growth grownBefore) comes.run
  rcases comes.rest with ⟨back, later, final, runBack, rest⟩
  rw [← key_run comes.run onTrack]
  exact ((keeping.keyed onTrack).run runBack).imp_right (find?_growth rest _ _)

theorem Leads.find? {front : List Step} {id : ScopeId}
    (grown : (inDocumentOrder markers).foldlM grow Growth.start = .ok growth)
    (leads : Leads markers (front ++ [step]) id) :
    growth.find? (pathKey (front ++ [step])) = some id := by
  refine (leads.keyOf grown).resolve_left ?_
  rintro ⟨-, empty⟩
  rw [pathKey_concat] at empty
  exact key_ne_empty _ step empty

/-- Steps lead to one scope just if they have one key. -/
theorem Leads.eq_iff {steps others : List Step} {id other : ScopeId}
    (grown : (inDocumentOrder markers).foldlM grow Growth.start = .ok growth)
    (leads : Leads markers steps id) (alsoLeads : Leads markers others other) :
    id = other ↔ pathKey steps = pathKey others := by
  have unambiguous := (undivided_of_growth grown).keys
  constructor
  · rintro rfl
    exact (leads.keyOf grown).key_eq unambiguous (alsoLeads.keyOf grown)
  · intro same
    refine (leads.keyOf grown).scope_eq unambiguous ?_
    rw [same]
    exact alsoLeads.keyOf grown

/-! ## Markers in other places -/

/-- The steps by which a scope was made. -/
structure MadeAlong (markers : List Marker) (outline : Outline) (id : ScopeId) (front : List Step)
    (step : Step) : Prop where
  leads : Leads markers (front ++ [step]) id
  goes : ∀ other ∈ front ++ [step], terminates other = false
  array : outline.scopeIs Scope.isArray id = repeats step
  named : ∀ name, step.footprint.name = some name → Named name
  written : step.Written

/-- Every scope but that of the payload was made along the path of some marker. -/
theorem exists_madeAlong (grown : (inDocumentOrder markers).foldlM grow Growth.start = .ok growth)
    {id : Nat} (bound : id < growth.outline.scopes.size) (elsewhere : id ≠ root) :
    ∃ front step, MadeAlong markers growth.outline id front step := by
  rcases exists_makesScope grown bound elsewhere with
    ⟨earlier, marker, later, order, count, front, step, walk, traced, goes, onTrack, stands, array⟩
  have leads : Leads markers (front ++ [step]) id :=
    ⟨earlier, marker, later, count, walk, order, traced, onTrack, stands⟩
  rw [order] at grown
  rcases comesBy_of_trace grown traced with ⟨begun, read, comes⟩
  have member : step ∈ read.path.steps.1 :=
    comes.within.subset (List.mem_append_right _ (.head _))
  refine ⟨front, step, leads, goes, ?_, fun name => named_of_mem_steps comes.reading member, ?_⟩
  · have there : id < walk.1.outline.scopes.size := by
      rcases comes.grown with ⟨before, -, grownBefore⟩
      rw [← stands]
      exact (walking_run (walking_begin (sound_growth sound_start grownBefore) marker) comes.run).2
    rw [comes.keeps.scopeIs_isArray there]
    exact array
  · have path := (readMarker_eq_ok comes.reading).2
    exact Marker.written_steps (Marker.read_of_readPath path) step member

/-- Steps of which none is a terminator lead to a scope wherever a marker takes them. -/
theorem Leads.of_paths {others : List Marker} {other : Growth} {steps : List Step} {id : ScopeId}
    (paths : markers.map Marker.path ⊆ others.map Marker.path)
    (grown : (inDocumentOrder markers).foldlM grow Growth.start = .ok growth)
    (grownOther : (inDocumentOrder others).foldlM grow Growth.start = .ok other)
    (leads : Leads markers steps id) (goes : ∀ step ∈ steps, terminates step = false) :
    ∃ otherId, Leads others steps otherId := by
  rcases leads.comesBy grown with ⟨_, marker, read, _, comes, -⟩
  rcases comes.within with ⟨back, split⟩
  have own : marker.path ∈ markers.map Marker.path :=
    List.mem_map_of_mem (mem_inDocumentOrder.mp comes.listed)
  rcases List.mem_map.mp (paths own) with ⟨again, listed, same⟩
  rcases List.append_of_mem (mem_inDocumentOrder.mpr listed) with ⟨earlier, later, order⟩
  rw [order] at grownOther
  rcases foldlM_append_eq_ok.mp grownOther with ⟨begun, grownBefore, rest⟩
  rcases foldlM_cons_eq_ok.mp rest with ⟨recorded, grownHere, -⟩
  rcases grow_eq_ok.mp grownHere with ⟨readAgain, final, reading, run, -⟩
  have path := (readMarker_eq_ok reading).2
  rw [same, (readMarker_eq_ok comes.reading).2] at path
  rw [← Except.ok.inj path, ← split] at run
  rcases foldlM_append_eq_ok.mp run with ⟨walk, front, -⟩
  have straight := (straight_begin (sound_growth sound_start grownBefore)
    (keysInside_of_growth grownBefore) again).run goes front
  have taken : steps = readAgain.path.steps.1.take steps.length := by
    rw [← Except.ok.inj path, ← split, List.take_left]
  refine ⟨walk.2.scope, earlier, again, later, steps.length, walk, order, ?_, straight.onTrack, rfl⟩
  rw [taken] at front
  rw [trace_of_run grownBefore reading front, ← taken]

/-- Some steps lead to a scope of one document and to one of another. -/
def Corresponds (markers : List Marker) (id : ScopeId) (others : List Marker) (other : ScopeId) :
    Prop :=
  ∃ steps, Leads markers steps id ∧ Leads others steps other

theorem Corresponds.symm {others : List Marker} {id other : ScopeId}
    (corresponds : Corresponds markers id others other) : Corresponds others other markers id := by
  rcases corresponds with ⟨steps, leads, alsoLeads⟩
  exact ⟨steps, alsoLeads, leads⟩

section

variable {others : List Marker} {other : Growth}
  (grown : (inDocumentOrder markers).foldlM grow Growth.start = .ok growth)
  (grownOther : (inDocumentOrder others).foldlM grow Growth.start = .ok other)

include grown grownOther

/-- To one scope corresponds one. -/
theorem Corresponds.unique {id otherId another : ScopeId}
    (corresponds : Corresponds markers id others otherId)
    (alsoCorresponds : Corresponds markers id others another) : otherId = another := by
  rcases corresponds with ⟨steps, leads, leadsOther⟩
  rcases alsoCorresponds with ⟨more, leadsMore, leadsAnother⟩
  exact (leadsOther.eq_iff grownOther leadsAnother).mpr ((leads.eq_iff grown leadsMore).mp rfl)

/-- To every dimension corresponds one where markers have the same paths. -/
theorem exists_corresponds (paths : markers.map Marker.path ⊆ others.map Marker.path) {id : Nat}
    (array : growth.outline.scopeIs Scope.isArray id = true) :
    ∃ otherId, Corresponds markers id others otherId ∧
      other.outline.scopeIs Scope.isArray otherId = true := by
  have elsewhere : id ≠ root := by
    rintro rfl
    rcases (sound_growth sound_start grown).coherent.rooted.payload with ⟨payload, found, -, object, -⟩
    rw [scopeIs_eq found, object] at array
    cases array
  rcases exists_madeAlong grown (lt_size_of_scopeIs array) elsewhere with ⟨front, step, made⟩
  rcases made.leads.of_paths paths grown grownOther made.goes with ⟨otherId, leads⟩
  refine ⟨otherId, ⟨_, made.leads, leads⟩, ?_⟩
  have known := leads.find? grownOther
  have inside : otherId ≠ root := by
    rintro rfl
    exact keysInside_of_growth grownOther _ known
  rcases exists_madeAlong grownOther ((sound_growth sound_start grownOther).known _ _ known) inside
    with ⟨otherFront, otherStep, otherMade⟩
  have keys := (otherMade.leads.eq_iff grownOther leads).mp rfl
  rw [pathKey_concat, pathKey_concat] at keys
  rw [otherMade.array]
  exact repeats_of_key otherMade.named made.named otherMade.written
    (otherMade.goes _ (List.mem_append_right _ (.head _))) (made.array.symm.trans array) keys

end

/-! ## What is written on a dimension -/

/-- Some marker writes a condition on a dimension: in a group that leads there, before any
terminator of its path. -/
def WrittenOn (markers : List Marker) (id : ScopeId) (condition : Condition) : Prop :=
  ∃ front step, Leads markers (front ++ [step]) id ∧
    (∀ other ∈ front, terminates other = false) ∧ condition ∈ narrowing step

theorem writtenOn_iff {id : ScopeId} {condition : Condition} :
    WrittenOn markers id condition ↔ WrittenBy (inDocumentOrder markers) id condition := by
  constructor
  · rintro ⟨front, step, ⟨earlier, marker, later, count, walk, order, traced, onTrack, stands⟩,
      goes, listed⟩
    exact ⟨earlier, marker, later, order, count, front, step, walk, traced, goes, onTrack, stands,
      listed⟩
  · rintro ⟨earlier, marker, later, order, count, front, step, walk, traced, goes, onTrack, stands,
      listed⟩
    exact ⟨front, step, ⟨earlier, marker, later, count, walk, order, traced, onTrack, stands⟩,
      goes, listed⟩

theorem not_terminates_of_mem_narrowing {condition : Condition}
    (listed : condition ∈ narrowing step) : terminates step = false := by
  match step, listed with
  | .group _ _ (.loop _ _), _ => rfl

/-- What is written on a dimension is written by all markers with these paths. -/
theorem WrittenOn.of_paths {others : List Marker} {other : Growth} {id otherId : ScopeId}
    {condition : Condition} (paths : markers.map Marker.path ⊆ others.map Marker.path)
    (grown : (inDocumentOrder markers).foldlM grow Growth.start = .ok growth)
    (grownOther : (inDocumentOrder others).foldlM grow Growth.start = .ok other)
    (corresponds : Corresponds markers id others otherId)
    (written : WrittenOn markers id condition) : WrittenOn others otherId condition := by
  rcases written with ⟨front, step, leads, goes, listed⟩
  have straight : ∀ other ∈ front ++ [step], terminates other = false := by
    intro other member
    rcases List.mem_append.mp member with inside | last
    · exact goes other inside
    · rw [List.mem_singleton.mp last]
      exact not_terminates_of_mem_narrowing listed
  rcases leads.of_paths paths grown grownOther straight with ⟨reached, leadsThere⟩
  have here : reached = otherId :=
    Corresponds.unique grown grownOther ⟨_, leads, leadsThere⟩ corresponds
  rw [here] at leadsThere
  exact ⟨front, step, leadsThere, goes, listed⟩

/-! ## What is kept -/

variable {policy : Unterminated} {outline : Outline} {id : Nat} {scope : Scope}

/-- A dimension collects the conditions that are written on it. -/
theorem collects_writtenOn (accepted : ofMarkers markers policy = .ok outline)
    (found : outline.scopes[id]? = some scope) (array : scope.isArray = true) :
    Collects (WrittenOn markers id) scope.conditions := by
  rcases ofMarkers_eq_ok accepted with ⟨growth, grown, rfl⟩
  have repeated : Repeats growth.outline id := by
    intro other foundOther
    cases found.symm.trans foundOther
    exact array
  rw [← conditionsOf_eq found]
  exact (collects_of_growth grown repeated).congr fun condition => writtenOn_iff

/-- The elements that are kept are told by what is written. -/
theorem Collects.keep_eq {written others : Condition → Prop} {conditions held : List Condition}
    (collects : Collects written conditions) (otherCollects : Collects others held)
    (same : ∀ condition, others condition ↔ written condition) (items : List Value) :
    keep conditions items = keep held items := by
  have hold : ∀ element index length, allHold conditions element index length =
      allHold held element index length := by
    intro element index length
    rw [Bool.eq_iff_iff, collects.holds, otherCollects.holds]
    exact forall_congr' fun condition => imp_congr_left (same condition).symm
  unfold keep
  simp only [hold]

/-- The markers of two documents have the same paths, wherever they stand and however often. -/
def SamePaths (markers others : List Marker) : Prop :=
  markers.map Marker.path ⊆ others.map Marker.path ∧
    others.map Marker.path ⊆ markers.map Marker.path

instance (markers others : List Marker) : Decidable (SamePaths markers others) :=
  inferInstanceAs (Decidable (_ ∧ _))

/-- An element satisfies the conditions of a dimension just if it satisfies all that are
written on it.  So the same elements are kept, in the same order, wherever the same conditions
are written; and where markers with the same paths stand in other places there is just one
dimension that corresponds, and it keeps the same elements. -/
theorem conditions_accumulate (accepted : ofMarkers markers policy = .ok outline)
    (found : outline.scopes[id]? = some scope) (array : scope.isArray = true) :
    (∀ element index length, allHold scope.conditions element index length = true ↔
      ∀ condition, WrittenOn markers id condition →
        condition.holds element index length = true) ∧
    (∀ others otherPolicy otherOutline (other : Nat) otherScope,
      ofMarkers others otherPolicy = .ok otherOutline →
      otherOutline.scopes[other]? = some otherScope → otherScope.isArray = true →
      (∀ condition, WrittenOn others other condition ↔ WrittenOn markers id condition) →
      ∀ items, keep scope.conditions items = keep otherScope.conditions items) ∧
    ∀ others otherPolicy otherOutline, SamePaths markers others →
      ofMarkers others otherPolicy = .ok otherOutline →
      ∃ (other : Nat) (otherScope : Scope), otherOutline.scopes[other]? = some otherScope ∧
        otherScope.isArray = true ∧
        (∀ another, Corresponds markers id others another ↔ another = other) ∧
        ∀ items, keep scope.conditions items = keep otherScope.conditions items := by
  have collects := collects_writtenOn accepted found array
  refine ⟨collects.holds, ?_, ?_⟩
  · intro others otherPolicy otherOutline other otherScope alsoAccepted foundOther arrayOther same
    exact collects.keep_eq (collects_writtenOn alsoAccepted foundOther arrayOther) same
  · intro others otherPolicy otherOutline paths alsoAccepted
    rcases ofMarkers_eq_ok accepted with ⟨growth, grown, rfl⟩
    rcases ofMarkers_eq_ok alsoAccepted with ⟨other, grownOther, rfl⟩
    have repeated : growth.outline.scopeIs Scope.isArray id = true := by
      rw [scopeIs_eq found]
      exact array
    rcases exists_corresponds grown grownOther paths.1 repeated with
      ⟨otherId, corresponds, arrayOther⟩
    rcases scopeIs_eq_true.mp arrayOther with ⟨otherScope, foundOther, arrayOther⟩
    refine ⟨otherId, otherScope, foundOther, arrayOther, fun another => ⟨fun also => ?_, ?_⟩, ?_⟩
    · exact Corresponds.unique grown grownOther also corresponds
    · rintro rfl
      exact corresponds
    · refine collects.keep_eq (collects_writtenOn alsoAccepted foundOther arrayOther) ?_
      intro condition
      exact ⟨WrittenOn.of_paths paths.2 grownOther grown corresponds.symm,
        WrittenOn.of_paths paths.1 grown grownOther corresponds⟩

/-- Markers of a hotel, with conditions on rooms and beds, some of them without effect. -/
def hotelMarkers : List Marker :=
  [⟨0, "d.rooms[r,size>10].name"⟩, ⟨2, "d.rooms[r,floor!=1].beds[b,b>0].width"⟩,
    ⟨4, "d.rooms[r].beds[b+1,b=0].width"⟩, ⟨6, "d.rooms[r+1,size>99].beds[b,width>9].width"⟩]

/-- The same paths in other places, one of them twice. -/
def hotelMoved : List Marker :=
  [⟨7, "d.rooms[r+1,size>99].beds[b,width>9].width"⟩, ⟨1, "d.rooms[r,floor!=1].beds[b,b>0].width"⟩,
    ⟨3, "d.rooms[r,size>10].name"⟩, ⟨3, "d.rooms[r].beds[b+1,b=0].width"⟩,
    ⟨5, "d.rooms[r,size>10].name"⟩]

/-- A room of a hotel. -/
def hotelRoom (name : String) (size floor : Int) : Value :=
  .ofFields [("name", .string name), ("size", .ofInt size), ("floor", .ofInt floor)]

/-- A small room, one on the ground floor, and two others. -/
def hotelRooms : List Value :=
  [hotelRoom "A" 9 2, hotelRoom "B" 12 2, hotelRoom "C" 12 1, hotelRoom "D" 15 3]

theorem conditions_accumulate_hotel :
    ∃ outline scope otherOutline,
      ofMarkers hotelMarkers .strict = .ok outline ∧ outline.scopes[1]? = some scope ∧
      ofMarkers hotelMoved .permissive = .ok otherOutline ∧
      (keep scope.conditions hotelRooms).map Value.json =
        [hotelRoom "B" 12 2, hotelRoom "D" 15 3].map Value.json ∧
      (∀ element index length, allHold scope.conditions element index length = true ↔
        ∀ condition, WrittenOn hotelMarkers 1 condition →
          condition.holds element index length = true) ∧
      (∃ (other : Nat) (otherScope : Scope), otherOutline.scopes[other]? = some otherScope ∧
        (∀ another, Corresponds hotelMarkers 1 hotelMoved another ↔ another = other) ∧
        (keep otherScope.conditions hotelRooms).map Value.json =
          [hotelRoom "B" 12 2, hotelRoom "D" 15 3].map Value.json) := by
  have shown : ((ofMarkers hotelMarkers .strict).toOption.bind fun outline =>
      outline.scopes[1]?).any (fun scope => scope.isArray &&
        (keep scope.conditions hotelRooms).map Value.json ==
          [hotelRoom "B" 12 2, hotelRoom "D" 15 3].map Value.json) = true := by decide +kernel
  rcases (Option.any_eq_true _ _).mp shown with ⟨scope, located, both⟩
  rcases Option.bind_eq_some_iff.mp located with ⟨outline, accepted, found⟩
  rcases Bool.and_eq_true_iff.mp both with ⟨array, kept⟩
  have accepted := eq_ok_of_toOption accepted
  rcases exists_of_isOk (by decide +kernel : (ofMarkers hotelMoved .permissive).isOk = true) with
    ⟨otherOutline, alsoAccepted⟩
  rcases conditions_accumulate accepted found array with ⟨holds, -, moved⟩
  rcases moved hotelMoved .permissive otherOutline (by decide +kernel) alsoAccepted with
    ⟨other, otherScope, foundOther, -, corresponds, same⟩
  refine ⟨outline, scope, otherOutline, accepted, found, alsoAccepted, eq_of_beq kept, holds, other,
    otherScope, foundOther, corresponds, ?_⟩
  rw [← same]
  exact eq_of_beq kept

end Stencil.Outline
