import Stencil.Proofs.Outline.Identity
import Stencil.Proofs.Outline.Points

namespace Stencil.Outline

open Marker (Step)

/-!
# Which markers come to a scope

A marker comes to the scopes at which its walk stands, one after the other.  Every
scope is there because some marker came to it.
-/

/-- The marker of this rank in the document comes to a scope. -/
def Reaches (markers : List Marker) (rank : Nat) (id : ScopeId) : Prop :=
  ∃ earlier marker later count steps walk,
    inDocumentOrder markers = earlier ++ marker :: later ∧ earlier.length = rank ∧
      trace earlier marker count = .ok (steps, walk) ∧ walk.2.lost = false ∧ walk.2.scope = id

theorem trace_of_run {earlier : List Marker} {marker : Marker} {count : Nat} {growth : Growth}
    {read : ReadMarker} {walk : Walk} (grown : earlier.foldlM grow Growth.start = .ok growth)
    (reading : readMarker marker = .ok read)
    (run : (read.path.steps.1.take count).foldlM walkStep (growth, beginWalk growth marker) =
      .ok walk) : trace earlier marker count = .ok (read.path.steps.1.take count, walk) :=
  bind_eq_ok.mpr ⟨growth, grown, bind_eq_ok.mpr ⟨read, reading, bind_eq_ok.mpr ⟨walk, run, rfl⟩⟩⟩

/-- The scopes to which the marker of this rank comes. -/
def reachedBy (markers : List Marker) (rank : Nat) : List ScopeId :=
  match (inDocumentOrder markers)[rank]? with
  | none => []
  | some marker =>
    match readMarker marker with
    | .error _ => []
    | .ok read =>
      (List.range (read.path.steps.1.length + 1)).filterMap fun count =>
        match trace ((inDocumentOrder markers).take rank) marker count with
        | .error _ => none
        | .ok (_, walk) => if walk.2.lost then none else some walk.2.scope

theorem mem_reachedBy {markers : List Marker} {rank : Nat} {id : ScopeId} :
    id ∈ reachedBy markers rank ↔ Reaches markers rank id := by
  unfold reachedBy
  constructor
  · intro listed
    split at listed
    · cases listed
    · next marker found =>
      split at listed
      · cases listed
      · rcases List.mem_filterMap.mp listed with ⟨count, -, reached⟩
        split at reached
        · cases reached
        · next steps walk traced =>
          split at reached
          · cases reached
          · next onTrack =>
            rcases List.getElem?_eq_some_iff.mp found with ⟨bound, same⟩
            refine ⟨_, marker, (inDocumentOrder markers).drop (rank + 1), count, steps, walk, ?_,
              by simpa using Nat.le_of_lt bound, traced, by simpa using onTrack,
              Option.some.inj reached⟩
            rw [← same, List.cons_getElem_drop_succ, List.take_append_drop]
  · rintro ⟨earlier, marker, later, count, steps, walk, order, rfl, traced, onTrack, rfl⟩
    have found : (inDocumentOrder markers)[earlier.length]? = some marker := by simp [order]
    have front : (inDocumentOrder markers).take earlier.length = earlier := by simp [order]
    rcases bind_eq_ok.mp traced with ⟨growth, grown, rest⟩
    rcases bind_eq_ok.mp rest with ⟨read, reading, rest⟩
    rcases bind_eq_ok.mp rest with ⟨final, walks, same⟩
    cases same
    rw [found, front]
    simp only [reading]
    refine List.mem_filterMap.mpr ⟨min count read.path.steps.1.length,
      List.mem_range.mpr (Nat.lt_succ_of_le (Nat.min_le_right _ _)), ?_⟩
    rw [List.take_eq_take_min] at walks
    simp only [trace_of_run grown reading walks, onTrack]
    rfl

theorem Reaches.lt_length {markers : List Marker} {rank : Nat} {id : ScopeId}
    (reaches : Reaches markers rank id) : rank < markers.length := by
  rcases reaches with ⟨earlier, marker, later, count, steps, walk, order, rfl, -⟩
  have length := congrArg List.length order
  rw [inDocumentOrder, length_orderBy, List.length_append, List.length_cons] at length
  rw [length]
  exact Nat.lt_add_of_pos_right (Nat.succ_pos _)

/-! ## What markers do on their way -/

/-- An item of a list that is one longer is the last, or one of the others. -/
theorem exists_split_concat {α : Type} (P : List α → α → Prop) (taken : List α) (item : α) :
    (∃ front other back, taken ++ [item] = front ++ other :: back ∧ P front other) ↔
      (∃ front other back, taken = front ++ other :: back ∧ P front other) ∨ P taken item := by
  constructor
  · rintro ⟨front, other, back, split, holds⟩
    rcases List.eq_nil_or_concat back with rfl | ⟨more, last, rfl⟩
    · rcases List.append_inj' split rfl with ⟨rfl, same⟩
      cases same
      exact .inr holds
    · rw [List.concat_eq_append, ← List.cons_append, ← List.append_assoc] at split
      exact .inl ⟨front, other, more, (List.append_inj' split rfl).1, holds⟩
  · rintro (⟨front, other, back, split, holds⟩ | holds)
    · refine ⟨front, other, back ++ [item], ?_, holds⟩
      rw [split, List.append_assoc, List.cons_append]
    · exact ⟨taken, item, [], rfl, holds⟩

/-- A marker behind some others takes a step of some kind, told by the steps before it and
by where it leads. -/
def Takes (kind : List Step → Step → Walk → Prop) (earlier : List Marker) (marker : Marker) :
    Prop :=
  ∃ count front step walk, trace earlier marker count = .ok (front ++ [step], walk) ∧
    kind front step walk

/-- Such a step is among these. -/
def TakesAlong (kind : List Step → Step → Walk → Prop) (begun : Walk) (steps : List Step) : Prop :=
  ∃ front step back walk, steps = front ++ step :: back ∧
    (front ++ [step]).foldlM walkStep begun = .ok walk ∧ kind front step walk

section

variable (kind : List Step → Step → Walk → Prop)

theorem takesAlong_append {begun after : Walk} {taken : List Step} {step : Step}
    (run : (taken ++ [step]).foldlM walkStep begun = .ok after) :
    TakesAlong kind begun (taken ++ [step]) ↔ TakesAlong kind begun taken ∨ kind taken step after := by
  have split := exists_split_concat
    (fun front step => ∃ walk, (front ++ [step]).foldlM walkStep begun = .ok walk ∧
      kind front step walk) taken step
  simp only [run, Except.ok.injEq, exists_eq_left'] at split
  simpa only [TakesAlong, exists_and_left] using split

/-- The steps that a marker takes are those along its path. -/
theorem takes_iff_takesAlong {earlier : List Marker} {marker : Marker} {growth : Growth}
    {read : ReadMarker} (grown : earlier.foldlM grow Growth.start = .ok growth)
    (reading : readMarker marker = .ok read) :
    Takes kind earlier marker ↔
      TakesAlong kind (growth, beginWalk growth marker) read.path.steps.1 := by
  constructor
  · rintro ⟨count, front, step, walk, traced, holds⟩
    rcases trace_eq_ok traced with ⟨same, sameRead, grownToo, readingToo, taken, ran⟩
    cases grown.symm.trans grownToo
    cases reading.symm.trans readingToo
    refine ⟨front, step, read.path.steps.1.drop count, walk, ?_, ran, holds⟩
    rw [← List.singleton_append, ← List.append_assoc, taken, List.take_append_drop]
  · rintro ⟨front, step, back, walk, split, ran, holds⟩
    have taken : read.path.steps.1.take (front.length + 1) = front ++ [step] := by
      rw [split, List.take_append, List.take_of_length_le (Nat.le_succ _)]
      simp
    rw [← taken] at ran
    have traced := trace_of_run grown reading ran
    rw [taken] at traced
    exact ⟨_, front, step, walk, traced, holds⟩

end

/-! ## Scopes that are made -/

variable {growth : Growth} {progress : Progress} {step : Step} {after : Walk}

/-- A walk on its track is behind a terminator just if it passed one. -/
theorem closing_run {steps : List Step} {marker : Marker}
    (run : steps.foldlM walkStep (growth, beginWalk growth marker) = .ok after)
    (onTrack : after.2.lost = false) : after.2.closing = steps.any terminates := by
  refine foldlM_induction_from_nil
    (motive := fun taken walk => walk.2.lost = false → walk.2.closing = taken.any terminates)
    (fun taken step before after holds run onTrack => ?_) steps (fun _ => rfl) run onTrack
  rw [List.any_append]
  cases taken_of_walkStep run with
  | astray lost => exact absurd (onTrack.symm.trans lost) (by decide)
  | missing => cases onTrack
  | found id tracked known goes => simp [holds tracked, Progress.enter, goes]
  | narrowed id name follows iterator conditions tracked known use =>
    simp [holds tracked, Progress.enter, use, terminates]
  | made arrayKey tracked unknown opening goes => simp [holds tracked, Progress.enter, goes]
  | ended id name follows iterator tracked known use => simp [use, terminates]

/-- What is known of a step that makes a scope. -/
theorem Taken.of_new (taking : Taken growth progress step after) {id : Nat}
    (new : growth.outline.scopes.size ≤ id) (bound : id < after.1.outline.scopes.size) :
    progress.lost = false ∧ progress.closing = false ∧ terminates step = false ∧
      after.2.lost = false ∧ after.2.scope = id ∧
      after.1.outline.scopeIs Scope.isArray id = repeats step := by
  cases taking with
  | astray | missing | found => exact absurd bound (Nat.not_lt_of_le new)
  | narrowed | ended =>
    rw [(sameFrames_modifyDimension growth _ _).size] at bound
    exact absurd bound (Nat.not_lt_of_le new)
  | made arrayKey onTrack unknown opening goes =>
    rw [size_addScope] at bound
    obtain rfl : id = growth.outline.scopes.size := Nat.le_antisymm (Nat.le_of_lt_succ bound) new
    refine ⟨onTrack, opening, goes, onTrack, rfl, ?_⟩
    rw [scopeIs_eq (getElem?_addScope_new growth _ _ arrayKey)]
    exact isArray_scopeMade growth progress goes

/-- Steps of which none is a terminator lead to a scope that is just what the last of them
makes. -/
def MakesScope (id : ScopeId) (front : List Step) (step : Step) (walk : Walk) : Prop :=
  (∀ other ∈ front ++ [step], terminates other = false) ∧ walk.2.lost = false ∧
    walk.2.scope = id ∧ walk.1.outline.scopeIs Scope.isArray id = repeats step

/-- Every scope that a walk made was made by one of its steps. -/
theorem takesAlong_made {steps : List Step} {marker : Marker}
    (run : steps.foldlM walkStep (growth, beginWalk growth marker) = .ok after) {id : Nat}
    (new : growth.outline.scopes.size ≤ id) (bound : id < after.1.outline.scopes.size) :
    TakesAlong (MakesScope id) (growth, beginWalk growth marker) steps := by
  refine foldlM_induction_along
    (motive := fun taken walk => id < walk.1.outline.scopes.size →
      TakesAlong (MakesScope id) (growth, beginWalk growth marker) taken) ?_
    (fun bound => absurd bound (Nat.not_lt_of_le new)) run bound
  intro taken step before after _ ran made stepped bound
  rw [takesAlong_append _ (foldlM_concat_eq_ok.mpr ⟨before, ran, stepped⟩)]
  by_cases old : id < before.1.outline.scopes.size
  · exact .inl (made old)
  · rcases (taken_of_walkStep stepped).of_new (Nat.le_of_not_lt old) bound with
      ⟨tracked, opening, goes, onTrack, stands, array⟩
    rw [closing_run ran tracked] at opening
    refine .inr ⟨fun other member => ?_, onTrack, stands, array⟩
    rcases List.mem_append.mp member with inside | last
    · exact Bool.eq_false_iff.mpr (List.any_eq_false.mp opening other inside)
    · rw [List.mem_singleton.mp last]
      exact goes

/-- Every scope but that of the payload was made by some marker. -/
theorem exists_makesScope {markers : List Marker}
    (run : markers.foldlM grow Growth.start = .ok growth) {id : Nat}
    (bound : id < growth.outline.scopes.size) (elsewhere : id ≠ root) :
    ∃ earlier marker later, markers = earlier ++ marker :: later ∧
      Takes (MakesScope id) earlier marker := by
  refine foldlM_induction_along
    (motive := fun taken growth => id < growth.outline.scopes.size →
      ∃ earlier marker later, taken = earlier ++ marker :: later ∧
        Takes (MakesScope id) earlier marker) ?_
    (fun bound => absurd (Nat.lt_one_iff.mp bound) elsewhere) run bound
  intro taken marker before after _ ran made grown bound
  rw [exists_split_concat fun earlier marker => Takes (MakesScope id) earlier marker]
  by_cases old : id < before.outline.scopes.size
  · exact .inl (made old)
  · rcases grow_eq_ok.mp grown with ⟨read, final, reading, steps, rfl⟩
    rw [(sameFrames_record final read _).size] at bound
    refine .inr ((takes_iff_takesAlong _ ran reading).mpr ?_)
    exact takesAlong_made steps (Nat.le_of_not_lt old) bound

/-- Some marker came to every scope but that of the payload. -/
theorem exists_reached {markers : List Marker}
    (run : markers.foldlM grow Growth.start = .ok growth) {id : Nat}
    (bound : id < growth.outline.scopes.size) (elsewhere : id ≠ root) :
    ∃ earlier marker later count steps walk, markers = earlier ++ marker :: later ∧
      trace earlier marker count = .ok (steps, walk) ∧ walk.2.lost = false ∧
      walk.2.scope = id := by
  rcases exists_makesScope run bound elsewhere with ⟨earlier, marker, later, split, count, front,
    step, walk, traced, -, onTrack, stands, -⟩
  exact ⟨earlier, marker, later, count, _, walk, split, traced, onTrack, stands⟩

end Stencil.Outline
