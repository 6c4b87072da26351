import Stencil.Proofs.Outline.Address
import Stencil.Proofs.Outline.Bodies

namespace Stencil.Outline

open Marker (Step)

/-!
# Points of scopes and slots

Every marker has a point of its own, and the scopes it makes lie one inside the
other.  So repetitions that begin at one point are never beside each other, and the
point behind the last marker lies behind everything.
-/

variable {outline : Outline}

/-- Repetitions in the same dimensions begin at different points. -/
def PointsApart (outline : Outline) : Prop :=
  ∀ (left right : Nat) (scope other : Scope) (parent outer : Nat),
    outline.scopes[left]? = some scope → outline.scopes[right]? = some other →
    scope.isArray = true → other.isArray = true →
    scope.parent = some parent → other.parent = some outer →
    outline.dimensionsAround parent = outline.dimensionsAround outer →
    scope.opened.point = other.opened.point → left = right

/-- The points of an outline end with that of the last marker.  Scopes that begin at one
point lie one inside the other, and a value at that point lies inside them. -/
structure Pointed (outline : Outline) : Prop where
  opened : ∀ (id : Nat) scope, outline.scopes[id]? = some scope →
    scope.opened.point ≤ outline.lastPoint
  placed : ∀ (id : Nat) slot, outline.slots[id]? = some slot →
    slot.place.point ≤ outline.lastPoint
  nested : ∀ (left right : Nat) scope other, outline.scopes[left]? = some scope →
    outline.scopes[right]? = some other → scope.opened.point = other.opened.point →
    left ∈ outline.ancestry right ∨ right ∈ outline.ancestry left
  around : ∀ (id scope : Nat) slot opened, outline.slots[id]? = some slot →
    outline.scopes[scope]? = some opened → opened.opened.point = slot.place.point →
    scope ∈ outline.ancestry slot.scope

/-- Scopes around one scope lie one inside the other. -/
theorem nested_of_mem_ancestry (rooted : Rooted outline) {id left right : Nat}
    (bound : id < outline.scopes.size) (first : left ∈ outline.ancestry id)
    (second : right ∈ outline.ancestry id) :
    left ∈ outline.ancestry right ∨ right ∈ outline.ancestry left := by
  have leftBound := Nat.lt_of_le_of_lt (le_of_mem_ancestry rooted bound first) bound
  have rightBound := Nat.lt_of_le_of_lt (le_of_mem_ancestry rooted bound second) bound
  rcases List.prefix_or_prefix_of_prefix (ancestry_isPrefix_of_mem rooted bound first)
    (ancestry_isPrefix_of_mem rooted bound second) with begins | begins
  · exact .inl (begins.subset (mem_ancestry_self rooted leftBound))
  · exact .inr (begins.subset (mem_ancestry_self rooted rightBound))

theorem Pointed.pointsApart (pointed : Pointed outline) (rooted : Rooted outline) :
    PointsApart outline := by
  -- A dimension inside another lies in one more dimension than that.
  have notInside : ∀ {left right parent outer : Nat} {scope other : Scope},
      outline.scopes[left]? = some scope → outline.scopes[right]? = some other →
      scope.isArray = true → scope.parent = some parent → other.parent = some outer →
      outline.dimensionsAround parent = outline.dimensionsAround outer → left ≠ right →
      left ∉ outline.ancestry right := by
    intro left right parent outer scope other found otherFound array link otherLink around
      different member
    rw [ancestry_inside rooted otherFound otherLink, List.mem_append, List.mem_singleton] at member
    have inside := member.resolve_right different
    have dimension : left ∈ outline.dimensionsAround outer :=
      mem_dimensionsAround_iff.mpr ⟨inside, by rw [scopeIs_eq found, array]⟩
    rw [← around] at dimension
    have smaller := rooted.parent_lt found link
    have least := le_of_mem_ancestry rooted (smaller.trans (lt_size_of_getElem? found))
      (mem_dimensionsAround_iff.mp dimension).1
    exact Nat.not_lt_of_le least smaller
  intro left right scope other parent outer found otherFound array otherArray link otherLink around
    same
  by_contra different
  rcases pointed.nested left right scope other found otherFound same with inside | inside
  · exact notInside found otherFound array link otherLink around different inside
  · exact notInside otherFound found otherArray otherLink link around.symm
      (fun equal => different equal.symm) inside

/-! ## Walks -/

variable {growth : Growth} {progress : Progress} {taken : List Step} {step : Step} {after : Walk}

/-- A scope found by a step lies just inside the scope where the walk stands. -/
theorem parent_of_find? (walked : AtTrail (growth, progress) taken)
    (readable : Marker.Readable (trail (taken ++ [step]))) (onTrack : progress.lost = false)
    {id : Nat} (known : growth.find? (progress.keyAt step) = some id) :
    ∃ scope, growth.outline.scopes[id]? = some scope ∧ scope.parent = some progress.scope := by
  obtain ⟨elsewhere, bound, -⟩ := walked.keyed.keyOf _ id known
  have rooted := walked.keyed.rooted
  have found := Array.getElem?_eq_getElem bound
  obtain ⟨parent, link, smaller, -⟩ := rooted.inside id _ found elsewhere
  have address := address_of_find? walked readable onTrack known
  rw [address_inside rooted found link, trail, List.map_append] at address
  have outer : growth.outline.address parent = growth.outline.address progress.scope := by
    rw [walked.address onTrack]
    exact (List.append_inj' address rfl).1
  refine ⟨_, found, ?_⟩
  rw [link, walked.keyed.address_injective (smaller.trans bound) walked.bound outer]

/-- A scope found by a step leaves the footprint of the step. -/
theorem footprint_of_find? (walked : AtTrail (growth, progress) taken)
    (readable : Marker.Readable (trail (taken ++ [step]))) (onTrack : progress.lost = false)
    {id : Nat} (known : growth.find? (progress.keyAt step) = some id) {scope : Scope}
    (found : growth.outline.scopes[id]? = some scope) : footprintOf scope = step.footprint := by
  obtain ⟨_, again, link⟩ := parent_of_find? walked readable onTrack known
  cases found.symm.trans again
  have address := address_of_find? walked readable onTrack known
  rw [address_inside walked.keyed.rooted found link, trail, List.map_append] at address
  exact List.singleton_inj.mp (List.append_inj' address rfl).2

/-- A step that is not lost goes one scope further in. -/
theorem Taken.ancestry (taking : Taken growth progress step after)
    (walked : AtTrail (growth, progress) taken)
    (readable : Marker.Readable (trail (taken ++ [step]))) (further : AtTrail after (taken ++ [step]))
    (onTrack : after.2.lost = false) :
    after.1.outline.ancestry after.2.scope =
      growth.outline.ancestry progress.scope ++ [after.2.scope] := by
  have rooted := walked.keyed.rooted
  have old : after.1.outline.ancestry progress.scope = growth.outline.ancestry progress.scope :=
    taking.keeps.ancestry rooted further.keyed.rooted walked.bound
  have link : ∃ scope, after.1.outline.scopes[after.2.scope]? = some scope ∧
      scope.parent = some progress.scope := by
    have entered : ∀ {id : Nat}, progress.lost = false →
        growth.find? (progress.keyAt step) = some id →
        ∃ scope, after.1.outline.scopes[id]? = some scope ∧ scope.parent = some progress.scope := by
      intro id onTrack known
      obtain ⟨scope, found, link⟩ := parent_of_find? walked readable onTrack known
      obtain ⟨later, foundLater, same⟩ := taking.keeps id scope found
      exact ⟨later, foundLater, (congrArg Frame.parent same).trans link⟩
    cases taking with
    | astray lost =>
      rw [lost] at onTrack
      cases onTrack
    | missing => cases onTrack
    | found id onTrack known => exact entered onTrack known
    | narrowed id name follows iterator conditions onTrack known => exact entered onTrack known
    | ended id name follows iterator onTrack known => exact entered onTrack known
    | made arrayKey onTrack unknown opening goes =>
      exact ⟨_, getElem?_addScope_new growth _ _ _, rfl⟩
  obtain ⟨scope, found, link⟩ := link
  rw [ancestry_inside further.keyed.rooted found link, old]

/-- The scopes that a walk made so far begin at its marker and lie around the scope
where it stands. -/
structure Making (begun : Growth) (walk : Walk) (taken : List Step) : Prop where
  atTrail : AtTrail walk taken
  keeps : Keeps begun.outline walk.1.outline
  slots : walk.1.outline.slots = begun.outline.slots
  occurrences : walk.1.outline.occurrences = begun.outline.occurrences
  point : walk.2.point = begun.outline.lastPoint + 1
  made : ∀ (id : Nat) scope, begun.outline.scopes.size ≤ id →
    walk.1.outline.scopes[id]? = some scope →
    scope.opened.point = walk.2.point ∧ id ∈ walk.1.outline.ancestry walk.2.scope

theorem making_begin (keyed : Keyed growth) (marker : Marker) :
    Making growth (growth, beginWalk growth marker) [] :=
  { atTrail := atTrail_begin keyed marker
    keeps := .refl _
    slots := rfl
    occurrences := rfl
    point := rfl
    made := fun _ _ new found => absurd (lt_size_of_getElem? found) (Nat.not_lt_of_le new) }

/-- A walk that is lost stays where it is. -/
theorem Taken.stays (taking : Taken growth progress step after) (lost : after.2.lost = true) :
    after.1 = growth ∧ after.2.scope = progress.scope := by
  have onTrackStill : progress.lost = false → progress.lost = true → False := by
    intro onTrack lost
    rw [lost] at onTrack
    cases onTrack
  cases taking with
  | astray | missing => exact ⟨rfl, rfl⟩
  | found id onTrack => exact (onTrackStill onTrack lost).elim
  | narrowed id name follows iterator conditions onTrack => exact (onTrackStill onTrack lost).elim
  | made arrayKey onTrack => exact (onTrackStill onTrack lost).elim
  | ended id name follows iterator onTrack => exact (onTrackStill onTrack lost).elim

/-- A scope made by a step begins at the marker, and the walk goes there. -/
theorem Taken.new (taking : Taken growth progress step after) {id : Nat} {scope : Scope}
    (new : growth.outline.scopes.size ≤ id) (found : after.1.outline.scopes[id]? = some scope) :
    scope.opened = progress.place ∧ after.2.scope = id := by
  have known : ∀ {outline : Outline}, SameFrames growth.outline outline →
      outline.scopes[id]? = some scope → False := by
    intro outline same found
    have bound := lt_size_of_getElem? found
    rw [same.size] at bound
    exact Nat.not_lt_of_le new bound
  cases taking with
  | astray | missing | found => exact (known rfl found).elim
  | narrowed | ended => exact (known (sameFrames_modifyDimension growth _ _) found).elim
  | made arrayKey onTrack unknown opening goes =>
    rcases old_or_new found with old | ⟨rfl, rfl⟩
    · exact (Nat.not_lt_of_le new (lt_size_of_getElem? old)).elim
    · exact ⟨rfl, rfl⟩

theorem Making.onward {begun : Growth} (making : Making begun (growth, progress) taken)
    (readable : Marker.Readable (trail (taken ++ [step]))) (written : step.Written)
    (plain : step.Plain) (taking : Taken growth progress step after) :
    Making begun after (taken ++ [step]) := by
  have further := making.atTrail.onward readable written plain taking
  refine ⟨further, making.keeps.trans taking.keeps, taking.slots.trans making.slots,
    taking.occurrences.trans making.occurrences, taking.point.trans making.point, ?_⟩
  intro id scope new found
  rw [taking.point]
  by_cases old : id < growth.outline.scopes.size
  · have foundOld := Array.getElem?_eq_getElem old
    obtain ⟨later, foundLater, same⟩ := taking.keeps id _ foundOld
    rw [found] at foundLater
    cases foundLater
    obtain ⟨opened, around⟩ := making.made id _ new foundOld
    refine ⟨(congrArg (fun frame => frame.opened.point) same).trans opened, ?_⟩
    cases onTrack : after.2.lost with
    | false =>
      rw [taking.ancestry making.atTrail readable further onTrack]
      exact List.mem_append_left _ around
    | true =>
      obtain ⟨growths, scopes⟩ := taking.stays onTrack
      rw [growths, scopes]
      exact around
  · obtain ⟨opened, rfl⟩ := taking.new (Nat.le_of_not_lt old) found
    rw [opened]
    exact ⟨rfl, mem_ancestry_self further.keyed.rooted further.bound⟩

theorem Making.run {begun : Growth} {walk : Walk} {steps : List Step}
    (making : Making begun walk taken) (walkable : Walkable (taken ++ steps))
    (run : steps.foldlM walkStep walk = .ok after) : Making begun after (taken ++ steps) := by
  refine foldlM_induction_on_taken
    (motive := fun taken walk => Walkable taken → Making begun walk taken) ?_ steps
    (fun _ => making) run walkable
  intro taken step before after making run walkable
  exact (making walkable.left).onward walkable.readable (walkable.written step (by simp))
    (walkable.plain step (by simp)) (taken_of_walkStep run)

/-! ## Markers -/

theorem pointed_start : Pointed Growth.start.outline := by
  constructor
  · intro id scope found
    rw [(eq_rootScope_of_start found).2]
    exact Nat.le_refl 0
  · intro id slot found
    cases found
  · intro left right scope other found otherFound _
    rw [(eq_rootScope_of_start found).1, (eq_rootScope_of_start otherFound).1]
    exact .inl (mem_ancestry_self sound_start.coherent.rooted (Nat.zero_lt_one))
  · intro id scope slot opened found
    cases found

theorem lastPoint_record (walk : Walk) (read : ReadMarker) (field : String) :
    (record walk read field).outline.lastPoint = walk.1.outline.lastPoint + 1 := by
  unfold record lastPoint
  cases ends : read.path.terminates <;> simp [addSlot]

theorem slot_of_record {walk : Walk} {read : ReadMarker} {field : String} {id : Nat} {slot : Slot}
    (found : (record walk read field).outline.slots[id]? = some slot) :
    walk.1.outline.slots[id]? = some slot ∨
      slot.place = walk.2.place ∧ slot.scope = walk.2.scope := by
  unfold record at found
  simp only at found
  split at found
  · exact .inl found
  · simp only [addSlot, Array.getElem?_push] at found
    split at found
    · cases found
      exact .inr ⟨rfl, rfl⟩
    · exact .inl found

/-- What a marker adds to an outline: one point more, and at this point scopes and a
value around and in the scope that it leads to. -/
structure Extended (before after : Outline) (reached : ScopeId) : Prop where
  last : after.lastPoint = before.lastPoint + 1
  bound : reached < after.scopes.size
  ancestry : ∀ id, id < before.scopes.size → after.ancestry id = before.ancestry id
  scopes : ∀ (id : Nat) scope, after.scopes[id]? = some scope →
    (∃ old, before.scopes[id]? = some old ∧ old.opened = scope.opened) ∨
      scope.opened.point = before.lastPoint + 1 ∧ id ∈ after.ancestry reached
  slots : ∀ (id : Nat) slot, after.slots[id]? = some slot →
    before.slots[id]? = some slot ∨
      slot.place.point = before.lastPoint + 1 ∧ slot.scope = reached

/-- The scopes of a recorded walk are old ones, or were made by the walk. -/
theorem Making.extended {begun : Growth} {walk : Walk} (making : Making begun walk taken)
    (rooted : Rooted begun.outline) (read : ReadMarker) (field : String) :
    Extended begun.outline (record walk read field).outline walk.2.scope := by
  have same := sameFrames_record walk read field
  have walkRooted := making.atTrail.keyed.rooted
  have rootedAfter : Rooted (record walk read field).outline := same.rooted walkRooted
  have ancestries : ∀ {id : Nat}, id < walk.1.outline.scopes.size →
      (record walk read field).outline.ancestry id = walk.1.outline.ancestry id :=
    fun bound => same.keeps.ancestry walkRooted rootedAfter bound
  constructor
  · rw [lastPoint_record, lastPoint, making.occurrences]
    rfl
  · rw [same.size]
    exact making.atTrail.bound
  · intro id bound
    rw [ancestries (bound.trans_le making.keeps.size_le),
      making.keeps.ancestry rooted walkRooted bound]
  · intro id scope found
    obtain ⟨between, foundBetween, alike⟩ := same.symm.keeps id scope found
    have opened : between.opened = scope.opened := congrArg Frame.opened alike
    by_cases old : id < begun.outline.scopes.size
    · have foundOld := Array.getElem?_eq_getElem old
      obtain ⟨later, foundLater, alikeOld⟩ := making.keeps id _ foundOld
      rw [foundBetween] at foundLater
      cases foundLater
      exact .inl ⟨_, foundOld, (congrArg Frame.opened alikeOld).symm.trans opened⟩
    · obtain ⟨point, around⟩ := making.made id between (Nat.le_of_not_lt old) foundBetween
      rw [ancestries making.atTrail.bound, ← opened, point, making.point]
      exact .inr ⟨rfl, around⟩
  · intro id slot found
    rcases slot_of_record found with old | ⟨place, scope⟩
    · rw [making.slots] at old
      exact .inl old
    · exact .inr ⟨by rw [place]; exact making.point, scope⟩

/-- Points stay in order, since all that is new stands at the last one and lies around
one scope. -/
theorem Extended.pointed {before after : Outline} {reached : ScopeId}
    (extended : Extended before after reached) (rooted : Rooted after)
    (pointed : Pointed before) : Pointed after := by
  have late : ∀ {point : Nat}, point ≤ before.lastPoint → point ≠ before.lastPoint + 1 :=
    fun early => Nat.ne_of_lt (Nat.lt_succ_of_le early)
  constructor
  · intro id scope found
    rw [extended.last]
    rcases extended.scopes id scope found with ⟨old, foundOld, opened⟩ | ⟨point, -⟩
    · rw [← opened]
      exact Nat.le_succ_of_le (pointed.opened id old foundOld)
    · exact Nat.le_of_eq point
  · intro id slot found
    rw [extended.last]
    rcases extended.slots id slot found with old | ⟨point, -⟩
    · exact Nat.le_succ_of_le (pointed.placed id slot old)
    · exact Nat.le_of_eq point
  · intro left right scope other found otherFound points
    rcases extended.scopes left scope found with ⟨old, foundOld, opened⟩ | ⟨point, around⟩
    · have early := pointed.opened left old foundOld
      rcases extended.scopes right other otherFound with
        ⟨otherOld, foundOther, otherOpened⟩ | ⟨otherPoint, -⟩
      · rw [extended.ancestry left (lt_size_of_getElem? foundOld),
          extended.ancestry right (lt_size_of_getElem? foundOther)]
        rw [← opened, ← otherOpened] at points
        exact pointed.nested left right old otherOld foundOld foundOther points
      · rw [opened, points] at early
        exact absurd otherPoint (late early)
    · rcases extended.scopes right other otherFound with
        ⟨otherOld, foundOther, otherOpened⟩ | ⟨-, otherAround⟩
      · have early := pointed.opened right otherOld foundOther
        rw [otherOpened, ← points] at early
        exact absurd point (late early)
      · exact nested_of_mem_ancestry rooted extended.bound around otherAround
  · intro id scope slot opened found foundScope points
    rcases extended.slots id slot found with old | ⟨place, rfl⟩
    · have early := pointed.placed id slot old
      rcases extended.scopes scope opened foundScope with
        ⟨earlier, foundOld, same⟩ | ⟨point, -⟩
      · have inside := pointed.around id scope slot earlier old foundOld (by rw [same, points])
        rw [extended.ancestry slot.scope (bound_of_mem_ancestry inside)]
        exact inside
      · rw [← points] at early
        exact absurd point (late early)
    · rcases extended.scopes scope opened foundScope with ⟨earlier, foundOld, same⟩ | ⟨-, inside⟩
      · have early := pointed.opened scope earlier foundOld
        rw [same, points] at early
        exact absurd place (late early)
      · exact inside

/-- What a marker leaves behind: the scopes of its walk, and one point more. -/
theorem pointed_grow {marker : Marker} {grown : Growth} (keyed : Keyed growth)
    (pointed : Pointed growth.outline)
    (plain : ∀ path, Marker.readPath marker.path.toList = .ok path → path.Plain)
    (run : grow growth marker = .ok grown) : Pointed grown.outline := by
  have rooted := (keyed_grow keyed plain run).rooted
  obtain ⟨read, walk, reading, steps, rfl⟩ := grow_eq_ok.mp run
  obtain ⟨-, path⟩ := readMarker_eq_ok reading
  have making := (making_begin keyed marker).run (walkable_steps path (plain _ path)) steps
  rw [List.nil_append] at making
  exact (making.extended keyed.rooted read read.path.steps.2).pointed rooted pointed

theorem pointed_of_ofMarkers {markers : List Marker} {policy : Unterminated}
    (accepted : ofMarkers markers policy = .ok outline) (plain : PlainMarkers markers) :
    Pointed outline := by
  obtain ⟨growth, grown, rfl⟩ := ofMarkers_eq_ok accepted
  have ordered : PlainMarkers (inDocumentOrder markers) := plain.ordered
  refine (foldlM_induction (motive := fun growth => Keyed growth ∧ Pointed growth.outline)
    ?_ ⟨keyed_start, pointed_start⟩ grown).2
  intro before marker after member holds grown
  exact ⟨keyed_grow holds.1 (ordered marker member) grown,
    pointed_grow holds.1 holds.2 (ordered marker member) grown⟩

end Stencil.Outline
