import Stencil.Proofs.Layout.Hosts
import Stencil.Proofs.Layout.Roles
import Stencil.Proofs.Outline.Carried

namespace Stencil

open Layout (Role Piece Plan OpenRow Sweep)
open Layout.Sweep (Action)

/-!
# The sweep under other numbers

Where an outline lies in another, the sweep over the other does with its markers what it
does with them alone: it stands so many bytes further on, reads the same repetitions under
their other numbers, and puts the same pieces behind what was assigned before.
-/

/-! ## Plans in pieces -/

namespace Layout.Plan

/-- Nothing assigned. -/
def empty : Plan := ⟨[], [], []⟩

/-- A plan and what is assigned behind it. -/
def followedBy (front back : Plan) : Plan where
  pieces := front.pieces ++ back.pieces
  hosts := back.hosts ++ front.hosts
  dropped := back.dropped ++ front.dropped

/-- A plan of one piece. -/
def single (role : Role) (start stop : Nat) (hosts : List (SlotId × Option ScopeId)) : Plan :=
  ⟨[⟨role, start, stop⟩], hosts, []⟩

theorem followedBy_assoc (first second third : Plan) :
    (first.followedBy second).followedBy third = first.followedBy (second.followedBy third) := by
  simp [followedBy]

theorem followedBy_empty (plan : Plan) : plan.followedBy empty = plan := by
  simp [followedBy, empty]

theorem empty_followedBy (plan : Plan) : empty.followedBy plan = plan := by
  simp [followedBy, empty]

end Layout.Plan

/-! ## Other numbers -/

/-- Other numbers for scopes and slots, so many bytes further on. -/
structure Layout.Renumbering where
  scope : ScopeId → ScopeId
  slot : SlotId → SlotId
  offset : Nat

namespace Layout.Renumbering

variable (move : Renumbering)

def role : Role → Role
  | .opening scope => .opening (move.scope scope)
  | .separator scope => .separator (move.scope scope)
  | .leading slot => .leading (move.slot slot)
  | .before => .before
  | .after => .after

def piece (piece : Piece) : Piece :=
  ⟨move.role piece.role, piece.start + move.offset, piece.stop + move.offset⟩

def seat (seat : SlotId × Option ScopeId) : SlotId × Option ScopeId :=
  (move.slot seat.1, seat.2.map move.scope)

def plan (plan : Plan) : Plan where
  pieces := plan.pieces.map move.piece
  hosts := plan.hosts.map move.seat
  dropped := plan.dropped.map move.slot

def row (row : OpenRow) : OpenRow where
  scope := move.scope row.scope
  start := row.start + move.offset
  skipEnd := row.skipEnd + move.offset
  tail := row.tail + move.offset

def action : Action → Action
  | .close scope => .close (move.scope scope)
  | .openRow scope => .openRow (move.scope scope)
  | .insert slot => .insert (move.slot slot)

def occurrence (occurrence : Occurrence) : Occurrence where
  offset := occurrence.offset + move.offset
  path := occurrence.path
  opens := occurrence.opens.map move.scope
  closes := occurrence.closes.map move.scope
  slot := occurrence.slot.map move.slot
  terminates := occurrence.terminates

theorem plan_followedBy (front back : Plan) :
    move.plan (front.followedBy back) = (move.plan front).followedBy (move.plan back) := by
  simp [plan, Plan.followedBy]

theorem actionsOf_occurrence (occurrence : Occurrence) :
    Sweep.actionsOf (move.occurrence occurrence) =
      (Sweep.actionsOf occurrence).map move.action := by
  unfold Sweep.actionsOf Renumbering.occurrence
  cases occurrence.slot <;> simp [Function.comp_def, action]

variable {move}

/-- Roles of different numbers stay different. -/
theorem role_injective (scopes : Function.Injective move.scope)
    (slots : Function.Injective move.slot) : Function.Injective move.role := by
  intro left right same
  cases left <;> cases right <;> simp_all [role, scopes.eq_iff, slots.eq_iff]

/-- What plays a role plays it under the other number. -/
theorem piece?_plan (injective : Function.Injective move.role) (plan : Plan) (role : Role) :
    (move.plan plan).piece? (move.role role) = (plan.piece? role).map move.piece := by
  unfold Plan.piece? Renumbering.plan
  rw [List.find?_map]
  congr 2
  funext piece
  show (move.role piece.role == move.role role) = (piece.role == role)
  by_cases same : piece.role = role
  · rw [same, beq_self_eq_true, beq_self_eq_true]
  · rw [beq_eq_false_iff_ne.mpr same,
      beq_eq_false_iff_ne.mpr fun equal => same (injective equal)]

theorem lookup_map_seat (injective : Function.Injective move.slot)
    (hosts : List (SlotId × Option ScopeId)) (id : SlotId) :
    (hosts.map move.seat).lookup (move.slot id) =
      (hosts.lookup id).map (Option.map move.scope) := by
  induction hosts with
  | nil => rfl
  | cons seat rest ih =>
    rcases seat with ⟨other, host⟩
    rw [List.map_cons, Renumbering.seat, List.lookup_cons, List.lookup_cons, ih]
    by_cases same : id = other
    · rw [same, beq_self_eq_true, beq_self_eq_true]
      rfl
    · rw [beq_eq_false_iff_ne.mpr same,
        beq_eq_false_iff_ne.mpr fun equal => same (injective equal)]

variable (move)

/-- An outline in another, with other numbers there. -/
structure Embeds (part whole : Outline) : Prop extends
    Outline.Carries move.scope part whole where
  rows : ∀ (id : Nat) scope image, part.scopes[id]? = some scope →
    whole.scopes[move.scope id]? = some image → ∀ place : Nat,
      Sweep.rowOf? image (move.scope id) (place + move.offset) =
        (Sweep.rowOf? scope id place).map move.row
  slots : ∀ (id : Nat) slot, part.slots[id]? = some slot →
    ∃ image, whole.slots[move.slot id]? = some image ∧ image.scope = move.scope slot.scope

variable {move} {part whole : Outline}

theorem Embeds.scopeIs_hasEnd (embeds : move.Embeds part whole) {id : Nat}
    (bound : id < part.scopes.size) :
    whole.scopeIs Scope.hasEnd (move.scope id) = part.scopeIs Scope.hasEnd id := by
  have found := Array.getElem?_eq_getElem bound
  rcases embeds.scopes id _ found with ⟨image, foundImage, -⟩
  have same := congrArg Option.isSome (embeds.rows id _ image found foundImage 0)
  rw [Option.isSome_map, Sweep.isSome_rowOf?, Sweep.isSome_rowOf?] at same
  rw [Outline.scopeIs_eq found, Outline.scopeIs_eq foundImage, same]

theorem Embeds.repetitionsAround (embeds : move.Embeds part whole)
    (rooted : Outline.Rooted part) (wholeRooted : Outline.Rooted whole) {id : Nat}
    (bound : id < part.scopes.size) :
    whole.repetitionsAround (move.scope id) = (part.repetitionsAround id).map move.scope :=
  embeds.toCarries.filter_ancestry rooted wholeRooted embeds.scopeIs_hasEnd bound

end Layout.Renumbering

namespace Layout.Sweep

open Outline (Rooted Coherent)

variable {move : Renumbering} {behind ahead : Plan} {part whole : Outline}
  {occurrence : Occurrence} {sweep after image : Sweep}

/-- The sweep over a part alone and that over the whole, with the plans that both have
made when they begin to go along with each other. -/
structure Moved (move : Renumbering) (behind ahead : Plan) (sweep image : Sweep) : Prop where
  position : image.position = sweep.position + move.offset
  echo : image.echo = sweep.echo.map (· + move.offset)
  rows : image.rows = sweep.rows.map move.row
  plans : ∃ more, sweep.plan = behind.followedBy more ∧
    image.plan = ahead.followedBy (move.plan more)

/-! ## One operation -/

theorem extendTail_map (place : Nat) (rows : List OpenRow) :
    extendTail (place + move.offset) (rows.map move.row) =
      (extendTail place rows).map move.row := by
  cases rows with
  | nil => rfl
  | cons row rest =>
    have tail : max (row.tail + move.offset) (place + move.offset) =
        max row.tail place + move.offset := Nat.add_max_add_right _ _ _
    simp [extendTail, Renumbering.row, tail]

/-- Hosts are found by comparing numbers only. -/
theorem hostOf?_map {numbers : Nat → Nat} (injective : Function.Injective numbers)
    (chain bounded reading : List ScopeId) :
    hostOf? (chain.map numbers) (bounded.map numbers) (reading.map numbers) =
      (hostOf? chain bounded reading).map (Option.map numbers) := by
  have same : ∀ {left right : List ScopeId}, left.map numbers = right.map numbers ↔ left = right :=
    (List.map_injective_iff.mpr injective).eq_iff
  unfold hostOf?
  simp only [List.length_map, ← List.map_take, same, List.getLast?_map]
  split
  · rfl
  · split <;> rfl

theorem Moved.reading (moved : Moved move behind ahead sweep image) :
    image.reading = sweep.reading.map move.scope := by
  unfold Sweep.reading
  rw [moved.rows, List.map_map, List.map_reverse, List.map_map]
  rfl

/-- Both assign the same. -/
theorem Moved.further (moved : Moved move behind ahead sweep image) (more : Plan) :
    ∃ all, sweep.plan.followedBy more = behind.followedBy all ∧
      image.plan.followedBy (move.plan more) = ahead.followedBy (move.plan all) := by
  rcases moved.plans with ⟨before, plan, imagePlan⟩
  refine ⟨before.followedBy more, ?_, ?_⟩
  · rw [plan, Plan.followedBy_assoc]
  · rw [imagePlan, Plan.followedBy_assoc, move.plan_followedBy]

theorem Moved.closed (moved : Moved move behind ahead sweep image) (row : OpenRow)
    (rest : List OpenRow) (place : Nat) :
    Moved move behind ahead (sweep.closed row rest place)
      (image.closed (move.row row) (rest.map move.row) (place + move.offset)) := by
  have resume : max (row.skipEnd + move.offset) (place + move.offset) =
      max row.skipEnd place + move.offset := Nat.add_max_add_right _ _ _
  have span : place + move.offset + (row.tail + move.offset - (row.start + move.offset)) =
      place + (row.tail - row.start) + move.offset := by omega
  have begin : min image.position (place + move.offset) =
      min sweep.position place + move.offset := by
    rw [moved.position]
    exact Nat.add_min_add_right _ _ _
  refine ⟨resume, ?_, rfl, ?_⟩
  · show (if max (row.skipEnd + move.offset) (place + move.offset) <
        place + move.offset + (row.tail + move.offset - (row.start + move.offset)) then
        some (place + move.offset + (row.tail + move.offset - (row.start + move.offset)))
        else none) =
      (if max row.skipEnd place < place + (row.tail - row.start) then
        some (place + (row.tail - row.start)) else none).map (· + move.offset)
    rw [resume, span]
    split <;> split <;> first | rfl | omega
  · have more := moved.further
      (.single (.separator row.scope) (min sweep.position place) place [])
    have assigned : move.plan
        (.single (.separator row.scope) (min sweep.position place) place []) =
          .single (.separator (move.scope row.scope)) (min image.position (place + move.offset))
            (place + move.offset) [] := by
      rw [begin]
      rfl
    rw [assigned] at more
    exact more

theorem Moved.opened (moved : Moved move behind ahead sweep image) {scope imageScope : Scope}
    {id : ScopeId} {place : Nat}
    (same : rowOf? imageScope (move.scope id) (place + move.offset) =
      (rowOf? scope id place).map move.row) :
    Moved move behind ahead (sweep.opened scope id place)
      (image.opened imageScope (move.scope id) (place + move.offset)) := by
  refine ⟨rfl, rfl, ?_, ?_⟩
  · show (rowOf? imageScope (move.scope id) (place + move.offset)).toList ++ image.rows =
      ((rowOf? scope id place).toList ++ sweep.rows).map move.row
    rw [same, moved.rows, List.map_append]
    cases rowOf? scope id place <;> rfl
  · have more := moved.further (.single (.opening id) sweep.position place [])
    have assigned : move.plan (.single (.opening id) sweep.position place []) =
        .single (.opening (move.scope id)) image.position (place + move.offset) [] := by
      rw [moved.position]
      rfl
    rw [assigned] at more
    exact more

theorem Moved.inserted (moved : Moved move behind ahead sweep image) (id : SlotId)
    (host : Option ScopeId) (place : Nat) :
    Moved move behind ahead (sweep.inserted id host place)
      (image.inserted (move.slot id) (host.map move.scope) (place + move.offset)) := by
  refine ⟨rfl, rfl, ?_, ?_⟩
  · show extendTail (place + move.offset) image.rows = (extendTail place sweep.rows).map move.row
    rw [moved.rows, extendTail_map]
  · have more := moved.further (.single (.leading id) sweep.position place [(id, host)])
    have assigned : move.plan (.single (.leading id) sweep.position place [(id, host)]) =
        .single (.leading (move.slot id)) image.position (place + move.offset)
          [(move.slot id, host.map move.scope)] := by
      rw [moved.position]
      rfl
    rw [assigned] at more
    exact more

theorem Moved.skipped (moved : Moved move behind ahead sweep image) (slot : Option SlotId) :
    Moved move behind ahead (sweep.skipped slot) (image.skipped (slot.map move.slot)) := by
  refine ⟨moved.position, moved.echo, moved.rows, ?_⟩
  have more := moved.further ⟨[], [], slot.toList⟩
  have assigned : move.plan ⟨[], [], slot.toList⟩ =
      ⟨[], [], (slot.map move.slot).toList⟩ := by cases slot <;> rfl
  rw [assigned] at more
  simpa [Plan.followedBy, Sweep.skipped] using more

theorem Moved.passed (moved : Moved move behind ahead sweep image) (place : Nat) :
    Moved move behind ahead (sweep.passed place) (image.passed (place + move.offset)) := by
  have before : place + move.offset < image.position ↔ place < sweep.position := by
    rw [moved.position]
    exact Nat.add_lt_add_iff_right
  unfold Sweep.passed
  simp only [before]
  split
  · exact moved
  · exact ⟨rfl, moved.echo, moved.rows, moved.plans⟩

theorem Moved.skips_iff (moved : Moved move behind ahead sweep image) (place : Nat) :
    image.Skips (place + move.offset) ↔ sweep.Skips place := by
  unfold Skips
  rw [moved.position, moved.echo, Nat.add_lt_add_iff_right]
  cases sweep.echo <;> simp

/-! ## Markers -/

theorem Moved.act (moved : Moved move behind ahead sweep image)
    (embeds : move.Embeds part whole) (coherent : Coherent part) (rooted : Rooted whole)
    {action : Action} (run : act part occurrence sweep action = .ok after) :
    ∃ imageAfter, Sweep.act whole (move.occurrence occurrence) image (move.action action) =
      .ok imageAfter ∧ Moved move behind ahead after imageAfter := by
  cases action with
  | close scope =>
    rcases close_eq_ok.mp run with ⟨row, rest, rows, rfl, rfl⟩
    refine ⟨_, close_eq_ok.mpr ⟨move.row row, rest.map move.row, ?_, rfl, rfl⟩,
      moved.closed row rest occurrence.offset⟩
    rw [moved.rows, rows]
    rfl
  | openRow id =>
    rcases openRow_eq_ok.mp run with ⟨scope, found, around, forward, rfl⟩
    rcases embeds.scopes id scope found with ⟨imageScope, foundImage, same⟩
    refine ⟨_, openRow_eq_ok.mpr ⟨imageScope, foundImage, ?_, ?_, rfl⟩,
      moved.opened (embeds.rows id scope imageScope found foundImage occurrence.offset)⟩
    · rw [moved.reading, ← around, same.parent]
      cases link : scope.parent with
      | none => rfl
      | some parent =>
        have bound := (coherent.rooted.parent_lt found link).trans
          (Outline.lt_size_of_getElem? found)
        exact embeds.repetitionsAround coherent.rooted rooted bound
    · rw [moved.position]
      exact Nat.add_le_add_right forward _
  | insert id =>
    rcases insert_eq_ok.mp run with ⟨slot, host, found, hosted, forward, rfl⟩
    have bound := coherent.slotScope id slot found
    rcases embeds.slots id slot found with ⟨imageSlot, foundImage, inside⟩
    refine ⟨_, insert_eq_ok.mpr ⟨imageSlot, host.map move.scope, foundImage, ?_, ?_, rfl⟩,
      moved.inserted id host occurrence.offset⟩
    · rw [inside, embeds.dimensionsAround coherent.rooted rooted bound,
        embeds.repetitionsAround coherent.rooted rooted bound, moved.reading,
        hostOf?_map embeds.injective, hosted]
      rfl
    · rw [moved.position]
      exact Nat.add_le_add_right forward _

theorem Moved.acts (moved : Moved move behind ahead sweep image)
    (embeds : move.Embeds part whole) (coherent : Coherent part) (rooted : Rooted whole)
    {actions : List Action} (run : actions.foldlM (Sweep.act part occurrence) sweep = .ok after) :
    ∃ imageAfter, (actions.map move.action).foldlM
        (Sweep.act whole (move.occurrence occurrence)) image = .ok imageAfter ∧
      Moved move behind ahead after imageAfter :=
  foldlM_map_beside (fun _ _ _ _ _ moved run => moved.act embeds coherent rooted run) moved run

theorem Moved.skip (moved : Moved move behind ahead sweep image)
    (embeds : move.Embeds part whole)
    (within : ∀ id ∈ occurrence.opens, id < part.scopes.size)
    (run : skip part occurrence sweep = .ok after) :
    ∃ imageAfter, Sweep.skip whole (move.occurrence occurrence) image = .ok imageAfter ∧
      Moved move behind ahead after imageAfter := by
  rcases skip_eq_ok.mp run with ⟨closes, opens, rfl⟩
  refine ⟨_, skip_eq_ok.mpr ⟨?_, ?_, rfl⟩, moved.skipped occurrence.slot⟩
  · show occurrence.closes.map move.scope = []
    rw [closes]
    rfl
  · rw [List.find?_eq_none] at opens ⊢
    intro other listed
    rcases List.mem_map.mp listed with ⟨id, member, rfl⟩
    rw [embeds.scopeIs_hasEnd (within id member)]
    exact opens id member

/-- Each marker is passed in the whole as it is alone. -/
theorem Moved.pass (moved : Moved move behind ahead sweep image)
    (embeds : move.Embeds part whole) (coherent : Coherent part) (rooted : Rooted whole)
    (within : ∀ id ∈ occurrence.opens, id < part.scopes.size)
    (run : pass part sweep occurrence = .ok after) :
    ∃ imageAfter, Sweep.pass whole image (move.occurrence occurrence) = .ok imageAfter ∧
      Moved move behind ahead after imageAfter := by
  have same := moved.skips_iff occurrence.offset
  by_cases skips : sweep.Skips occurrence.offset
  · rw [pass_of_skips skips] at run
    rw [pass_of_skips (same.mpr skips)]
    exact (moved.passed occurrence.offset).skip embeds within run
  · rw [pass_of_not_skips skips, read_eq_actions] at run
    rw [pass_of_not_skips (fun skipped => skips (same.mp skipped)), read_eq_actions,
      move.actionsOf_occurrence]
    exact moved.acts embeds coherent rooted run

theorem Moved.run (moved : Moved move behind ahead sweep image)
    (embeds : move.Embeds part whole) (coherent : Coherent part) (rooted : Rooted whole)
    {occurrences : List Occurrence}
    (within : ∀ occurrence ∈ occurrences, ∀ id ∈ occurrence.opens, id < part.scopes.size)
    (run : occurrences.foldlM (Sweep.pass part) sweep = .ok after) :
    ∃ imageAfter, (occurrences.map move.occurrence).foldlM (Sweep.pass whole) image =
      .ok imageAfter ∧ Moved move behind ahead after imageAfter :=
  foldlM_map_beside (fun _ _ occurrence _ listed moved run =>
    moved.pass embeds coherent rooted (within occurrence listed) run) moved run

/-! ## The first marker -/

/-- The plans of a part alone and behind other text, when the first piece has been
assigned.  Behind other text that piece begins where the text before it was left. -/
structure Headed (move : Renumbering) (front : Sweep) (role : Role) (behind ahead : Plan) :
    Prop where
  plans : ∃ stop hosts, behind = .single role 0 stop hosts ∧
    ahead = front.plan.followedBy (.single (move.role role) front.position (stop + move.offset)
      (hosts.map move.seat))

/-- A marker that ends nothing and inserts a value begins with some other action. -/
theorem exists_first_action (ends : occurrence.closes = [])
    (inserts : occurrence.slot.isSome = true) :
    ∃ action more, actionsOf occurrence = action :: more ∧ ∀ scope, action ≠ .close scope := by
  unfold actionsOf
  rw [ends]
  cases occurrence.opens with
  | cons id more => exact ⟨.openRow id, _, rfl, fun _ => Action.noConfusion⟩
  | nil =>
    rcases Option.isSome_iff_exists.mp inserts with ⟨id, slot⟩
    rw [slot]
    exact ⟨.insert id, _, rfl, fun _ => Action.noConfusion⟩

/-- The first action of a part leads to sweeps that go along with each other. -/
theorem moved_of_first {front : Sweep} (embeds : move.Embeds part whole)
    (coherent : Coherent part) (rooted : Rooted whole) {action : Action}
    (outside : front.rows = []) (forward : front.position ≤ occurrence.offset + move.offset)
    (begins : ∀ scope, action ≠ .close scope)
    (run : Sweep.act part occurrence start action = .ok after) :
    ∃ behind ahead imageAfter, Headed move front action.role behind ahead ∧
      Sweep.act whole (move.occurrence occurrence) front (move.action action) = .ok imageAfter ∧
      Moved move behind ahead after imageAfter := by
  have idle : front.reading = [] := by simp [reading, outside]
  cases action with
  | close scope => exact absurd rfl (begins scope)
  | openRow id =>
    rcases openRow_eq_ok.mp run with ⟨scope, found, around, -, rfl⟩
    rcases embeds.scopes id scope found with ⟨imageScope, foundImage, same⟩
    refine ⟨_, _, _, ⟨⟨occurrence.offset, [], rfl, rfl⟩⟩,
      openRow_eq_ok.mpr ⟨imageScope, foundImage, ?_, forward, rfl⟩, ⟨rfl, rfl, ?_, .empty, ?_, ?_⟩⟩
    · rw [idle, same.parent]
      cases link : scope.parent with
      | none => rfl
      | some parent =>
        rw [link, Option.map_some, Option.getD_some] at around
        have bound := (coherent.rooted.parent_lt found link).trans
          (Outline.lt_size_of_getElem? found)
        rw [Option.map_some, Option.map_some, Option.getD_some,
          embeds.repetitionsAround coherent.rooted rooted bound, around]
        rfl
    · show (rowOf? imageScope (move.scope id) (occurrence.offset + move.offset)).toList ++
        front.rows = ((rowOf? scope id occurrence.offset).toList ++ []).map move.row
      rw [embeds.rows id scope imageScope found foundImage, outside, List.append_nil,
        List.append_nil]
      cases rowOf? scope id occurrence.offset <;> rfl
    · rw [Plan.followedBy_empty]
      rfl
    · exact (Plan.followedBy_empty _).symm
  | insert id =>
    rcases insert_eq_ok.mp run with ⟨slot, host, found, hosted, -, rfl⟩
    have bound := coherent.slotScope id slot found
    rcases embeds.slots id slot found with ⟨imageSlot, foundImage, inside⟩
    refine ⟨_, _, _, ⟨⟨occurrence.offset, [(id, host)], rfl, rfl⟩⟩,
      insert_eq_ok.mpr ⟨imageSlot, host.map move.scope, foundImage, ?_, forward, rfl⟩,
      ⟨rfl, rfl, ?_, .empty, ?_, ?_⟩⟩
    · have none : start.reading.map move.scope = front.reading := idle.symm
      rw [inside, embeds.dimensionsAround coherent.rooted rooted bound,
        embeds.repetitionsAround coherent.rooted rooted bound, ← none,
        hostOf?_map embeds.injective, hosted]
      rfl
    · show extendTail (occurrence.offset + move.offset) front.rows = _
      rw [outside]
      rfl
    · rw [Plan.followedBy_empty]
      rfl
    · exact (Plan.followedBy_empty _).symm

/-- So does the first marker, if it is not skipped behind the other text. -/
theorem moved_of_pass {front : Sweep} (embeds : move.Embeds part whole)
    (coherent : Coherent part) (rooted : Rooted whole) (outside : front.rows = [])
    (reads : ¬ front.Skips (occurrence.offset + move.offset)) (ends : occurrence.closes = [])
    (inserts : occurrence.slot.isSome = true) (run : pass part start occurrence = .ok after) :
    ∃ role behind ahead imageAfter, Headed move front role behind ahead ∧
      (rolesOf occurrence).head? = some role ∧
      Sweep.pass whole front (move.occurrence occurrence) = .ok imageAfter ∧
      Moved move behind ahead after imageAfter := by
  rw [pass_of_not_skips (not_skips_start _), read_eq_actions] at run
  have forward : front.position ≤ occurrence.offset + move.offset :=
    Nat.le_of_not_lt fun passed => reads (.inl passed)
  rcases exists_first_action ends inserts with ⟨action, more, split, begins⟩
  rw [split] at run
  rcases foldlM_cons_eq_ok.mp run with ⟨between, acted, rest⟩
  rcases moved_of_first embeds coherent rooted outside forward begins acted with
    ⟨behind, ahead, imageBetween, headed, actedImage, moved⟩
  rcases moved.acts embeds coherent rooted rest with ⟨imageAfter, restImage, ended⟩
  refine ⟨action.role, behind, ahead, imageAfter, headed, ?_, ?_, ended⟩
  · rw [rolesOf_eq_map, split]
    rfl
  · have imageReads : ¬ front.Skips (move.occurrence occurrence).offset := reads
    rw [pass_of_not_skips imageReads, read_eq_actions, move.actionsOf_occurrence, split]
    exact foldlM_cons_eq_ok.mpr ⟨imageBetween, actedImage, restImage⟩

end Layout.Sweep

end Stencil
