import Stencil.Proofs.Layout.Conservation
import Stencil.Proofs.Layout.Moving
import Stencil.Proofs.Outline.Beginning
import Stencil.Proofs.Outline.Parts

namespace Stencil

/-! ## The numbers of a part -/

namespace Relocation

/-- The numbers of a part in the whole. -/
def numbers (move : Relocation) : Layout.Renumbering := ⟨move.scope, (· + move.slot), move.offset⟩

theorem Embeds.numbers {move : Relocation} {part whole : Outline}
    (embeds : move.Embeds part whole) : move.numbers.Embeds part whole where
  toCarries := embeds.carries
  rows id scope image found foundImage place := by
    rcases embeds.scopes id scope found with ⟨same, foundSame, alike⟩
    cases foundImage.symm.trans foundSame
    unfold Layout.Sweep.rowOf?
    rw [alike.dimension]
    cases repeated : scope.dimension? with
    | none => rfl
    | some dimension =>
      have opened := alike.opened (by rw [Scope.isArray, repeated]; rfl)
      simp only [Option.map_some, Relocation.dimension, opened]
      cases dimension.closing with
      | none => rfl
      | some closing => cases dimension.skipEnd <;> rfl
  slots id slot found := ⟨_, embeds.slots id slot found, rfl⟩

theorem role_stay (role : Layout.Role) : stay.numbers.role role = role := by
  cases role <;> rfl

theorem plan_stay (plan : Layout.Plan) : stay.numbers.plan plan = plan := by
  have pieces : stay.numbers.piece = id := funext fun piece => by
    simp only [Layout.Renumbering.piece, role_stay]
    rfl
  have seats : stay.numbers.seat = id := funext fun seat => by
    rcases seat with ⟨slot, host⟩
    cases host <;> rfl
  have slots : stay.numbers.slot = id := rfl
  simp only [Layout.Renumbering.plan, pieces, seats, slots, List.map_id]

theorem slot_injective (move : Relocation) : Function.Injective move.numbers.slot :=
  fun _ _ same => Nat.add_right_cancel same

theorem role_injective {move : Relocation} (injective : Function.Injective move.scope) :
    Function.Injective move.numbers.role :=
  Layout.Renumbering.role_injective injective move.slot_injective

end Relocation

namespace Layout

open Outline (Rooted Registered Coherent Joins)

/-!
# The plan of two documents, one behind the other

The sweep over both documents assigns to the markers of the first what it assigns to
them alone, and to those of the second what it assigns to them alone, further on.  Only
the text behind the last marker of the first has another owner: it comes before the
first piece of the second.
-/

variable {move : Relocation} {outline one two both : Outline} {occurrence : Occurrence}
  {sweep after : Sweep} {plan front back : Plan} {occurrences : List Occurrence}

/-! ## What markers add to a plan -/

/-- A plan of what some markers do. -/
structure Drawn (occurrences : List Occurrence) (plan : Plan) : Prop where
  roles : ∀ piece ∈ plan.pieces, ∃ occurrence ∈ occurrences, piece.role ∈ rolesOf occurrence
  hosts : ∀ seat ∈ plan.hosts, ∃ occurrence ∈ occurrences, occurrence.slot = some seat.1
  dropped : ∀ id ∈ plan.dropped, ∃ occurrence ∈ occurrences, occurrence.slot = some id

theorem drawn_empty (occurrences : List Occurrence) : Drawn occurrences .empty where
  roles _ impossible := nomatch impossible
  hosts _ impossible := nomatch impossible
  dropped _ impossible := nomatch impossible

theorem Drawn.followedBy (early : Drawn occurrences front) (late : Drawn occurrences back) :
    Drawn occurrences (front.followedBy back) where
  roles piece listed := (List.mem_append.mp listed).elim (early.roles piece) (late.roles piece)
  hosts seat listed := (List.mem_append.mp listed).elim (late.hosts seat) (early.hosts seat)
  dropped id listed := (List.mem_append.mp listed).elim (late.dropped id) (early.dropped id)

theorem Drawn.mono {more : List Occurrence} (drawn : Drawn occurrences plan)
    (among : occurrences ⊆ more) : Drawn more plan where
  roles piece listed := by
    rcases drawn.roles piece listed with ⟨occurrence, member, role⟩
    exact ⟨occurrence, among member, role⟩
  hosts seat listed := by
    rcases drawn.hosts seat listed with ⟨occurrence, member, slot⟩
    exact ⟨occurrence, among member, slot⟩
  dropped id listed := by
    rcases drawn.dropped id listed with ⟨occurrence, member, slot⟩
    exact ⟨occurrence, among member, slot⟩

/-- A piece of a marker, with what it hosts. -/
theorem drawn_single {role : Role} {start stop : Nat} {hosts : List (SlotId × Option ScopeId)}
    (owned : role ∈ rolesOf occurrence) (slots : ∀ seat ∈ hosts, occurrence.slot = some seat.1) :
    Drawn [occurrence] (.single role start stop hosts) where
  roles piece listed := by
    rw [List.mem_singleton.mp listed]
    exact ⟨occurrence, .head _, owned⟩
  hosts seat listed := ⟨occurrence, .head _, slots seat listed⟩
  dropped _ impossible := nomatch impossible

/-- A value of no marker has no seat among those of the markers. -/
theorem Drawn.lookup_eq_none (drawn : Drawn occurrences plan) {id : SlotId}
    (elsewhere : ∀ other ∈ occurrences, other.slot ≠ some id) : plan.hosts.lookup id = none := by
  rw [List.lookup_eq_none_iff]
  intro seat listed
  rcases drawn.hosts seat listed with ⟨other, member, its⟩
  have differs : id ≠ seat.1 := by
    rintro rfl
    exact elsewhere other member its
  simpa using differs

theorem Drawn.not_mem_dropped (drawn : Drawn occurrences plan) {id : SlotId}
    (elsewhere : ∀ other ∈ occurrences, other.slot ≠ some id) : id ∉ plan.dropped := by
  intro listed
  rcases drawn.dropped id listed with ⟨other, member, its⟩
  exact elsewhere other member its

/-- A value belongs to one marker only. -/
theorem slot_ne_of_split (coherent : Coherent outline) {earlier later : List Occurrence}
    {id : SlotId} (split : outline.occurrences.toList = earlier ++ occurrence :: later)
    (inserts : occurrence.slot = some id) :
    (∀ other ∈ earlier, other.slot ≠ some id) ∧ ∀ other ∈ later, other.slot ≠ some id := by
  have once : (outline.occurrences.toList.filterMap Occurrence.slot).Nodup := by
    rw [coherent.listed]
    exact List.nodup_range
  rw [split, List.filterMap_append, List.filterMap_cons_some inserts, List.nodup_append] at once
  constructor
  · intro other listed same
    have member : id ∈ earlier.filterMap Occurrence.slot :=
      List.mem_filterMap.mpr ⟨other, listed, same⟩
    exact once.2.2 id member id (.head _) rfl
  · intro other listed same
    have member : id ∈ later.filterMap Occurrence.slot :=
      List.mem_filterMap.mpr ⟨other, listed, same⟩
    exact (List.nodup_cons.mp once.2.1).1 member

namespace Sweep

/-- What an action of a marker adds. -/
theorem drawn_act {action : Action} (listed : action ∈ actionsOf occurrence)
    (run : act outline occurrence sweep action = .ok after) :
    ∃ more, after.plan = sweep.plan.followedBy more ∧ Drawn [occurrence] more ∧
      more.dropped = [] := by
  have owned := List.mem_map_of_mem (f := Action.role) listed
  rw [← rolesOf_eq_map] at owned
  cases action with
  | close scope =>
    rcases close_eq_ok.mp run with ⟨row, rest, -, rfl, rfl⟩
    exact ⟨.single _ _ _ [], rfl, drawn_single owned (fun _ impossible => nomatch impossible), rfl⟩
  | openRow id =>
    rcases openRow_eq_ok.mp run with ⟨scope, -, -, -, rfl⟩
    exact ⟨.single _ _ _ [], rfl, drawn_single owned (fun _ impossible => nomatch impossible), rfl⟩
  | insert id =>
    rcases insert_eq_ok.mp run with ⟨slot, host, -, -, -, rfl⟩
    refine ⟨.single _ _ _ [(id, host)], rfl, drawn_single owned (fun seat only => ?_), rfl⟩
    rw [List.mem_singleton.mp only]
    simpa [actionsOf] using listed

/-- What a marker adds: pieces if it is read, and its slot to those left out if it is
skipped. -/
theorem drawn_pass (run : pass outline sweep occurrence = .ok after) :
    ∃ more, after.plan = sweep.plan.followedBy more ∧ Drawn [occurrence] more ∧
      more.dropped = if sweep.Skips occurrence.offset then occurrence.slot.toList else [] := by
  by_cases skips : sweep.Skips occurrence.offset
  · rw [pass_of_skips skips] at run
    rcases skip_eq_ok.mp run with ⟨-, -, rfl⟩
    refine ⟨⟨[], [], occurrence.slot.toList⟩, ?_, ⟨?_, ?_, ?_⟩, by rw [if_pos skips]⟩
    · unfold Sweep.skipped passed
      split <;> simp [Plan.followedBy]
    · intro _ impossible
      cases impossible
    · intro _ impossible
      cases impossible
    · exact fun id listed => ⟨occurrence, .head _, Option.mem_toList.mp listed⟩
  · rw [pass_of_not_skips skips, read_eq_actions] at run
    rw [if_neg skips]
    refine foldlM_induction (motive := fun state => ∃ more, state.plan =
      sweep.plan.followedBy more ∧ Drawn [occurrence] more ∧ more.dropped = [])
      (fun before action after listed holds run => ?_)
      ⟨.empty, (Plan.followedBy_empty _).symm, drawn_empty _, rfl⟩ run
    rcases holds with ⟨early, added, drawn, none⟩
    rcases drawn_act listed run with ⟨late, further, drawnLate, noneLate⟩
    refine ⟨early.followedBy late, ?_, drawn.followedBy drawnLate, ?_⟩
    · rw [further, added, Plan.followedBy_assoc]
    · show late.dropped ++ early.dropped = []
      rw [none, noneLate]
      rfl

theorem drawn_of_run (run : occurrences.foldlM (pass outline) sweep = .ok after) :
    ∃ more, after.plan = sweep.plan.followedBy more ∧ Drawn occurrences more := by
  refine foldlM_induction (motive := fun state => ∃ more, state.plan =
    sweep.plan.followedBy more ∧ Drawn occurrences more)
    (fun before occurrence after listed holds run => ?_)
    ⟨.empty, (Plan.followedBy_empty _).symm, drawn_empty _⟩ run
  rcases holds with ⟨early, added, drawn⟩
  rcases drawn_pass run with ⟨late, further, drawnLate, -⟩
  refine ⟨early.followedBy late, ?_, drawn.followedBy (drawnLate.mono ?_)⟩
  · rw [further, added, Plan.followedBy_assoc]
  · intro other only
    rw [List.mem_singleton.mp only]
    exact listed

theorem drawn_of_start (run : occurrences.foldlM (pass outline) start = .ok sweep) :
    Drawn occurrences sweep.plan := by
  rcases drawn_of_run run with ⟨more, added, drawn⟩
  rw [added]
  exact (drawn_empty _).followedBy drawn

end Sweep

/-! ## Numbers of an outline -/

/-- The roles that markers of an outline play. -/
def Role.Of (outline : Outline) : Role → Prop
  | .opening id | .separator id => outline.scopeIs Scope.isArray id = true
  | .leading id => id < outline.slots.size
  | .before | .after => False

theorem roleOf_of_mem {markers : List Marker} (registered : Registered markers outline)
    (listed : occurrence ∈ outline.occurrences.toList) {role : Role}
    (member : role ∈ rolesOf occurrence) : role.Of outline := by
  rcases List.getElem?_of_mem listed with ⟨index, found⟩
  rw [Array.getElem?_toList] at found
  rcases List.mem_append.mp member with repeated | inserts
  · rcases List.mem_append.mp repeated with ends | starts
    · rcases List.mem_map.mp ends with ⟨id, closes, rfl⟩
      have closing := registered.closingOf_of_closes found (List.mem_reverse.mp closes)
      rcases Option.bind_eq_some_iff.mp closing with ⟨dimension, told, -⟩
      rcases Option.bind_eq_some_iff.mp told with ⟨scope, foundScope, repeated⟩
      exact Outline.scopeIs_eq_true.mpr ⟨scope, foundScope, by rw [Scope.isArray, repeated]; rfl⟩
    · rcases List.mem_map.mp starts with ⟨id, opens, rfl⟩
      exact registered.isArray_of_opens found opens
  · rcases List.mem_map.mp inserts with ⟨id, slot, rfl⟩
    exact slot_lt_of_registered registered occurrence listed id (Option.mem_toList.mp slot)

theorem lt_size_of_opens {markers : List Marker} (registered : Registered markers outline) :
    ∀ occurrence ∈ outline.occurrences.toList, ∀ id ∈ occurrence.opens,
      id < outline.scopes.size := by
  intro occurrence listed id opens
  have array : (Role.opening id).Of outline :=
    roleOf_of_mem registered listed (by simp [rolesOf, opens])
  exact Outline.lt_size_of_scopeIs array

/-- Roles of two parts are different in the whole. -/
theorem role_ne_of_joins (joins : Joins move one two both) {role other : Role}
    (own : role.Of one) (theirs : other.Of two) : move.numbers.role other ≠ role := by
  have scopes : ∀ {id otherId : Nat}, one.scopeIs Scope.isArray id = true →
      two.scopeIs Scope.isArray otherId = true → move.scope otherId ≠ id := by
    intro id otherId array otherArray same
    have beyond := joins.beyond otherId otherArray
    rw [same] at beyond
    exact Nat.not_lt_of_le beyond (Outline.lt_size_of_scopeIs array)
  intro same
  cases role with
  | opening id =>
    cases other with
    | opening otherId => exact scopes own theirs (Role.opening.inj same)
    | separator _ | leading _ | before | after => cases same
  | separator id =>
    cases other with
    | separator otherId => exact scopes own theirs (Role.separator.inj same)
    | opening _ | leading _ | before | after => cases same
  | leading id =>
    cases other with
    | leading otherId =>
      have bound : id < one.slots.size := own
      have moved : otherId + move.slot = id := Role.leading.inj same
      rw [← moved, joins.slot] at bound
      exact Nat.not_lt_of_le (Nat.le_add_left _ _) bound
    | opening _ | separator _ | before | after => cases same
  | before | after => exact own

/-! ## Plans of both -/

/-- The plans of two documents and of both, with the sweep between them.  What the first
leaves is its last piece alone; in the whole it begins the first piece of the second. -/
structure Spliced (move : Relocation) (size : Nat) (front : Sweep) (last role wholeRole : Role)
    (first second all : Plan) : Prop where
  first : first = front.plan.followedBy (.single last front.position size [])
  parts : ∃ stop hosts rest, second = (Plan.single role 0 stop hosts).followedBy rest ∧
    all = (front.plan.followedBy (.single wholeRole front.position (stop + size)
      (hosts.map move.numbers.seat))).followedBy (move.numbers.plan rest)

namespace Sweep

theorem Moved.eq_of_stay {image : Sweep} (moved : Moved Relocation.stay.numbers .empty .empty sweep image) :
    image = sweep := by
  have plan : image.plan = sweep.plan := by
    rcases moved.plans with ⟨more, own, other⟩
    rw [other, own, Relocation.plan_stay]
  have echo : image.echo = sweep.echo := by
    rw [moved.echo]
    exact Option.map_id'
  have rows : image.rows = sweep.rows := by
    rw [moved.rows]
    exact List.map_id' _
  have position : image.position = sweep.position := moved.position
  cases image
  cases sweep
  simp only at plan echo rows position
  rw [plan, echo, rows, position]

theorem moved_start : Moved Relocation.stay.numbers .empty .empty start start where
  position := rfl
  echo := rfl
  rows := rfl
  plans := ⟨.empty, rfl, rfl⟩

/-- Before a second part the first is swept as it is alone. -/
theorem run_first (joins : Joins move one two both) (coherent : Coherent one)
    (rooted : Rooted both) {markers : List Marker} (registered : Registered markers one)
    (run : one.occurrences.toList.foldlM (pass one) start = .ok sweep) :
    one.occurrences.toList.foldlM (pass both) start = .ok sweep := by
  rcases moved_start.run joins.first.numbers coherent rooted (lt_size_of_opens registered) run with
    ⟨image, ran, moved⟩
  have same : one.occurrences.toList.map Relocation.stay.numbers.occurrence =
      one.occurrences.toList :=
    List.map_id'' Relocation.occurrence_stay _
  rw [same, moved.eq_of_stay] at ran
  exact ran

/-- A value that is not left out behind the first part was not skipped there. -/
theorem not_skips_of_kept {front : Sweep} {id : SlotId} (slot : occurrence.slot = some id)
    (run : (occurrence :: occurrences).foldlM (pass outline) front = .ok after)
    (kept : id ∉ after.plan.dropped) : ¬ front.Skips occurrence.offset := by
  intro skips
  rcases foldlM_cons_eq_ok.mp run with ⟨between, passed, rest⟩
  rcases drawn_pass passed with ⟨early, added, -, dropped⟩
  rcases drawn_of_run rest with ⟨late, further, -⟩
  apply kept
  rw [further, added]
  refine List.mem_append_right _ (List.mem_append_left _ ?_)
  rw [dropped, if_pos skips, slot]
  exact .head _

/-- The value of the first marker of a document is not left out. -/
theorem not_mem_dropped_of_first {id : SlotId}
    (elsewhere : ∀ other ∈ occurrences, other.slot ≠ some id)
    (run : (occurrence :: occurrences).foldlM (pass outline) start = .ok after) :
    id ∉ after.plan.dropped := by
  intro listed
  rcases foldlM_cons_eq_ok.mp run with ⟨between, passed, rest⟩
  rcases drawn_pass passed with ⟨early, added, -, dropped⟩
  rcases drawn_of_run rest with ⟨late, further, drawn⟩
  rw [if_neg (not_skips_start _)] at dropped
  rw [further, added] at listed
  rcases List.mem_append.mp listed with later | first
  · exact drawn.not_mem_dropped elsewhere later
  · rcases List.mem_append.mp first with here | none
    · rw [dropped] at here
      cases here
    · cases none

/-- If its scope lies in no repetition it is emitted from the body of the document. -/
theorem host_of_first {id : SlotId} (slot : occurrence.slot = some id)
    (opens : occurrence.opens = []) (closes : occurrence.closes = [])
    (elsewhere : ∀ other ∈ occurrences, other.slot ≠ some id)
    (top : ∀ slot, outline.slots[id]? = some slot → outline.dimensionsAround slot.scope = [])
    (run : (occurrence :: occurrences).foldlM (pass outline) start = .ok after) :
    after.plan.host id = none := by
  rcases foldlM_cons_eq_ok.mp run with ⟨between, passed, rest⟩
  rcases drawn_of_run rest with ⟨late, further, drawn⟩
  have only : actionsOf occurrence = [.insert id] := by simp [actionsOf, slot, opens, closes]
  rw [pass_of_not_skips (not_skips_start _), read_eq_actions, only] at passed
  rcases foldlM_cons_eq_ok.mp passed with ⟨inserted, acted, done⟩
  cases foldlM_nil_eq_ok.mp done
  rcases insert_eq_ok.mp acted with ⟨found, host, foundSlot, hosted, -, rfl⟩
  have flat : host = none := by
    rw [top found foundSlot] at hosted
    unfold hostOf? at hosted
    split at hosted
    · cases hosted
      rfl
    · cases hosted
  have others := drawn.lookup_eq_none elsewhere
  have looked : after.plan.hosts.lookup id = some none := by
    rw [further, flat]
    show (late.hosts ++ [(id, none)]).lookup id = some none
    rw [List.lookup_append, others, Option.none_or, List.lookup_cons, beq_self_eq_true]
  unfold Plan.host
  rw [looked]
  rfl

end Sweep

theorem finish_plan {length : Nat} (finished : Sweep.finish outline length sweep = .ok plan) :
    sweep.rows = [] ∧ sweep.position ≤ length ∧
      plan = sweep.plan.followedBy (.single (lastRole outline) sweep.position length []) :=
  finish_eq_ok.mp finished

variable {size otherSize : Nat} {first second all : Plan}

/-- The first value of a document is not left out, and it is emitted from the body of the
document unless it stands in a repetition. -/
theorem seated_first_of_make (coherent : Coherent outline)
    (split : outline.occurrences.toList = occurrence :: occurrences)
    (begins : Outline.Begins outline occurrence) (ends : occurrence.closes = [])
    (made : Plan.make outline size = .ok plan) :
    0 ∉ plan.dropped ∧ (occurrence.opens = [] → plan.host 0 = none) := by
  rcases bind_eq_ok.mp made with ⟨sweep, swept, finished⟩
  rcases finish_plan finished with ⟨-, -, rfl⟩
  have elsewhere :=
    (slot_ne_of_split coherent (split.trans (List.nil_append _).symm) begins.slot).2
  rw [split] at swept
  refine ⟨Sweep.not_mem_dropped_of_first elsewhere swept, fun opens => ?_⟩
  apply Sweep.host_of_first begins.slot opens ends elsewhere _ swept
  intro slot found
  rcases begins.placed with ⟨own, foundOwn, -, flat⟩
  rw [found] at foundOwn
  cases foundOwn
  exact flat opens

/-- Behind a document there is a text without markers. -/
theorem spliced_of_nil (joins : Joins move one two both) (coherent : Coherent one)
    (rooted : Rooted both) {markers : List Marker} (registered : Registered markers one)
    (made : Plan.make one size = .ok first) (otherMade : Plan.make two otherSize = .ok second)
    (bothMade : Plan.make both (size + otherSize) = .ok all) (none : two.occurrences = #[]) :
    ∃ front, Spliced move size front (lastRole one) .before (lastRole one) first second all ∧
      Drawn one.occurrences.toList front.plan := by
  rcases bind_eq_ok.mp made with ⟨front, swept, finished⟩
  rcases bind_eq_ok.mp otherMade with ⟨other, otherSwept, otherFinished⟩
  rcases bind_eq_ok.mp bothMade with ⟨whole, bothSwept, bothFinished⟩
  rcases finish_plan finished with ⟨-, -, rfl⟩
  rcases finish_plan otherFinished with ⟨-, -, rfl⟩
  rcases finish_plan bothFinished with ⟨-, -, rfl⟩
  have same : both.occurrences = one.occurrences := by
    rw [joins.occurrences, none]
    simp
  have last : lastRole both = lastRole one := by rw [lastRole, same, lastRole]
  have otherLast : lastRole two = .before := lastRole_of_empty (by rw [none]; rfl)
  rw [none] at otherSwept
  rw [same, Sweep.run_first joins coherent rooted registered swept] at bothSwept
  cases bothSwept
  cases otherSwept
  rw [last, otherLast]
  refine ⟨front, ⟨rfl, otherSize, [], .empty, ?_, ?_⟩, ?_⟩
  · rw [Plan.followedBy_empty]
    exact Plan.empty_followedBy _
  · rw [Nat.add_comm otherSize]
    exact (Plan.followedBy_empty _).symm
  · exact Sweep.drawn_of_start swept

/-- Behind a document there is one with markers.  The first of them is read there. -/
theorem spliced_of_cons (joins : Joins move one two both) (coherent : Coherent one)
    (otherCoherent : Coherent two) (rooted : Rooted both) {markers otherMarkers : List Marker}
    (registered : Registered markers one) (otherRegistered : Registered otherMarkers two)
    (made : Plan.make one size = .ok first) (otherMade : Plan.make two otherSize = .ok second)
    (bothMade : Plan.make both (size + otherSize) = .ok all) (offset : move.offset = size)
    (split : two.occurrences.toList = occurrence :: occurrences)
    (begins : occurrence.slot = some 0) (ends : occurrence.closes = [])
    (kept : 0 ∉ second.dropped → 0 + move.slot ∉ all.dropped) :
    ∃ front role, Spliced move size front (lastRole one) role (move.numbers.role role) first second all ∧
      (rolesOf occurrence).head? = some role ∧ Drawn one.occurrences.toList front.plan := by
  rcases bind_eq_ok.mp made with ⟨front, swept, finished⟩
  rcases bind_eq_ok.mp otherMade with ⟨other, otherSwept, otherFinished⟩
  rcases bind_eq_ok.mp bothMade with ⟨whole, bothSwept, bothFinished⟩
  rcases finish_plan finished with ⟨outside, -, rfl⟩
  rcases finish_plan otherFinished with ⟨-, -, rfl⟩
  rcases finish_plan bothFinished with ⟨-, -, rfl⟩
  have list : both.occurrences.toList =
      one.occurrences.toList ++ (occurrence :: occurrences).map move.numbers.occurrence := by
    rw [joins.occurrences, Array.toList_append, Array.toList_map, split]
    rfl
  have last : lastRole two = .after ∧ lastRole both = .after :=
    ⟨lastRole_of_nonempty (by rw [← Array.isEmpty_toList, split]; rfl),
      lastRole_of_nonempty (by rw [← Array.isEmpty_toList, list]; simp)⟩
  rw [split] at otherSwept
  rw [list] at bothSwept
  rcases foldlM_append_eq_ok.mp bothSwept with ⟨between, early, late⟩
  rw [Sweep.run_first joins coherent rooted registered swept] at early
  cases early
  -- The first value of the second document is not left out, so its marker is read.
  have elsewhere :=
    (slot_ne_of_split otherCoherent (split.trans (List.nil_append _).symm) begins).2
  have alone := Sweep.not_mem_dropped_of_first elsewhere otherSwept
  have slot : (move.numbers.occurrence occurrence).slot = some (0 + move.slot) := by
    show occurrence.slot.map (· + move.slot) = _
    rw [begins]
    rfl
  have reads := Sweep.not_skips_of_kept slot late (kept alone)
  rcases foldlM_cons_eq_ok.mp otherSwept with ⟨firstAfter, firstPassed, rest⟩
  rcases foldlM_cons_eq_ok.mp late with ⟨imageAfter, imagePassed, imageRest⟩
  rcases Sweep.moved_of_pass joins.second.numbers otherCoherent rooted outside reads ends
    (by rw [begins]; rfl) firstPassed with
    ⟨role, behind, ahead, image, headed, head, passed, moved⟩
  rw [imagePassed] at passed
  cases passed
  have opened : ∀ other ∈ occurrences, ∀ id ∈ other.opens, id < two.scopes.size := by
    intro later listed
    apply lt_size_of_opens otherRegistered
    rw [split]
    exact .tail _ listed
  rcases moved.run joins.second.numbers otherCoherent rooted opened rest with ⟨final, ran, ended⟩
  rw [imageRest] at ran
  cases ran
  rcases headed.plans with ⟨stop, hosts, rfl, rfl⟩
  rcases ended.further (.single .after other.position otherSize []) with ⟨after, own, theirs⟩
  have assigned : move.numbers.plan (.single .after other.position otherSize []) =
      .single .after whole.position (size + otherSize) [] := by
    rw [ended.position, ← offset, Nat.add_comm move.offset]
    rfl
  rw [assigned] at theirs
  rw [last.1, last.2]
  refine ⟨front, role, ⟨rfl, stop, hosts, after, own, ?_⟩, head, ?_⟩
  · rw [theirs, ← offset]
    rfl
  · exact Sweep.drawn_of_start swept

end Layout

end Stencil
