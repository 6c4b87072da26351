import Stencil.Proofs.Layout.Composed
import Stencil.Proofs.Outline.Omits

namespace Stencil

/-!
# The layout without a skipped marker

A marker that is skipped because it stands before the place up to which all text is taken
assigns no text and moves nothing.  So without it the sweep does what it does with it, and
all that the layout with it says besides is that its value is left out.
-/

/-- The numbers of a document with one marker more. -/
def Omission.numbers (move : Omission) : Layout.Renumbering := ⟨move.scope, move.slotNumber, 0⟩

namespace Outline

variable {move : Omission} {own : Occurrence} {part whole : Outline}

/-- The row of a repetition is told by its ends. -/
theorem rowOf?_eq_endsOf {outline : Outline} {id : Nat} {scope : Scope}
    (found : outline.scopes[id]? = some scope) (name : ScopeId) (place : Nat) :
    Layout.Sweep.rowOf? scope name place = (outline.endsOf id).1.map fun closing =>
      ⟨name, scope.opened.offset, (outline.endsOf id).2.getD closing.offset, place⟩ := by
  unfold Layout.Sweep.rowOf? endsOf closingOf told
  rw [found, Option.bind_some]
  cases scope.dimension? <;> rfl

theorem Omits.getElem?_slots (omits : Omits move own part whole) {id : Nat} {slot : Slot}
    (found : part.slots[id]? = some slot) :
    whole.slots[move.slotNumber id]? = some (move.slotAt slot) := by
  rcases omits.slots with ⟨front, further, back, length, slots, slotsWhole⟩
  rw [← Array.getElem?_toList, slots] at found
  rw [← Array.getElem?_toList, slotsWhole]
  unfold Omission.slotNumber
  by_cases early : id < front.length
  · rw [List.getElem?_append_left early] at found
    rw [if_pos (length ▸ early), List.getElem?_append_left (by simpa using early),
      List.getElem?_map, found]
    rfl
  · have late := Nat.le_of_not_lt early
    rw [List.getElem?_append_right late] at found
    rw [if_neg (length ▸ early), List.getElem?_append_right (by simpa using Nat.le_succ_of_le late),
      List.length_map, Nat.sub_add_comm late, List.getElem?_cons_succ, List.getElem?_map, found]
    rfl

theorem Omits.numbers (omits : Omits move own part whole) : move.numbers.Embeds part whole where
  toCarries := omits.carries
  rows id scope image found foundImage place := by
    have bound := lt_size_of_getElem? found
    rcases omits.images id scope found with ⟨same, foundSame, alike⟩
    cases foundImage.symm.trans foundSame
    have ends : whole.endsOf (move.numbers.scope id) = move.ends (part.endsOf id) :=
      omits.ends id bound
    rw [rowOf?_eq_endsOf found, rowOf?_eq_endsOf foundImage, ends]
    cases closed : (part.endsOf id).1 with
    | none =>
      simp only [Omission.ends, closed]
      rfl
    | some closing =>
      have array : scope.isArray = true := by
        refine (scopeIs_eq found).symm.trans (isArray_of_hasEnd ?_)
        rw [scopeIs_hasEnd]
        exact congrArg Option.isSome closed
      simp only [Omission.ends, closed, alike.opened array]
      rfl
  slots id slot found := ⟨_, omits.getElem?_slots found, rfl⟩

end Outline

namespace Layout

open Outline (Omits Rooted Coherent)

variable {move : Omission} {own : Occurrence} {part whole outline : Outline} {plan all : Plan}
  {cs : List Char}

/-! ## The sweep over both -/

/-- The marker with some number of markers before it is skipped, because all text up to
some place behind it is taken. -/
def Passes (outline : Outline) (rank : Nat) : Prop :=
  ∃ sweep own, (outline.occurrences.toList.take rank).foldlM (Sweep.pass outline) Sweep.start =
      .ok sweep ∧ outline.occurrences[rank]? = some own ∧ own.offset < sweep.position

instance (outline : Outline) (rank : Nat) : Decidable (Passes outline rank) :=
  decidable_of_iff (∃ sweep ∈ ((outline.occurrences.toList.take rank).foldlM (Sweep.pass outline)
      Sweep.start).toOption, ∃ own ∈ outline.occurrences[rank]?, own.offset < sweep.position) <| by
    constructor
    · rintro ⟨sweep, ran, own, found, before⟩
      exact ⟨sweep, own, eq_ok_of_toOption ran, found, before⟩
    · rintro ⟨sweep, own, ran, found, before⟩
      refine ⟨sweep, ?_, own, found, before⟩
      rw [ran]
      rfl

/-- A marker before the place that is reached does no more than to leave its value out. -/
theorem Sweep.pass_of_lt {sweep after : Sweep} (before : own.offset < sweep.position)
    (run : pass outline sweep own = .ok after) :
    own.closes = [] ∧ own.opens.find? (outline.scopeIs Scope.hasEnd) = none ∧
      after = sweep.skipped own.slot := by
  have same : sweep.passed own.offset = sweep := if_pos before
  rw [pass_of_skips (.inl before), same] at run
  exact skip_eq_ok.mp run

/-- What a skipped marker begins has no end. -/
theorem endless_of_passes {rank : Nat} (passes : Passes outline rank) {length : Nat}
    (made : Plan.make outline length = .ok plan) :
    ∃ own, outline.occurrences[rank]? = some own ∧
      ∀ id ∈ own.opens, outline.scopeIs Scope.hasEnd id = false := by
  rcases passes with ⟨reached, own, ran, found, before⟩
  rcases bind_eq_ok.mp made with ⟨sweep, swept, -⟩
  rcases Array.getElem?_eq_some_iff.mp found with ⟨bound, same⟩
  have split : outline.occurrences.toList = outline.occurrences.toList.take rank ++
      own :: outline.occurrences.toList.drop (rank + 1) := by
    rw [← same, ← Array.getElem_toList, ← List.drop_eq_getElem_cons, List.take_append_drop]
  rw [split] at swept
  rcases foldlM_append_eq_ok.mp swept with ⟨between, front, rest⟩
  cases front.symm.trans ran
  rcases foldlM_cons_eq_ok.mp rest with ⟨next, passed, -⟩
  rcases Sweep.pass_of_lt before passed with ⟨-, opens, -⟩
  refine ⟨own, found, fun id listed => ?_⟩
  simpa using List.find?_eq_none.mp opens id listed

/-- Two plans of a document.  One says besides what the other says only that a value is
left out. -/
structure Lacks (move : Omission) (plan all : Plan) : Prop where
  pieces : all.pieces = plan.pieces.map move.numbers.piece
  hosts : all.hosts = plan.hosts.map move.numbers.seat
  dropped : ∀ id, move.slotNumber id ∈ all.dropped ↔ id ∈ plan.dropped
  omitted : move.slot ∈ all.dropped

theorem mem_map_slotNumber {id : SlotId} {slots : List SlotId} :
    move.slotNumber id ∈ slots.map move.slotNumber ↔ id ∈ slots :=
  List.mem_map_of_injective Omission.slotNumber_injective

/-- Both assign the same further on. -/
theorem Lacks.followedBy (lacks : Lacks move plan all) (more : Plan) :
    Lacks move (plan.followedBy more) (all.followedBy (move.numbers.plan more)) where
  pieces := by
    show all.pieces ++ more.pieces.map move.numbers.piece = _
    rw [lacks.pieces, ← List.map_append]
    rfl
  hosts := by
    show more.hosts.map move.numbers.seat ++ all.hosts = _
    rw [lacks.hosts, ← List.map_append]
    rfl
  dropped id := by
    show move.slotNumber id ∈ more.dropped.map move.slotNumber ++ all.dropped ↔
      id ∈ more.dropped ++ plan.dropped
    rw [List.mem_append, List.mem_append, lacks.dropped, mem_map_slotNumber]
  omitted := List.mem_append_right _ lacks.omitted

/-- Where the one leaves the value out, both have planned the same. -/
theorem lacks_omitted (plan : Plan) :
    Lacks move plan { move.numbers.plan plan with
      dropped := move.slot :: (move.numbers.plan plan).dropped } where
  pieces := rfl
  hosts := rfl
  dropped id := by
    rw [List.mem_cons, or_iff_right (Omission.slotNumber_ne id)]
    exact mem_map_slotNumber
  omitted := .head _

/-- The sweep goes on behind the marker as it does without it. -/
theorem exists_moved (omits : Omits move own part whole) (coherent : Coherent part)
    (rooted : Rooted whole) {markers : List Marker} (registered : Outline.Registered markers part)
    (passes : Passes whole move.point) {sweep image : Sweep}
    (swept : part.occurrences.toList.foldlM (Sweep.pass part) Sweep.start = .ok sweep)
    (imageSwept : whole.occurrences.toList.foldlM (Sweep.pass whole) Sweep.start = .ok image) :
    part.occurrences.isEmpty = false ∧ ∃ behind ahead, Lacks move behind ahead ∧
      Sweep.Moved move.numbers behind ahead sweep image := by
  have opens := lt_size_of_opens registered
  have same : move.occurrence = move.numbers.occurrence := rfl
  rcases omits.occurrences with ⟨front, back, count, occurrences, imageOccurrences⟩
  rcases passes with ⟨reached, own, ran, found, before⟩
  rw [imageOccurrences, List.take_left' (by simpa using count)] at ran
  rw [← Array.getElem?_toList, imageOccurrences,
    List.getElem?_append_right (by simp [count]), List.length_map, count, Nat.sub_self] at found
  cases found
  rw [occurrences] at swept opens
  rw [imageOccurrences] at imageSwept
  rcases foldlM_append_eq_ok.mp swept with ⟨between, sweptFront, sweptBack⟩
  rcases foldlM_append_eq_ok.mp imageSwept with ⟨imageBetween, imageFront, imageRest⟩
  cases imageFront.symm.trans ran
  rcases foldlM_cons_eq_ok.mp imageRest with ⟨imageNext, passed, imageBack⟩
  rcases Sweep.pass_of_lt before passed with ⟨-, -, rfl⟩
  have nonempty : front ≠ [] := by
    rintro rfl
    rw [← foldlM_nil_eq_ok.mp ran] at before
    exact Nat.not_lt_zero _ before
  have begun : Sweep.Moved move.numbers .empty .empty Sweep.start Sweep.start :=
    ⟨rfl, rfl, rfl, .empty, rfl, rfl⟩
  rcases begun.run omits.numbers coherent rooted
    (fun occurrence listed => opens occurrence (List.mem_append_left _ listed)) sweptFront with
    ⟨sameBetween, runFront, moved⟩
  rw [← same, imageFront] at runFront
  cases runFront
  rcases moved.plans with ⟨taken, plan, imagePlan⟩
  have onward : Sweep.Moved move.numbers between.plan (reached.skipped own.slot).plan between
      (reached.skipped own.slot) :=
    ⟨moved.position, moved.echo, moved.rows, .empty, (Plan.followedBy_empty _).symm,
      (Plan.followedBy_empty _).symm⟩
  rcases onward.run omits.numbers coherent rooted
    (fun occurrence listed => opens occurrence (List.mem_append_right _ listed)) sweptBack with
    ⟨sameImage, runBack, ended⟩
  rw [← same, imageBack] at runBack
  cases runBack
  refine ⟨?_, _, _, ?_, ended⟩
  · rw [← Array.isEmpty_toList, occurrences]
    simp [nonempty]
  · have left : (reached.skipped own.slot).plan = { move.numbers.plan between.plan with
        dropped := move.slot :: (move.numbers.plan between.plan).dropped } := by
      unfold Sweep.skipped
      rw [imagePlan, plan, Plan.empty_followedBy, Plan.empty_followedBy, omits.ownSlot]
      rfl
    rw [left]
    exact lacks_omitted between.plan

/-- Without the marker the plan is the same. -/
theorem lacks_of_make (omits : Omits move own part whole) (coherent : Coherent part)
    (rooted : Rooted whole) {markers : List Marker} (registered : Outline.Registered markers part)
    (passes : Passes whole move.point) {length : Nat} (made : Plan.make part length = .ok plan)
    (allMade : Plan.make whole length = .ok all) :
    Lacks move plan all ∧ part.occurrences.isEmpty = false := by
  rcases bind_eq_ok.mp made with ⟨sweep, swept, finished⟩
  rcases bind_eq_ok.mp allMade with ⟨image, imageSwept, imageFinished⟩
  rcases finish_plan finished with ⟨-, -, rfl⟩
  rcases finish_plan imageFinished with ⟨-, -, rfl⟩
  rcases exists_moved omits coherent rooted registered passes swept imageSwept with
    ⟨nonempty, behind, ahead, lacks, moved⟩
  have imageNonempty : whole.occurrences.isEmpty = false := by
    rcases omits.occurrences with ⟨front, back, -, -, all⟩
    rw [← Array.isEmpty_toList, all]
    simp
  rcases moved.further (.single .after sweep.position length []) with ⟨more, plan, imagePlan⟩
  have assigned : move.numbers.plan (.single .after sweep.position length []) =
      .single .after image.position length [] := by
    rw [moved.position]
    rfl
  rw [assigned] at imagePlan
  rw [lastRole_of_nonempty nonempty, lastRole_of_nonempty imageNonempty, plan, imagePlan]
  exact ⟨lacks.followedBy more, nonempty⟩

/-! ## Both layouts -/

/-- A layout and one of the document with a skipped marker more. -/
structure Omitted (move : Omission) (part whole : Outline) (own all : Layout) : Prop where
  laid : Laid move.numbers (fun _ => "") part whole own all
  before : all.before = own.before
  after : all.after = own.after
  omitted : all.omits move.slot = true
  opening : ∀ image, Outline.Spare move part image → all.openingText image = ""

theorem Lacks.cut (lacks : Lacks move plan all) (injective : Function.Injective move.scope)
    (role : Role) : cut all cs (move.numbers.role role) = Layout.cut plan cs role := by
  have pieces : all.piece? (move.numbers.role role) = (plan.piece? role).map move.numbers.piece := by
    rw [← Renumbering.piece?_plan
      (Renumbering.role_injective injective Omission.slotNumber_injective)]
    unfold Plan.piece?
    rw [lacks.pieces]
    rfl
  unfold Layout.cut
  rw [pieces]
  cases plan.piece? role <;> rfl

theorem Lacks.host (lacks : Lacks move plan all) (id : SlotId) :
    all.host (move.slotNumber id) = (plan.host id).map move.scope := by
  have injective : Function.Injective move.numbers.slot := Omission.slotNumber_injective
  have moved : (plan.hosts.map move.numbers.seat).lookup (move.slotNumber id) =
      (plan.hosts.lookup id).map (Option.map move.scope) :=
    Renumbering.lookup_map_seat injective plan.hosts id
  unfold Plan.host
  rw [lacks.hosts, moved]
  cases plan.hosts.lookup id with
  | none => rfl
  | some host => cases host <;> rfl

theorem omitted_of_lacks (omits : Omits move own part whole) (lacks : Lacks move plan all)
    (document : Document cs part plan) (wholeDocument : Document cs whole all) :
    Omitted move part whole (ofPlan part plan cs) (ofPlan whole all cs) where
  laid := by
    apply laid_of_cut
    · intro role _
      rw [String.empty_append]
      exact lacks.cut omits.injective role
    · exact fun _ => rfl
    · intro id bound
      have found := omits.getElem?_slots (Array.getElem?_eq_getElem bound)
      exact (Array.getElem?_eq_some_iff.mp found).1
    · exact document.planned
    · exact wholeDocument.planned
    · intro id _
      rw [Bool.eq_iff_iff, List.contains_iff_mem, List.contains_iff_mem]
      exact lacks.dropped id
    · exact fun id _ => lacks.host id
  before := lacks.cut omits.injective .before
  after := lacks.cut omits.injective .after
  omitted := by
    rcases omits.slots with ⟨front, slot, back, length, -, slots⟩
    have bound : move.slot < whole.slots.size := by
      rw [← Array.length_toList, slots, ← length]
      simp
    rw [omits_ofPlan _ _ _ bound, List.contains_iff_mem]
    exact lacks.omitted
  opening image beside := by
    rw [openingText_ofPlan, cut_of_not_mem]
    intro played
    rw [lacks.pieces, List.map_map] at played
    rcases List.mem_map.mp played with ⟨piece, listed, same⟩
    have role : move.numbers.role piece.role = .opening image := same
    cases named : piece.role with
    | opening id =>
      rw [named] at role
      have array : part.scopeIs Scope.isArray id = true := by
        rcases document.roleOf listed with its | last
        · rw [named] at its
          exact its
        · rw [named] at last
          rcases lastRole_eq part with other | other <;> rw [other] at last <;> cases last
      exact beside id (Outline.lt_size_of_scopeIs array) (Role.opening.inj role)
    | separator _ | leading _ | before | after =>
      rw [named] at role
      cases role

end Layout

end Stencil
