import Stencil.Layout.Plan
import Stencil.Proofs.Fallible

namespace Stencil.Layout.Sweep

/-!
# What one operation of the sweep does

Ending a repetition, beginning one, inserting a value and skipping a marker each
succeed under one condition and then change the sweep in one way.  The lemmas
here say both, so that nobody has to look into the operations again.
-/

variable {outline : Outline} {occurrence : Occurrence} {sweep after : Sweep}

/-- The sweep behind the end of its innermost repetition. -/
def closed (sweep : Sweep) (row : OpenRow) (rest : List OpenRow) (place : Nat) : Sweep :=
  let resume := max row.skipEnd place
  let echo := place + (row.tail - row.start)
  { sweep.assign (.separator row.scope) (min sweep.position place) place with
    position := resume
    echo := if resume < echo then some echo else none
    rows := rest }

/-- The sweep behind the beginning of a repetition. -/
def opened (sweep : Sweep) (scope : Scope) (id : ScopeId) (place : Nat) : Sweep :=
  { sweep.assign (.opening id) sweep.position place with
    echo := none
    rows := (rowOf? scope id place).toList ++ sweep.rows }

/-- The sweep behind an inserted value. -/
def inserted (sweep : Sweep) (id : SlotId) (host : Option ScopeId) (place : Nat) : Sweep :=
  let assigned := sweep.assign (.leading id) sweep.position place
  { assigned with
    echo := none
    rows := extendTail place sweep.rows
    plan := { assigned.plan with hosts := (id, host) :: assigned.plan.hosts } }

/-- The sweep behind a skipped marker. -/
def skipped (sweep : Sweep) (slot : Option SlotId) : Sweep :=
  { sweep with plan := { sweep.plan with dropped := slot.toList ++ sweep.plan.dropped } }

/-- Only the innermost repetition can be ended. -/
theorem close_eq_ok {scope : ScopeId} :
    close outline occurrence sweep scope = .ok after ↔
      ∃ row rest, sweep.rows = row :: rest ∧ row.scope = scope ∧
        after = sweep.closed row rest occurrence.offset := by
  unfold close
  cases rows : sweep.rows with
  | nil => simp
  | cons row rest =>
    by_cases same : row.scope = scope
    · subst same
      simp only [if_true, List.cons.injEq]
      constructor
      · intro run
        cases run
        exact ⟨row, rest, ⟨rfl, rfl⟩, rfl, rfl⟩
      · rintro ⟨_, _, ⟨rfl, rfl⟩, -, rfl⟩
        rfl
    · simp only [same, if_false, List.cons.injEq]
      constructor
      · intro impossible
        cases impossible
      · rintro ⟨_, _, ⟨rfl, rfl⟩, impossible, -⟩
        exact absurd impossible same

/-- Text can be taken up to a place that does not lie further back. -/
theorem take_eq_ok {role : Role} {stop : Nat} :
    sweep.take role stop = .ok after ↔
      sweep.position ≤ stop ∧ after = sweep.assign role sweep.position stop := by
  unfold take
  by_cases forward : sweep.position ≤ stop
  · rw [if_pos forward]
    simp only [forward, true_and, Except.ok.injEq]
    exact eq_comm
  · simp [forward]

/-- A repetition begins where just the repetitions around it are being read, and not
before the text that is assigned already. -/
theorem openRow_eq_ok {id : ScopeId} :
    openRow outline occurrence sweep id = .ok after ↔
      ∃ scope, outline.scopes[id]? = some scope ∧
        (scope.parent.map outline.repetitionsAround).getD [] = sweep.reading ∧
        sweep.position ≤ occurrence.offset ∧ after = sweep.opened scope id occurrence.offset := by
  unfold openRow
  cases found : outline.scopes[id]? with
  | none => simp
  | some scope =>
    by_cases nested : (scope.parent.map outline.repetitionsAround).getD [] = sweep.reading
    · simp only [nested, if_true, Option.some.injEq]
      rw [map_eq_ok]
      constructor
      · rintro ⟨assigned, taken, rfl⟩
        obtain ⟨forward, rfl⟩ := take_eq_ok.mp taken
        exact ⟨scope, rfl, nested, forward, rfl⟩
      · rintro ⟨_, rfl, -, forward, rfl⟩
        exact ⟨_, take_eq_ok.mpr ⟨forward, rfl⟩, rfl⟩
    · simp only [nested, if_false, Option.some.injEq]
      constructor
      · intro impossible
        cases impossible
      · rintro ⟨_, rfl, impossible, -⟩
        exact absurd impossible nested

/-- A value is inserted where it has a host, and not before the text that is assigned
already. -/
theorem insert_eq_ok {id : SlotId} :
    insert outline occurrence sweep id = .ok after ↔
      ∃ slot host, outline.slots[id]? = some slot ∧
        hostOf? (outline.dimensionsAround slot.scope) (outline.repetitionsAround slot.scope)
          sweep.reading = some host ∧
        sweep.position ≤ occurrence.offset ∧ after = sweep.inserted id host occurrence.offset := by
  unfold insert
  cases found : outline.slots[id]? with
  | none => simp
  | some slot =>
    cases hosted : hostOf? (outline.dimensionsAround slot.scope)
        (outline.repetitionsAround slot.scope) sweep.reading with
    | none =>
      simp only [hosted, Option.some.injEq]
      constructor
      · intro impossible
        cases impossible
      · rintro ⟨_, _, rfl, impossible, -⟩
        rw [hosted] at impossible
        cases impossible
    | some host =>
      simp only [hosted, Option.some.injEq]
      rw [map_eq_ok]
      constructor
      · rintro ⟨assigned, taken, rfl⟩
        obtain ⟨forward, rfl⟩ := take_eq_ok.mp taken
        exact ⟨slot, host, rfl, hosted, forward, rfl⟩
      · rintro ⟨_, other, rfl, same, forward, rfl⟩
        rw [hosted] at same
        cases same
        exact ⟨_, take_eq_ok.mpr ⟨forward, rfl⟩, rfl⟩

/-- A marker that ends nothing and begins nothing with an end can be skipped. -/
theorem skip_eq_ok :
    skip outline occurrence sweep = .ok after ↔
      occurrence.closes = [] ∧ occurrence.opens.find? (outline.scopeIs Scope.hasEnd) = none ∧
        after = sweep.skipped occurrence.slot := by
  unfold skip
  cases closes : occurrence.closes with
  | cons scope rest => simp
  | nil =>
    cases opens : occurrence.opens.find? (outline.scopeIs Scope.hasEnd) with
    | some scope => simp
    | none =>
      simp only [true_and]
      constructor
      · intro run
        cases run
        rfl
      · rintro rfl
        rfl

/-- A marker that is read ends repetitions, innermost first, begins others,
outermost first, and then inserts its value. -/
theorem read_eq_ok :
    read outline occurrence sweep = .ok after ↔
      ∃ closed opened, occurrence.closes.reverse.foldlM (close outline occurrence) sweep =
          .ok closed ∧
        occurrence.opens.foldlM (openRow outline occurrence) closed = .ok opened ∧
        occurrence.slot.toList.foldlM (insert outline occurrence) opened = .ok after := by
  unfold read
  constructor
  · intro run
    obtain ⟨closed, first, run⟩ := bind_eq_ok.mp run
    obtain ⟨opened, second, run⟩ := bind_eq_ok.mp run
    exact ⟨closed, opened, first, second, run⟩
  · rintro ⟨closed, opened, first, second, third⟩
    exact bind_eq_ok.mpr ⟨closed, first, bind_eq_ok.mpr ⟨opened, second, third⟩⟩

/-! ## Actions -/

/-- One of the things a marker does that is read. -/
inductive Action where
  | close (scope : ScopeId)
  | openRow (scope : ScopeId)
  | insert (slot : SlotId)

/-- What a marker does, in this order. -/
def actionsOf (occurrence : Occurrence) : List Action :=
  occurrence.closes.reverse.map .close ++ occurrence.opens.map .openRow ++
    occurrence.slot.toList.map .insert

/-- Do one thing. -/
def act (outline : Outline) (occurrence : Occurrence) (sweep : Sweep) :
    Action → Except Error Sweep
  | .close scope => close outline occurrence sweep scope
  | .openRow scope => openRow outline occurrence sweep scope
  | .insert slot => insert outline occurrence sweep slot

/-- To read a marker is to do these things one after the other. -/
theorem read_eq_actions (outline : Outline) (occurrence : Occurrence) (sweep : Sweep) :
    read outline occurrence sweep = (actionsOf occurrence).foldlM (act outline occurrence) sweep := by
  unfold read actionsOf
  simp only [List.foldlM_append, List.foldlM_map, act, bind_assoc]

/-! ## Markers that are skipped -/

/-- The sweep at a marker that is skipped: at an echo the row it belongs to is
passed. -/
def passed (sweep : Sweep) (place : Nat) : Sweep :=
  if place < sweep.position then sweep else { sweep with position := place }

/-- Whether a marker at this offset is skipped. -/
def Skips (sweep : Sweep) (place : Nat) : Prop :=
  place < sweep.position ∨ sweep.echo = some place

theorem pass_of_skips (skips : sweep.Skips occurrence.offset) :
    pass outline sweep occurrence =
      skip outline occurrence (sweep.passed occurrence.offset) := by
  unfold pass passed
  by_cases before : occurrence.offset < sweep.position
  · rw [if_pos before, if_pos before]
  · rcases skips with impossible | echo
    · exact absurd impossible before
    · rw [if_neg before, if_neg before, if_pos echo]

theorem pass_of_not_skips (reads : ¬ sweep.Skips occurrence.offset) :
    pass outline sweep occurrence = read outline occurrence sweep := by
  unfold pass
  rw [if_neg fun before => reads (.inl before), if_neg fun echo => reads (.inr echo)]

end Stencil.Layout.Sweep
