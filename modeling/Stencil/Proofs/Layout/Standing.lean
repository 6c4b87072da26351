import Stencil.Proofs.Layout.Reading
import Stencil.Proofs.Outline.Exclusive

namespace Stencil.Layout.Sweep

open Outline (Rooted Registered)

/-!
# Where the sweep stands

The sweep stands at the beginning of the text, at a marker or at the end of a skipped
row, which is the place of a marker too.  So whatever is true of the places of markers
and of the beginning, such as being within the text or between two characters, is true
of every place the sweep comes to and of both ends of every piece.
-/

variable {outline : Outline} {occurrence : Occurrence} {sweep after : Sweep} {fits : Nat → Prop}
  {markers : List Marker}

/-- All places that a sweep keeps are of some kind, and no piece ends before it
begins. -/
structure Stands (fits : Nat → Prop) (sweep : Sweep) : Prop where
  position : fits sweep.position
  rows : ∀ row ∈ sweep.rows, fits row.skipEnd ∧ row.start ≤ row.tail
  pieces : ∀ piece ∈ sweep.plan.pieces, piece.start ≤ piece.stop ∧ fits piece.start ∧
    fits piece.stop

theorem Stands.assigned (stands : Stands fits sweep) {role : Role} {start stop : Nat}
    (forward : start ≤ stop) (starts : fits start) (stops : fits stop) :
    ∀ piece ∈ (sweep.assign role start stop).plan.pieces,
      piece.start ≤ piece.stop ∧ fits piece.start ∧ fits piece.stop := by
  intro piece listed
  rcases List.mem_append.mp listed with old | new
  · exact stands.pieces piece old
  · rw [List.mem_singleton.mp new]
    exact ⟨forward, starts, stops⟩

theorem Stands.closed (stands : Stands fits sweep) {row : OpenRow} {rest : List OpenRow}
    (rows : sweep.rows = row :: rest) {place : Nat} (here : fits place) :
    Stands fits (sweep.closed row rest place) where
  position := by
    show fits (max row.skipEnd place)
    rcases max_choice row.skipEnd place with same | same
    · rw [same]
      exact (stands.rows row (by rw [rows]; exact .head _)).1
    · rw [same]
      exact here
  rows other listed := stands.rows other (by rw [rows]; exact .tail _ listed)
  pieces := by
    apply stands.assigned (Nat.min_le_right _ _) _ here
    rcases min_choice sweep.position place with same | same
    · rw [same]
      exact stands.position
    · rw [same]
      exact here

theorem Stands.opened (stands : Stands fits sweep) {scope : Scope} {id place : Nat}
    (here : fits place) (forward : sweep.position ≤ place) (begins : scope.opened.offset = place)
    (ends : ∀ dimension, scope.dimension? = some dimension →
      (∀ closing, dimension.closing = some closing → fits closing.offset) ∧
        ∀ stop, dimension.skipEnd = some stop → fits stop) :
    Stands fits (sweep.opened scope id place) where
  position := here
  rows row listed := by
    rcases List.mem_append.mp listed with new | old
    · rw [Option.mem_toList] at new
      unfold rowOf? at new
      cases kind : scope.dimension? with
      | none => simp [kind] at new
      | some dimension =>
        simp only [kind] at new
        rcases Option.map_eq_some_iff.mp new with ⟨closing, closed, rfl⟩
        refine ⟨?_, Nat.le_of_eq begins⟩
        cases last : dimension.skipEnd with
        | none => simpa [last] using (ends dimension kind).1 closing closed
        | some stop => simpa [last] using (ends dimension kind).2 stop last
    · exact stands.rows row old
  pieces := stands.assigned forward stands.position here

theorem Stands.inserted (stands : Stands fits sweep) {place : Nat} (here : fits place)
    (forward : sweep.position ≤ place) (id : SlotId) (host : Option ScopeId) :
    Stands fits (sweep.inserted id host place) where
  position := here
  rows row listed := by
    have kept : ∀ row ∈ extendTail place sweep.rows, fits row.skipEnd ∧ row.start ≤ row.tail := by
      cases rows : sweep.rows with
      | nil => exact fun _ impossible => nomatch impossible
      | cons inner rest =>
        intro row listed
        rcases List.mem_cons.mp listed with rfl | outer
        · have own := stands.rows inner (by rw [rows]; exact .head _)
          exact ⟨own.1, own.2.trans (Nat.le_max_left _ _)⟩
        · exact stands.rows row (by rw [rows]; exact .tail _ outer)
    exact kept row listed
  pieces := stands.assigned forward stands.position here

theorem Stands.passed (stands : Stands fits sweep) {place : Nat} (here : fits place)
    (slot : Option SlotId) : Stands fits ((sweep.passed place).skipped slot) := by
  unfold Sweep.passed
  split
  · exact ⟨stands.position, stands.rows, stands.pieces⟩
  · exact ⟨here, stands.rows, stands.pieces⟩

/-- The dimensions of an outline end at places of some kind. -/
theorem ends_of_endsAt (ends : Outline.EndsAt fits outline) {id : Nat} {scope : Scope}
    (found : outline.scopes[id]? = some scope) : ∀ dimension, scope.dimension? = some dimension →
      (∀ closing, dimension.closing = some closing → fits closing.offset) ∧
        ∀ stop, dimension.skipEnd = some stop → fits stop := by
  intro dimension kind
  exact ends id dimension (by rw [found]; exact kind)

theorem Stands.act (registered : Registered markers outline) (ends : Outline.EndsAt fits outline)
    (stands : Stands fits sweep) {index : Nat}
    (found : outline.occurrences[index]? = some occurrence) (here : fits occurrence.offset)
    {action : Action} (member : action ∈ actionsOf occurrence)
    (run : act outline occurrence sweep action = .ok after) : Stands fits after := by
  cases action with
  | close scope =>
    rcases close_eq_ok.mp run with ⟨row, rest, rows, -, rfl⟩
    exact stands.closed rows here
  | openRow id =>
    rcases openRow_eq_ok.mp run with ⟨scope, foundScope, -, forward, rfl⟩
    have opens : id ∈ occurrence.opens := by simpa [actionsOf] using member
    have begins := registered.opened index occurrence id scope found opens foundScope
    exact stands.opened here forward (by rw [begins]; rfl) (ends_of_endsAt ends foundScope)
  | insert id =>
    rcases insert_eq_ok.mp run with ⟨slot, host, -, -, forward, rfl⟩
    exact stands.inserted here forward id host

theorem Stands.pass (registered : Registered markers outline) (ends : Outline.EndsAt fits outline)
    (stands : Stands fits sweep) {index : Nat}
    (found : outline.occurrences[index]? = some occurrence) (here : fits occurrence.offset)
    (run : pass outline sweep occurrence = .ok after) : Stands fits after := by
  by_cases skips : sweep.Skips occurrence.offset
  · rw [pass_of_skips skips] at run
    rcases skip_eq_ok.mp run with ⟨-, -, rfl⟩
    exact stands.passed here _
  · rw [pass_of_not_skips skips, read_eq_actions] at run
    exact foldlM_induction (fun before action after member stands run =>
      stands.act registered ends found here member run) stands run

theorem stands_start (begins : fits 0) : Stands fits start where
  position := begins
  rows _ impossible := by cases impossible
  pieces _ impossible := by cases impossible

theorem stands_of_run (registered : Registered markers outline)
    (ends : Outline.EndsAt fits outline) (begins : fits 0)
    (here : ∀ occurrence ∈ outline.occurrences.toList, fits occurrence.offset)
    {front : List Occurrence} (within : front <+: outline.occurrences.toList)
    (run : front.foldlM (pass outline) start = .ok sweep) : Stands fits sweep := by
  refine foldlM_induction_along (motive := fun _ sweep => Stands fits sweep)
    (fun taken occurrence before after inside _ stands run => ?_) (stands_start begins) run
  have found := getElem?_of_isPrefix (inside.trans within)
  have listed : occurrence ∈ outline.occurrences.toList :=
    Array.mem_toList_iff.mpr (Array.mem_of_getElem? found)
  exact stands.pass registered ends found (here occurrence listed) run

end Stencil.Layout.Sweep
