import Stencil.Proofs.Layout.Behind
import Stencil.Proofs.Layout.Nesting

namespace Stencil.Layout

open Outline (Coherent)

/-!
# What is decided at the marker of a value

The host of a value, and whether it is emitted at all, are decided when the sweep passes
its marker.  Markers before and behind it have values of their own and change neither, so
a layout of the document says what was decided there.
-/

variable {outline : Outline} {occurrence : Occurrence} {before after sweep : Sweep}
  {front back : List Occurrence} {id : SlotId}

namespace Sweep

/-- Markers behind that of a value change neither its host nor whether it is emitted. -/
theorem decided_of_run (elsewhere : ∀ other ∈ back, other.slot ≠ some id)
    (run : back.foldlM (pass outline) after = .ok sweep) :
    sweep.plan.host id = after.plan.host id ∧
      (id ∈ sweep.plan.dropped ↔ id ∈ after.plan.dropped) := by
  rcases drawn_of_run run with ⟨late, further, drawn⟩
  have none := drawn.lookup_eq_none elsewhere
  rw [further]
  constructor
  · show ((late.hosts ++ after.plan.hosts).lookup id).join = _
    rw [List.lookup_append, none, Option.none_or]
    rfl
  · show id ∈ late.dropped ++ after.plan.dropped ↔ _
    rw [List.mem_append]
    exact or_iff_right (drawn.not_mem_dropped elsewhere)

/-- The value of a marker is left out just if the marker is skipped. -/
theorem mem_dropped_of_pass (inserts : occurrence.slot = some id)
    (fresh : id ∉ before.plan.dropped) (run : pass outline before occurrence = .ok after) :
    id ∈ after.plan.dropped ↔ before.Skips occurrence.offset := by
  rcases drawn_pass run with ⟨more, further, -, dropped⟩
  rw [further]
  show id ∈ more.dropped ++ before.plan.dropped ↔ _
  rw [List.mem_append, or_iff_left fresh, dropped]
  split
  · next skips => simp [inserts, skips]
  · next reads => simp [reads]

end Sweep

/-- A layout of the document says of a value what was decided at its marker. -/
theorem decided_of_ofText (coherent : Coherent outline)
    (split : outline.occurrences.toList = front ++ occurrence :: back)
    (inserts : occurrence.slot = some id) {text : String} {layout : Layout}
    (laid : ofText outline text = .ok layout) :
    ∃ before after, front.foldlM (Sweep.pass outline) .start = .ok before ∧
      Sweep.pass outline before occurrence = .ok after ∧
      layout.host outline id = after.plan.host id ∧
      (layout.omits id = true ↔ before.Skips occurrence.offset) := by
  rcases ofText_eq_ok.mp laid with ⟨-, plan, made, rfl⟩
  rcases bind_eq_ok.mp made with ⟨sweep, swept, finished⟩
  rcases finish_plan finished with ⟨-, -, rfl⟩
  rw [split] at swept
  rcases foldlM_append_eq_ok.mp swept with ⟨before, early, late⟩
  rcases foldlM_cons_eq_ok.mp late with ⟨after, passed, later⟩
  rcases slot_ne_of_split coherent split inserts with ⟨elsewhere, elsewhereBehind⟩
  rcases Sweep.decided_of_run elsewhereBehind later with ⟨host, dropped⟩
  have fresh := (Sweep.drawn_of_start early).not_mem_dropped elsewhere
  have bound : id < outline.slots.size := by
    have member : id ∈ outline.occurrences.toList.filterMap Occurrence.slot :=
      List.mem_filterMap.mpr ⟨occurrence, by rw [split]; simp, inserts⟩
    rw [coherent.listed] at member
    exact List.mem_range.mp member
  refine ⟨before, after, early, passed, ?_, ?_⟩
  · rw [host_ofPlan _ _ _ bound]
    exact host
  · rw [omits_ofPlan outline _ _ bound, List.contains_iff_mem,
      ← Sweep.mem_dropped_of_pass inserts fresh passed, ← dropped]
    show id ∈ [] ++ sweep.plan.dropped ↔ _
    rw [List.nil_append]

end Stencil.Layout
