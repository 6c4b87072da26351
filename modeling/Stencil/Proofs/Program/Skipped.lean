import Stencil.Proofs.Meaning.Omitted
import Stencil.Proofs.Program.Composition
import Stencil.Proofs.Program.Failure

namespace Stencil

open Layout (Passes)
open Meaning (Bindings Idle Rendering)
open Outline (Omits PlainMarkers)
open Program (keptSlots)

/-!
# Markers in skipped rows

A marker in a row that is skipped contributes nothing: the document without it renders in
the same way, or fails in the same way.  This is so if the marker ends nothing and says
nothing on the repetitions of other markers, neither where they begin nor which elements
they run over.
-/

/-- A document without the marker that is given at an index. -/
def Source.without (source : Source) (index : Nat) : Source :=
  ⟨source.text, source.markers.eraseIdx index⟩

/-- How many markers come before the one that is given at an index: in the order of the
document those at smaller offsets, and those at its offset that are given before it. -/
def Source.rank (source : Source) (index : Nat) (marker : Marker) : Nat :=
  ((source.markers.take index).filter fun other => other.offset ≤ marker.offset).length +
    ((source.markers.drop (index + 1)).filter fun other => other.offset < marker.offset).length

/-- Without the marker the others come in the order in which they come with it. -/
theorem Source.exists_inDocumentOrder {source : Source} {index : Nat} {marker : Marker}
    (given : source.markers[index]? = some marker) :
    ∃ front back, front.length = source.rank index marker ∧
      Outline.inDocumentOrder source.markers = front ++ marker :: back ∧
        Outline.inDocumentOrder (source.without index).markers = front ++ back := by
  rcases List.getElem?_eq_some_iff.mp given with ⟨bound, same⟩
  have split : source.markers =
      source.markers.take index ++ marker :: source.markers.drop (index + 1) := by
    rw [← same, ← List.drop_eq_getElem_cons, List.take_append_drop]
  rcases exists_orderBy_key_cons Marker.offset (source.markers.take index)
    (source.markers.drop (index + 1)) marker with ⟨front, back, length, ordered, without⟩
  rw [← split] at ordered
  refine ⟨front, back, length, ordered, ?_⟩
  unfold Source.without
  rw [List.eraseIdx_eq_take_drop_succ]
  exact without

namespace Outline

/-- A marker that says nothing on the repetitions of other markers: they mention no
dimension that it mentions first, and it states no condition that they do not state. -/
structure Harmless (rank : Nat) (rest whole : Outline) : Prop where
  apart : ∀ own ∈ whole.occurrences[rank]?, ∀ image ∈ own.opens,
    ∀ id < rest.scopes.size, rest.address id ≠ whole.address image
  conditions : ∀ (id image : Nat) scope wide, rest.scopes[id]? = some scope →
    whole.scopes[image]? = some wide → rest.address id = whole.address image →
      ∀ condition, condition ∈ wide.conditions ↔ condition ∈ scope.conditions

end Outline

namespace Template

variable {source : Source} {settings : Settings} {index : Nat} {marker : Marker}
  {whole rest : Template}

/-- The document without a skipped marker is one that the marker adds nothing to. -/
theorem exists_idle (compiled : compile source settings = .ok whole)
    (compiledRest : compile (source.without index) settings = .ok rest)
    (plain : PlainMarkers source.markers) (given : source.markers[index]? = some marker)
    (goes : marker.terminates = false)
    (skipped : Passes whole.outline (source.rank index marker))
    (harmless : Outline.Harmless (source.rank index marker) rest.outline whole.outline)
    (registry : Registry) :
    ∃ move own, Idle move own (rest.rendering registry settings)
      (whole.rendering registry settings) := by
  rcases compile_eq_ok compiled with ⟨outlined, laidOut, -⟩
  rcases compile_eq_ok compiledRest with ⟨outlinedRest, laidOutRest, -⟩
  rcases Layout.document_of_ofText outlined laidOut with ⟨all, layout, document⟩
  rcases Layout.document_of_ofText outlinedRest laidOutRest with ⟨plan, layoutRest, documentRest⟩
  rcases source.exists_inDocumentOrder given with ⟨front, back, length, ordered, orderedRest⟩
  rcases Layout.endless_of_passes skipped document.made with ⟨own, found, endless⟩
  rcases Outline.omits_of_ofMarkers outlinedRest outlined plain orderedRest ordered
    (length ▸ found) goes (harmless.apart own found) endless with ⟨move, placed, point, omits⟩
  rcases documentRest.registered with ⟨markers, registered⟩
  rw [← length, ← point] at skipped
  rcases Layout.lacks_of_make omits documentRest.coherent document.coherent.rooted registered
    skipped documentRest.made document.made with ⟨lacks, -⟩
  have laid : Layout.Omitted move rest.outline whole.outline rest.layout whole.layout := by
    rw [layout, layoutRest]
    exact Layout.omitted_of_lacks omits lacks documentRest document
  have rooted := documentRest.coherent.rooted
  have wholeRooted := document.coherent.rooted
  refine ⟨move, own, ?_⟩
  exact
    { omits := omits
      laid := laid
      coherent := documentRest.coherent
      wholeRooted := wholeRooted
      seated := seated_of_compile compiledRest
      registry := rfl
      escape := rfl
      conditions := fun id scope image found foundImage =>
        harmless.conditions id (move.scope id) scope image found foundImage
          (omits.address rooted wholeRooted placed (Outline.lt_size_of_getElem? found)) }

/-- The same formatters are looked for, in the same order. -/
theorem check_of_idle (compiled : compile source settings = .ok whole)
    (compiledRest : compile (source.without index) settings = .ok rest) {move : Omission}
    {own : Occurrence} {registry : Registry}
    (idle : Idle move own (rest.rendering registry settings) (whole.rendering registry settings)) :
    whole.program.check registry = rest.program.check registry := by
  have kept : keptSlots whole.outline whole.layout =
      (keptSlots rest.outline rest.layout).map move.numbered := by
    apply idle.omits.filter_slots
    · intro item listed
      have bound : item.2 < (rest.rendering registry settings).outline.slots.size := by
        simpa using List.snd_lt_of_mem_zipIdx listed
      exact congrArg (!·) (idle.laid.laid.omits item.2 bound)
    · intro slot
      exact congrArg (!·) idle.laid.omitted
  unfold Program.check
  rw [(Program.compile_eq_ok (compile_eq_ok compiled).2.2).insertions,
    (Program.compile_eq_ok (compile_eq_ok compiledRest).2.2).insertions, kept]
  simp only [List.map_map, List.forM_eq_forM, List.forM_map]
  rfl

/-- A template whose formatters exist renders its document. -/
theorem render_eq_expansion {template : Template}
    (compiled : compile source settings = .ok template) (plain : PlainMarkers source.markers)
    {registry : Registry} (checked : template.program.check registry = .ok ()) (data : Value) :
    template.render data registry =
      .ok ((template.rendering registry settings).expansion (fun _ => none) data) := by
  unfold render
  rw [fragments_eq compiled checked (fun _ => none) data]
  exact congrArg Except.ok (documentText_eq_expansion (compile_eq_ok compiled).1 plain _ _ _ _ _)

/-- A template with a formatter that does not exist renders nothing. -/
theorem render_eq_error {template : Template}
    (compiled : compile source settings = .ok template) {registry : Registry} {error : Error}
    (refused : template.program.check registry = .error error) (data : Value) :
    template.render data registry = .error error := by
  have failed := ((dependable_of_compile compiled).fails data registry error).mpr refused
  unfold render fragments
  rw [failed]
  rfl

/-- A skipped marker leaves no trace: with it and without it the document has one text, or
fails by one error. -/
theorem skipped_marker_leaves_no_trace (compiled : compile source settings = .ok whole)
    (compiledRest : compile (source.without index) settings = .ok rest)
    (plain : PlainMarkers source.markers) (given : source.markers[index]? = some marker)
    (goes : marker.terminates = false)
    (skipped : Passes whole.outline (source.rank index marker))
    (harmless : Outline.Harmless (source.rank index marker) rest.outline whole.outline)
    (data : Value) (registry : Registry) :
    whole.render data registry = rest.render data registry := by
  rcases exists_idle compiled compiledRest plain given goes skipped harmless registry with
    ⟨move, own, idle⟩
  have plainRest : PlainMarkers (source.without index).markers :=
    fun other listed => plain other (List.mem_of_mem_eraseIdx listed)
  have same := check_of_idle compiled compiledRest idle
  cases checked : rest.program.check registry with
  | ok =>
    rw [checked] at same
    rw [render_eq_expansion compiled plain same, render_eq_expansion compiledRest plainRest checked]
    exact congrArg Except.ok (idle.expansion data)
  | error error =>
    rw [checked] at same
    rw [render_eq_error compiled same, render_eq_error compiledRest checked]

/-- A crew and who leads it.  What would repeat the names once more is skipped, and with
it the tags of a member. -/
def crewSource : Source :=
  ⟨"crew: , - ; by ", [⟨6, "d.crew[c].name"⟩, ⟨8, "d.crew[c+1].name"⟩,
    ⟨9, "d.crew[c].tags[t].name"⟩, ⟨10, "d.crew[c+1]"⟩, ⟨15, "d.by"⟩]⟩

/-- The tags are mentioned in a skipped row only. -/
theorem skipped_marker_leaves_no_trace_crew : ∃ whole rest,
    compile crewSource {} = .ok whole ∧ compile (crewSource.without 2) {} = .ok rest ∧
      ∀ data registry, whole.render data registry = rest.render data registry := by
  obtain ⟨whole, compiled⟩ := exists_of_isOk
    (by decide +kernel : (compile crewSource {}).isOk = true)
  obtain ⟨rest, compiledRest⟩ := exists_of_isOk
    (by decide +kernel : (compile (crewSource.without 2) {}).isOk = true)
  have suits : ((compile crewSource {}).toOption.all fun whole =>
      (compile (crewSource.without 2) {}).toOption.all fun rest =>
        decide (Passes whole.outline 2) &&
          (whole.outline.scopes.all fun scope => scope.conditions.isEmpty) &&
          (rest.outline.scopes.all fun scope => scope.conditions.isEmpty) &&
          decide (∀ own ∈ whole.outline.occurrences[2]?, ∀ image ∈ own.opens,
            ∀ id < rest.outline.scopes.size,
              rest.outline.address id ≠ whole.outline.address image)) = true := by
    decide +kernel
  rw [compiled, compiledRest] at suits
  obtain ⟨⟨⟨skipped, free⟩, freeRest⟩, apart⟩ := by
    simpa only [Except.toOption, Option.all_some, Bool.and_eq_true, decide_eq_true_eq,
      Array.all_eq_true_iff_forall_mem, List.isEmpty_iff] using suits
  have conditions (id image : Nat) (scope wide) (found : rest.outline.scopes[id]? = some scope)
      (foundWide : whole.outline.scopes[image]? = some wide)
      (_ : rest.outline.address id = whole.outline.address image) (condition) :
      condition ∈ wide.conditions ↔ condition ∈ scope.conditions := by
    rw [free wide (Array.mem_of_getElem? foundWide), freeRest scope (Array.mem_of_getElem? found)]
  exact ⟨whole, rest, compiled, compiledRest, skipped_marker_leaves_no_trace compiled compiledRest
    (by decide +kernel) rfl (by decide +kernel) skipped ⟨apart, conditions⟩⟩

/-- A marker in a skipped row, and a later one on the same repetition. -/
def tallySource : Source :=
  ⟨"0123456789abcdef", [⟨0, "d.r[i].a"⟩, ⟨5, "d.r[i+1].a"⟩, ⟨6, "d.x[k].v"⟩, ⟨9, "d.r[i+1].b"⟩,
    ⟨12, "d.x[k].w"⟩]⟩

def tallyPayload : Value :=
  .object [("r", .array [.object [("a", .string "A")]]),
    ("x", .array [.object [("v", .string "V"), ("w", .string "P")],
      .object [("w", .string "Q")]])]

/-- The repetition begins at the marker that is skipped, so the text between both is
repeated with it. -/
theorem skipped_marker_begins_repetition : ∃ whole rest,
    compile tallySource {} = .ok whole ∧ compile (tallySource.without 2) {} = .ok rest ∧
      PlainMarkers tallySource.markers ∧ tallySource.markers[2]? = some ⟨6, "d.x[k].v"⟩ ∧
      Marker.terminates ⟨6, "d.x[k].v"⟩ = false ∧
      Passes whole.outline (tallySource.rank 2 ⟨6, "d.x[k].v"⟩) ∧
      whole.render tallyPayload .empty = .ok "A9abP9abQcdef" ∧
      rest.render tallyPayload .empty = .ok "A9abPQcdef" := by
  obtain ⟨whole, compiled⟩ := exists_of_isOk
    (by decide +kernel : (compile tallySource {}).isOk = true)
  obtain ⟨rest, compiledRest⟩ := exists_of_isOk
    (by decide +kernel : (compile (tallySource.without 2) {}).isOk = true)
  have shown : ((compile tallySource {}).toOption.all fun whole =>
      (compile (tallySource.without 2) {}).toOption.all fun rest =>
        decide (Passes whole.outline 2) &&
          ((whole.render tallyPayload .empty).toOption == some "A9abP9abQcdef" &&
            (rest.render tallyPayload .empty).toOption == some "A9abPQcdef")) = true := by
    decide +kernel
  rw [compiled, compiledRest] at shown
  obtain ⟨skipped, rendered, renderedRest⟩ := by
    simpa only [Except.toOption, Option.all_some, Bool.and_eq_true, decide_eq_true_eq,
      beq_iff_eq] using shown
  exact ⟨whole, rest, compiled, compiledRest, by decide +kernel, rfl, by decide +kernel, skipped,
    eq_ok_of_toOption rendered, eq_ok_of_toOption renderedRest⟩

end Template

end Stencil
