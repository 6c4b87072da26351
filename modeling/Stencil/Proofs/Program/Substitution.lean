import Stencil.Formatter.Builtin
import Stencil.Proofs.Layout.Sequential
import Stencil.Proofs.Meaning.Flat
import Stencil.Proofs.Meaning.Walked
import Stencil.Proofs.Program.Refinement

namespace Stencil

open Meaning (Bindings Rendering UnrepeatedMarkers)
open Outline (Inserts PlainMarkers Registered inDocumentOrder root)

/-!
# Without repetitions rendering is substitution

Paths without iterators share scopes and formatters and may stand at one offset, and the
program binds scopes and emits values in an order of its own.  None of this shows: the
document is its text, cut at the offsets of the markers, with the value of each marker
put in at its cut.
-/

namespace Meaning

/-- The text that a marker stands for: that of the value its path leads to from the
payload, formatted and encoded.  What is absent or null has none. -/
def substituted (registry : Registry) (escape : Escape) (payload : Value) (marker : Marker) :
    String :=
  match Outline.readMarker marker with
  | .error _ => ""
  | .ok read =>
    match read.path.follow payload with
    | none | some .null => ""
    | some found =>
      Program.encode escape
        (format registry (fieldAlong payload read.path.steps.1) read.calls found).text

variable {outline : Outline} {markers : List Marker} {policy : Unterminated}

/-- Markers without iterators neither begin nor end repetitions, and insert values. -/
theorem Direct.sequential (direct : Direct outline)
    (registered : Registered (inDocumentOrder markers) outline)
    (unrepeated : UnrepeatedMarkers markers) : Layout.Sequential outline where
  dimensions := direct.dimensionsAround
  repetitions := direct.repetitionsAround
  inserts occurrence listed := by
    rcases List.getElem?_of_mem listed with ⟨index, marks⟩
    rw [Array.getElem?_toList] at marks
    refine ⟨?_, ?_, ?_⟩
    · refine List.eq_nil_iff_forall_not_mem.mpr fun id opens => ?_
      exact direct.not_isArray id (registered.isArray_of_opens marks opens)
    · refine List.eq_nil_iff_forall_not_mem.mpr fun id closes => ?_
      have ended := registered.closingOf_of_closes marks closes
      refine direct.not_isArray id (Outline.isArray_of_hasEnd ?_)
      rw [Outline.scopeIs_hasEnd, ended]
      rfl
    · rcases registered.inserts occurrence listed with ⟨path, reading, silent⟩
      have member : occurrence.marker ∈ inDocumentOrder markers := by
        rw [← registered.recorded]
        exact List.mem_map_of_mem listed
      have goes := (unrepeated occurrence.marker (Outline.mem_inDocumentOrder.mp member) path
        reading).not_terminates (Marker.read_of_readPath reading)
      refine Option.ne_none_iff_exists'.mp fun none => ?_
      rw [silent.mp none] at goes
      cases goes

/-- The value of a slot is the text that its marker stands for. -/
theorem insertedText_eq_substituted {rendering : Rendering}
    (accepted : Outline.ofMarkers markers policy = .ok rendering.outline)
    (plain : PlainMarkers markers) (unrepeated : UnrepeatedMarkers markers) (unbound : Bindings)
    (payload : Value) {id : Nat} {slot : Slot} (found : rendering.outline.slots[id]? = some slot) :
    insertedText rendering.setting (rendering.bindObjects none (unbound.start payload)) slot.scope
        slot.field slot.calls =
      substituted rendering.registry rendering.escape payload
        ⟨slot.place.offset, slot.path⟩ := by
  have direct := direct_of_ofMarkers accepted plain unrepeated
  rcases Outline.inserts_of_ofMarkers accepted found with ⟨read, inserts⟩
  rcases inserts.leads.address accepted plain with ⟨walkable, bound, address⟩
  have straight := unrepeated _ inserts.listed read.path
    (Outline.readMarker_eq_ok inserts.reading).2
  have value := direct.bound_eq_reached unbound payload read.path.steps.1 bound walkable
    straight.direct address
  have fields : fieldAbove rendering.setting.parentOf
      (rendering.bindObjects none (unbound.start payload)) slot.scope =
        fieldAlong payload read.path.steps.1 := by
    funext up name
    exact direct.fieldAbove_eq unbound payload read.path.steps.1 bound walkable straight.direct
      address up name
  unfold insertedText substituted
  simp only [inserts.reading]
  rw [value, fields, inserts.field, inserts.calls, straight.follow payload]
  rfl

namespace Rendering

variable {rendering : Rendering}

theorem rowless_of_direct (direct : Direct rendering.outline) (inside : Bindings) :
    rendering.Rowless inside := by
  intro array among
  rcases inside_of_mem_arraysIn direct.rooted among with ⟨inside, kind⟩
  rw [direct.objects _ _ inside.found] at kind
  cases kind

/-- The values of a document with their literals, in the order of its markers. -/
theorem join_slotsIn_substituted
    (accepted : Outline.ofMarkers markers policy = .ok rendering.outline)
    (plain : PlainMarkers markers) (unrepeated : UnrepeatedMarkers markers)
    (emitted : ∀ id, id < rendering.outline.slots.size → rendering.layout.omits id = false ∧
      rendering.layout.host rendering.outline id = none) (unbound : Bindings) (payload : Value) :
    String.join ((rendering.slotsIn none).map
        (rendering.slotText (rendering.bindObjects none (unbound.start payload)))) =
      String.join (rendering.outline.occurrences.toList.map fun occurrence =>
        rendering.layout.leadingAt occurrence ++
          substituted rendering.registry rendering.escape payload occurrence.marker) := by
  have coherent := Outline.coherent_of_ofMarkers accepted
  have registered := Outline.registered_of_ofMarkers accepted
  have all : rendering.slotsIn none = rendering.outline.slots.toList.zipIdx := by
    refine List.filter_eq_self.mpr fun item listed => ?_
    have bound : item.2 < rendering.outline.slots.size := by
      simpa using List.snd_lt_of_mem_zipIdx listed
    rw [(emitted item.2 bound).1, (emitted item.2 bound).2]
    rfl
  rw [all, join_map_slots coherent]
  refine congrArg String.join (List.map_congr_left fun occurrence listed => ?_)
  have sequential := (direct_of_ofMarkers accepted plain unrepeated).sequential registered
    unrepeated
  rcases (sequential.inserts occurrence listed).2.2 with ⟨id, inserts⟩
  rcases exists_slotAt? registered listed inserts with ⟨slot, found, here, itself⟩
  have own := insertedText_eq_substituted accepted plain unrepeated unbound payload found
  rw [itself] at own
  rw [here, Option.map_some, Option.getD_some, slotText, own, Layout.leadingAt, inserts]
  rfl

end Rendering

end Meaning

/-- Rendering a document whose paths have no iterators succeeds if its formatters exist,
and gives the text cut at the offsets of the markers, in the order of the document, with
the text at each cut that its marker stands for. -/
theorem render_is_substitution (source : Source) (settings : Settings) (template : Template)
    (compiled : Template.compile source settings = .ok template)
    (plain : PlainMarkers source.markers) (unrepeated : UnrepeatedMarkers source.markers)
    (data : Value) (registry : Registry) (checked : template.program.check registry = .ok ()) :
    ∃ result, template.render data registry = .ok result ∧
      Text.interleave? source.text.toList 0 ((inDocumentOrder source.markers).map fun marker =>
        (marker.offset, Meaning.substituted registry settings.escape (Meaning.payload data)
          marker)) = some result.toList := by
  rcases Template.compile_eq_ok compiled with ⟨outlined, laidOut, -⟩
  have coherent := Outline.coherent_of_ofMarkers outlined
  have registered := Outline.registered_of_ofMarkers outlined
  have direct := Meaning.direct_of_ofMarkers outlined plain unrepeated
  rcases Layout.interleave?_of_ofText outlined (direct.sequential registered unrepeated) laidOut
    with ⟨emitted, interleaved⟩
  let rendering : Rendering := ⟨template.outline, template.layout, registry, settings.escape⟩
  have run := Template.fragments_eq compiled checked (fun _ => none) data
  refine ⟨Fragment.documentText (rendering.fragments (fun _ => none) data), ?_, ?_⟩
  · rw [Template.render, run]
    rfl
  · rw [Rendering.Rowless.documentText coherent registered (fun _ => none) data
        (Rendering.rowless_of_direct direct _),
      Rendering.join_slotsIn_substituted outlined plain unrepeated emitted]
    have shown := interleaved fun occurrence => Meaning.substituted registry settings.escape
      (Meaning.payload data) occurrence.marker
    rw [← registered.recorded, List.map_map]
    exact shown

/-- A name and the model of one of several cars, both at one offset. -/
def letterSource : Source :=
  ⟨"Dear : !", [⟨7, "d.greeting"⟩, ⟨5, "d.owner.name:ucFirst"⟩, ⟨5, "d.cars[plate='x'].model"⟩]⟩

def letterPayload : Value :=
  .object [("cars", .array [.object [("model", .string "a"), ("plate", .string "y")],
    .object [("model", .string "b"), ("plate", .string "x")]]),
    ("owner", .object [("name", .string "ann")])]

/-- The greeting is absent; what stands at one offset comes in the order given. -/
theorem render_is_substitution_letter :
    ∃ template, Template.compile letterSource {} = .ok template ∧
      PlainMarkers letterSource.markers ∧ UnrepeatedMarkers letterSource.markers ∧
      template.program.check .standard = .ok () ∧
      template.render letterPayload .standard = .ok "Dear Annb: !" := by
  have allowed : ((Template.compile letterSource {}).toOption.bind fun template =>
      (template.program.check .standard).toOption) = some () := by decide +kernel
  rcases Option.bind_eq_some_iff.mp allowed with ⟨template, compiled, checked⟩
  have compiled := eq_ok_of_toOption compiled
  have checked := eq_ok_of_toOption checked
  have plain : PlainMarkers letterSource.markers := by decide +kernel
  have unrepeated : UnrepeatedMarkers letterSource.markers := by decide +kernel
  have cut : Text.interleave? letterSource.text.toList 0
      ((inDocumentOrder letterSource.markers).map fun marker => (marker.offset,
        Meaning.substituted .standard .none (Meaning.payload letterPayload) marker)) =
      some "Dear Annb: !".toList := by decide +kernel
  rcases render_is_substitution letterSource {} template compiled plain unrepeated letterPayload
    .standard checked with ⟨result, rendered, substitution⟩
  have same : result = "Dear Annb: !" :=
    String.toList_injective (Option.some.inj (substitution.symm.trans cut))
  exact ⟨template, compiled, plain, unrepeated, checked, by rw [rendered, same]⟩

end Stencil
