import Stencil.Formatter.Builtin
import Stencil.Proofs.Meaning.Flat
import Stencil.Proofs.Meaning.Surrounded
import Stencil.Proofs.Outline.Origins
import Stencil.Proofs.Program.Refinement

namespace Stencil

open Marker (Step)
open Meaning (Bindings Rendering)
open Outline (Inserts Rooted inDocumentOrder root)
open Program (Member)

/-!
# Rendering without data

Null counts as an empty object, and in an empty object no path finds anything: scopes
are bound to nothing, arrays have no elements, and values are not there.  Only a marker
that names the payload itself has something to insert, the empty object.  All other
markers leave the text around them as it is.
-/

/-! ## Objects inside an empty one -/

/-- What is reached in an empty object, and in nothing, is nothing. -/
def Access.FindsNothing (access : Access) : Prop :=
  access.reach none = none ∧ access.reach (some (.object [])) = none

theorem field?_empty {name : String} (named : name ≠ "") :
    (Value.object []).field? name = none := by
  simp [Value.field?, named]

/-- A search finds nothing, and neither does an attribute with a name. -/
theorem Outline.findsNothing_accessMade {step : Step} (goes : terminates step = false)
    (object : repeats step = false)
    (named : ∀ name, step.footprint.name = some name → name ≠ "") :
    (accessMade step).FindsNothing := by
  match step, goes, object, named with
  | .object name, _, _, named => exact ⟨rfl, field?_empty (named name rfl)⟩
  | .group name true (.search conditions), _, _, named =>
    refine ⟨rfl, ?_⟩
    show (Condition.keep conditions (Value.elements ((Value.object []).field? name))).head? = none
    rw [field?_empty (named name rfl)]
    rfl
  | .group name false (.search conditions), _, _, _ => exact ⟨rfl, rfl⟩

/-- A repetition has no elements there, however its array is reached. -/
theorem Access.elements_reach (access : Access) :
    Value.elements (access.reach none) = [] ∧
      Value.elements (access.reach (some (.object []))) = [] := by
  match access with
  | .field name =>
    refine ⟨rfl, ?_⟩
    show Value.elements ((Value.object []).field? name) = []
    by_cases unnamed : name = ""
    · simp [Value.field?, unnamed, Value.elements]
    · rw [field?_empty unnamed]
      rfl
  | .whole => exact ⟨rfl, rfl⟩
  | .search (some name) conditions =>
    refine ⟨rfl, ?_⟩
    show Value.elements (Condition.keep conditions
      (Value.elements ((Value.object []).field? name))).head? = []
    by_cases unnamed : name = ""
    · simp [Value.field?, unnamed, Value.elements, Condition.keep]
    · rw [field?_empty unnamed]
      rfl
  | .search none conditions => exact ⟨rfl, rfl⟩

/-- The objects of an outline are reached by names or searches. -/
def Outline.Inward (outline : Outline) : Prop :=
  ∀ (id : Nat) scope, outline.scopes[id]? = some scope → id ≠ root → scope.isArray = false →
    scope.access.FindsNothing

theorem Outline.inward_of_ofMarkers {markers : List Marker} {policy : Unterminated}
    {outline : Outline} (accepted : ofMarkers markers policy = .ok outline) :
    outline.Inward := by
  rcases ofMarkers_eq_ok accepted with ⟨growth, grown, rfl⟩
  intro id scope found elsewhere object
  rcases made_of_growth grown id scope found elsewhere with
    ⟨marker, -, read, reading, step, listed, goes, kind, access⟩
  have named := Marker.named_of_readPath (readMarker_eq_ok reading).2
  rw [access]
  exact findsNothing_accessMade goes (kind.symm.trans object)
    fun _ own => named.name_ne_empty listed own

/-! ## Bindings -/

namespace Meaning

/-- Only an empty payload is bound. -/
def withoutData : Bindings := Bindings.start (fun _ => none) (.object [])

theorem withoutData_of_ne {id : ScopeId} (elsewhere : id ≠ root) : withoutData id = none :=
  if_neg elsewhere

theorem withoutData_cases (id : ScopeId) :
    withoutData id = none ∨ withoutData id = some (.object []) := by
  by_cases payload : id = root
  · exact .inr (if_pos payload)
  · exact .inl (withoutData_of_ne payload)

namespace Rendering

variable {rendering : Rendering}

/-- Objects are bound to nothing, which they are anyway. -/
theorem bindObject_withoutData {object : Member} (elsewhere : object.id ≠ root)
    (finds : object.scope.access.FindsNothing) : bindObject withoutData object = withoutData := by
  have reached : object.scope.access.reach (withoutData object.parent) = none := by
    rcases withoutData_cases object.parent with none | payload
    · rw [none]
      exact finds.1
    · rw [payload]
      exact finds.2
  funext id
  unfold bindObject Bindings.bind
  split
  · next same => rw [reached, same, withoutData_of_ne elsewhere]
  · rfl

theorem bindObjects_withoutData (rooted : Rooted rendering.outline)
    (inward : Outline.Inward rendering.outline) (body : Option ScopeId) :
    rendering.bindObjects body withoutData = withoutData := by
  unfold bindObjects
  refine List.foldlRecOn (motive := (· = withoutData)) _ _ rfl fun bindings same object listed => ?_
  rcases mem_objectsIn.mp listed with ⟨found, link, -, kind⟩
  have elsewhere : object.id ≠ root :=
    Nat.ne_of_gt (Nat.lt_of_le_of_lt (Nat.zero_le _) (rooted.parent_lt found link))
  rw [same]
  exact bindObject_withoutData elsewhere (inward _ _ found elsewhere kind)

theorem elementsOf_withoutData (array : Member) : elementsOf array withoutData = [] := by
  have elements := array.scope.access.elements_reach
  unfold elementsOf
  rcases withoutData_cases array.parent with none | payload
  · rw [none, elements.1]
    rfl
  · rw [payload, elements.2]
    rfl

end Rendering

/-! ## Values -/

/-- The fields that formatters can ask an empty payload for. -/
def emptyField (up : Nat) (name : String) : Option Value :=
  if up = 0 then (Value.object []).field? name else none

/-- What a marker inserts without data: nothing, unless it names the payload itself. -/
def insertedWithoutData (registry : Registry) (escape : Escape) (marker : Marker) : String :=
  match Outline.readMarker marker with
  | .ok read =>
    if read.path.namesPayload then
      Program.encode escape (format registry emptyField read.calls (.object [])).text
    else ""
  | .error _ => ""

theorem fieldAbove_withoutData {parentOf : ScopeId → Option ScopeId}
    (orphan : parentOf root = none) : fieldAbove parentOf withoutData root = emptyField := by
  funext up name
  cases up with
  | zero => rfl
  | succ up =>
    unfold fieldAbove above
    rw [orphan]
    rfl

/-- The value of a slot without data. -/
theorem insertedText_withoutData (setting : Setting) (orphan : setting.parentOf root = none)
    {markers : List Marker} {slot : Slot} {read : Outline.ReadMarker}
    (inserts : Inserts markers slot read) :
    insertedText setting withoutData slot.scope slot.field slot.calls =
      insertedWithoutData setting.registry setting.escape ⟨slot.place.offset, slot.path⟩ := by
  have named := Marker.named_of_readPath (Outline.readMarker_eq_ok inserts.reading).2
  unfold insertedWithoutData
  simp only [inserts.reading]
  by_cases payload : slot.scope = root
  · have steps := inserts.atPayload.mp payload
    have found : withoutData slot.scope = some (.object []) := if_pos payload
    unfold insertedText
    rw [found]
    by_cases whole : slot.field = ""
    · have names : read.path.namesPayload = true :=
        named.steps_eq_nil_iff.mp (Prod.ext steps (inserts.field.symm.trans whole))
      have itself : (some (Value.object [])).bind (fun value => value.field? slot.field) =
          some (.object []) := by simp [whole, Value.field?]
      rw [itself, if_pos names, inserts.calls, payload, fieldAbove_withoutData orphan]
    · have names : ¬ read.path.namesPayload = true := fun impossible => whole
        (inserts.field.trans (congrArg Prod.snd (named.steps_eq_nil_iff.mpr impossible)))
      have absent : (some (Value.object [])).bind (fun value => value.field? slot.field) = none :=
        field?_empty whole
      rw [absent, if_neg names]
  · have names : ¬ read.path.namesPayload = true := fun impossible => payload
      (inserts.atPayload.mpr (congrArg Prod.fst (named.steps_eq_nil_iff.mpr impossible)))
    unfold insertedText
    rw [withoutData_of_ne payload, if_neg names]
    rfl

theorem insertedWithoutData_of_not_namesPayload (registry : Registry) (escape : Escape)
    (marker : Marker) (other : ∀ path, Marker.readPath marker.path.toList = .ok path →
      path.namesPayload = false) : insertedWithoutData registry escape marker = "" := by
  unfold insertedWithoutData
  split
  · next read reading => simp [other read.path (Outline.readMarker_eq_ok reading).2]
  · rfl

/-- A marker that ends a repetition does not name the payload. -/
theorem insertedWithoutData_of_terminates (registry : Registry) (escape : Escape)
    (marker : Marker) {path : Marker.Path} (reading : Marker.readPath marker.path.toList = .ok path)
    (ends : path.terminates = true) : insertedWithoutData registry escape marker = "" := by
  refine insertedWithoutData_of_not_namesPayload registry escape marker fun other again => ?_
  rw [reading] at again
  cases again
  by_contra names
  rw [Marker.Path.not_terminates_of_namesPayload (by simpa using names)] at ends
  cases ends

namespace Rendering

/-- Markers with text around them only, rendered without data. -/
theorem slotText_withoutData {outline : Outline} {markers : List Marker} {policy : Unterminated}
    (accepted : Outline.ofMarkers markers policy = .ok outline) (before after : String)
    (registry : Registry) (escape : Escape) {id : Nat} {slot : Slot}
    (found : outline.slots[id]? = some slot) :
    let rendering : Rendering := ⟨outline, Layout.surrounding before after, registry, escape⟩
    (if rendering.layout.host outline id == none then rendering.slotText withoutData (slot, id)
      else "") =
      insertedWithoutData registry escape ⟨slot.place.offset, slot.path⟩ := by
  intro rendering
  have rooted := (Outline.coherent_of_ofMarkers accepted).rooted
  rcases Outline.inserts_of_ofMarkers accepted found with ⟨read, inserts⟩
  have inserted : insertedText rendering.setting withoutData slot.scope slot.field slot.calls =
      insertedWithoutData registry escape ⟨slot.place.offset, slot.path⟩ :=
    insertedText_withoutData rendering.setting (setting_parentOf_root rooted) inserts
  rw [← inserted]
  split
  · exact String.empty_append
  · next hosted =>
    -- A slot inside a repetition is not bound to the payload.
    have elsewhere : slot.scope ≠ root := by
      intro payload
      apply hosted
      have host : rendering.layout.host outline id = outline.dimensionAround? slot.scope := by
        show Option.bind outline.slots[id]? _ = _
        rw [found]
        rfl
      rw [host, payload, Outline.dimensionAround?, Outline.dimensionsAround_root rooted]
      rfl
    unfold insertedText
    rw [withoutData_of_ne elsewhere]
    rfl

/-- The values of all slots, in the order of the markers. -/
theorem join_slotsIn_withoutData {outline : Outline} {markers : List Marker}
    {policy : Unterminated} (accepted : Outline.ofMarkers markers policy = .ok outline)
    (before after : String) (registry : Registry) (escape : Escape) :
    let rendering : Rendering := ⟨outline, Layout.surrounding before after, registry, escape⟩
    String.join ((rendering.slotsIn none).map (rendering.slotText withoutData)) =
      String.join ((inDocumentOrder markers).map (insertedWithoutData registry escape)) := by
  intro rendering
  have coherent := Outline.coherent_of_ofMarkers accepted
  have registered := Outline.registered_of_ofMarkers accepted
  have slots := join_map_slots coherent fun item =>
    if !rendering.layout.omits item.2 && rendering.layout.host outline item.2 == none then
      rendering.slotText withoutData item
    else ""
  rw [slotsIn, join_map_filter]
  show String.join (outline.slots.toList.zipIdx.map _) = _
  rw [slots, ← registered.recorded, List.map_map]
  refine congrArg String.join (List.map_congr_left fun occurrence listed => ?_)
  rcases registered.inserts occurrence listed with ⟨path, reading, silent⟩
  cases inserts : occurrence.slot with
  | none =>
    have nowhere : slotAt? outline occurrence = none := by rw [slotAt?, inserts]; rfl
    rw [nowhere]
    exact (insertedWithoutData_of_terminates registry escape occurrence.marker reading
      (silent.mp inserts)).symm
  | some id =>
    rcases exists_slotAt? registered listed inserts with ⟨slot, found, here, itself⟩
    have own := slotText_withoutData accepted before after registry escape found
    rw [itself] at own
    rw [here]
    exact own

end Rendering

end Meaning

/-- Without data a program compiled from markers shows the text around them, and between it
what the markers insert that name the payload itself.  So if there is none, it shows the
text around them only. -/
theorem render_without_data (markers : List Marker) (before after : String) (settings : Settings)
    (program : Program) (compiled : compileMarkers markers before after settings = .ok program)
    (registry : Registry) (checked : program.check registry = .ok ()) :
    ∃ fragments, program.run .null registry = .ok fragments ∧
      Fragment.documentText fragments =
        before ++ String.join ((inDocumentOrder markers).map
          (Meaning.insertedWithoutData registry settings.escape)) ++ after ∧
      ((∀ marker ∈ markers, ∀ path, Marker.readPath marker.path.toList = .ok path →
          path.namesPayload = false) →
        Fragment.documentText fragments = before ++ after) := by
  rcases compileMarkers_eq_ok compiled with ⟨outline, outlined, programmed⟩
  have coherent := Outline.coherent_of_ofMarkers outlined
  have registered := Outline.registered_of_ofMarkers outlined
  let rendering : Rendering :=
    ⟨outline, Layout.surrounding before after, registry, settings.escape⟩
  have bound : rendering.bindObjects none Meaning.withoutData = Meaning.withoutData :=
    Rendering.bindObjects_withoutData coherent.rooted (Outline.inward_of_ofMarkers outlined) none
  have rowless : rendering.Rowless (rendering.bindObjects none Meaning.withoutData) := by
    intro array _
    rw [bound]
    exact ⟨rfl, Rendering.elementsOf_withoutData array⟩
  have text : Fragment.documentText (rendering.fragments (fun _ => none) .null) =
      before ++ String.join ((inDocumentOrder markers).map
        (Meaning.insertedWithoutData registry settings.escape)) ++ after := by
    rw [rowless.documentText coherent registered (fun _ => none) .null]
    show before ++ String.join ((rendering.slotsIn none).map (rendering.slotText
      (rendering.bindObjects none Meaning.withoutData))) ++ after = _
    rw [bound, Rendering.join_slotsIn_withoutData outlined]
  refine ⟨_, run_surrounded_eq outlined programmed checked (fun _ => none) .null, text, ?_⟩
  intro none
  rw [text]
  have silent : String.join ((inDocumentOrder markers).map
      (Meaning.insertedWithoutData registry settings.escape)) = "" := by
    refine Meaning.join_eq_empty fun shown listed => ?_
    rcases List.mem_map.mp listed with ⟨marker, member, rfl⟩
    refine Meaning.insertedWithoutData_of_not_namesPayload _ _ marker fun path reading => ?_
    exact none marker (Outline.mem_inDocumentOrder.mp member) path reading
  rw [silent, String.append_empty]

/-- An owner and the names of some cars. -/
def ownerMarkers : List Marker :=
  [⟨1, "d.owner"⟩, ⟨2, "d.cars[i].name"⟩, ⟨3, "d.cars[i+1]"⟩]

/-- The same with the payload before and behind them. -/
def plateMarkers : List Marker := [⟨0, "d:print('-')"⟩] ++ ownerMarkers ++ [⟨4, "d"⟩]

/-- The payload is shown, once as a dash and once as it is, and nothing else. -/
theorem render_without_data_plates :
    (∃ program, compileMarkers plateMarkers "<" ">" {} = .ok program ∧
      program.check .standard = .ok () ∧
      ∃ fragments, program.run .null .standard = .ok fragments ∧
        Fragment.documentText fragments = "<-\x7b\x7d>") ∧
      ∃ program, compileMarkers ownerMarkers "<" ">" {} = .ok program ∧
        program.check .standard = .ok () ∧
        (∀ marker ∈ ownerMarkers, ∀ path, Marker.readPath marker.path.toList = .ok path →
          path.namesPayload = false) ∧
        ∃ fragments, program.run .null .standard = .ok fragments ∧
          Fragment.documentText fragments = "<" ++ ">" := by
  constructor
  · have allowed : ((compileMarkers plateMarkers "<" ">" {}).toOption.bind fun program =>
        (program.check .standard).toOption) = some () := by decide +kernel
    rcases Option.bind_eq_some_iff.mp allowed with ⟨program, compiled, checked⟩
    have compiled := eq_ok_of_toOption compiled
    have checked := eq_ok_of_toOption checked
    have shown : "<" ++ String.join ((inDocumentOrder plateMarkers).map
        (Meaning.insertedWithoutData .standard .none)) ++ ">" = "<-\x7b\x7d>" := by decide +kernel
    rcases render_without_data plateMarkers "<" ">" {} program compiled .standard checked with
      ⟨fragments, run, text, -⟩
    exact ⟨program, compiled, checked, fragments, run, text.trans shown⟩
  · have allowed : ((compileMarkers ownerMarkers "<" ">" {}).toOption.bind fun program =>
        (program.check .standard).toOption) = some () := by decide +kernel
    rcases Option.bind_eq_some_iff.mp allowed with ⟨program, compiled, checked⟩
    have compiled := eq_ok_of_toOption compiled
    have checked := eq_ok_of_toOption checked
    have others : ∀ marker ∈ ownerMarkers, ∀ path,
        Marker.readPath marker.path.toList = .ok path → path.namesPayload = false := by
      decide +kernel
    rcases render_without_data ownerMarkers "<" ">" {} program compiled .standard checked with
      ⟨fragments, run, -, alone⟩
    exact ⟨program, compiled, checked, others, fragments, run, alone others⟩

/-- A marker that names the payload itself shows the empty object. -/
theorem payload_shown_without_data : ∃ program fragments,
    compileMarkers [⟨0, "d"⟩] "<" ">" {} = .ok program ∧ program.check .empty = .ok () ∧
    program.run .null .empty = .ok fragments ∧
    Fragment.documentText fragments = "<\x7b\x7d>" ∧
    Fragment.documentText fragments ≠ "<" ++ ">" := by
  have shown : ((compileMarkers [⟨0, "d"⟩] "<" ">" {}).toOption.bind fun program =>
      (program.check .empty).toOption.bind fun _ => (program.run .null .empty).toOption) =
          some [⟨[0], "<"⟩, ⟨[1], "\x7b\x7d"⟩, ⟨[2], ">"⟩] := by decide +kernel
  rcases Option.bind_eq_some_iff.mp shown with ⟨program, compiled, shown⟩
  rcases Option.bind_eq_some_iff.mp shown with ⟨⟨⟩, checked, shown⟩
  have text : Fragment.documentText [⟨[0], "<"⟩, ⟨[1], "\x7b\x7d"⟩, ⟨[2], ">"⟩] =
      "<\x7b\x7d>" := by decide +kernel
  refine ⟨program, _, eq_ok_of_toOption compiled, eq_ok_of_toOption checked,
    eq_ok_of_toOption shown, text, ?_⟩
  rw [text]
  decide

end Stencil
