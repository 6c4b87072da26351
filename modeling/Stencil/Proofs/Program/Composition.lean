import Stencil.Proofs.Meaning.Concatenation
import Stencil.Proofs.Program.Document

namespace Stencil

open Layout (FirstPiece Role cut lastRole leadOf)
open Meaning (Bindings Concatenates Rendering Seated inOrder)
open Meaning.Rendering
open Outline (PlainMarkers PointsApart)

/-!
# Documents one behind the other

A document that consists of two renders as the one and then the other, if no
repetition belongs to both and the second keeps its values.  Objects and searches may
belong to both.
-/

/-- Two documents, one behind the other. -/
def Source.append (first second : Source) : Source where
  text := first.text ++ second.text
  markers := first.markers ++
    second.markers.map (Marker.shift (Text.byteSize first.text.toList))

/-- No repetition is one to which the markers of both ranks come. -/
def Outline.ApartAt (markers : List Marker) (whole : Outline) (left right : Nat) : Prop :=
  ∀ id, Reaches markers left id → Reaches markers right id →
    whole.scopeIs Scope.isArray id = false

instance (markers : List Marker) (whole : Outline) (left right : Nat) :
    Decidable (Outline.ApartAt markers whole left right) :=
  decidable_of_iff (∀ id ∈ Outline.reachedBy markers left,
      id ∈ Outline.reachedBy markers right → whole.scopeIs Scope.isArray id = false) <| by
    simp only [Outline.mem_reachedBy, Outline.ApartAt]

/-- No marker of the first part comes to a repetition to which one of the second comes:
in the order of the document those of the first are in front. -/
def Source.Apart (first second : Source) (whole : Outline) : Prop :=
  ∀ left < first.markers.length, ∀ right < (first.append second).markers.length,
    first.markers.length ≤ right → Outline.ApartAt (first.append second).markers whole left right

instance (first second : Source) (whole : Outline) : Decidable (first.Apart second whole) :=
  inferInstanceAs (Decidable (∀ left < _, ∀ right < _, _ → Outline.ApartAt _ _ left right))

theorem Source.Apart.not_isArray {first second : Source} {whole : Outline}
    (apart : first.Apart second whole) (id : ScopeId) (left right : Nat)
    (comes : Outline.Reaches (first.append second).markers left id)
    (goes : Outline.Reaches (first.append second).markers right id)
    (early : left < first.markers.length) (late : first.markers.length ≤ right) :
    whole.scopeIs Scope.isArray id = false :=
  apart left early right goes.lt_length late id comes goes

/-- The whole drops no value of the second part that is not dropped there. -/
def Template.KeepsValues (first second whole : Template) : Prop :=
  ∀ id, id < second.outline.slots.size → second.layout.omits id = false →
    whole.layout.omits (id + first.outline.slots.size) = false

instance (first second whole : Template) : Decidable (first.KeepsValues second whole) :=
  inferInstanceAs (Decidable (∀ id, id < second.outline.slots.size → _))

/-! ## What a document begins with -/

section

variable {rendering : Rendering} {plan : Layout.Plan} {cs : List Char} {levels : Nat}
  (document : Layout.Document cs rendering.outline plan)

include document

/-- A document without markers has an empty body. -/
theorem expandBody_eq_empty (unmarked : rendering.outline.occurrences = #[]) (outer : Bindings) :
    rendering.expandBody levels none outer [] = "" := by
  cases levels with
  | zero => rfl
  | succ levels =>
    rw [expandBody_eq_ledItems,
      ledItems_eq_nil fun _ => Layout.not_roleOf_of_nil document unmarked]
    rfl

variable {role : Role}
  (piece : ∀ occurrence more, rendering.outline.occurrences.toList = occurrence :: more →
    FirstPiece rendering.outline rendering.layout role occurrence) (text : String)

include piece

/-- Text before the first piece comes before the body, if there are markers. -/
theorem inOrder_ledItems_leadOf (apart : PointsApart rendering.outline) (inside : Bindings) :
    inOrder (rendering.ledItems (leadOf text role) levels inside) =
      if rendering.outline.occurrences.isEmpty then ""
      else text ++ inOrder (rendering.ledItems (fun _ => "") levels inside) := by
  cases split : rendering.outline.occurrences.toList with
  | nil =>
    have unmarked := Array.toList_eq_nil_iff.mp split
    rw [ledItems_eq_nil fun _ => Layout.not_roleOf_of_nil document unmarked, unmarked]
    rfl
  | cons occurrence more =>
    have marked : rendering.outline.occurrences.isEmpty = false := by
      rw [← Array.isEmpty_toList, split]
      rfl
    rcases document.registered with ⟨markers, registered⟩
    rw [marked]
    exact inOrder_ledItems_of_firstPiece document.coherent registered apart
      (piece occurrence more split) text

/-- It comes before no repetition inside another. -/
theorem leadOf_opening {body id : ScopeId} (held : HasArray rendering.outline (some body) id) :
    leadOf text role (.opening id) = "" := by
  cases split : rendering.outline.occurrences.toList with
  | nil =>
    have own : (Role.opening id).Of rendering.outline := held.isArray
    exact absurd own (Layout.not_roleOf_of_nil document (Array.toList_eq_nil_iff.mp split))
  | cons occurrence more =>
    exact leadOf_opening_of_firstPiece (piece occurrence more split) document.coherent.rooted text
      held

/-- Nor does it come before a value inside a repetition. -/
theorem leadOf_leading {body : ScopeId} {item : Slot × SlotId}
    (listed : item ∈ rendering.slotsIn (some body)) : leadOf text role (.leading item.2) = "" := by
  cases split : rendering.outline.occurrences.toList with
  | nil =>
    have own : (Role.leading item.2).Of rendering.outline := lt_size_of_mem_slotsIn listed
    exact absurd own (Layout.not_roleOf_of_nil document (Array.toList_eq_nil_iff.mp split))
  | cons occurrence more =>
    exact leadOf_leading_of_firstPiece (piece occurrence more split) document.coherent.rooted text
      listed

end

namespace Template

variable {source first second : Source} {settings : Settings} {template one two both : Template}

/-- What a template means. -/
def rendering (template : Template) (registry : Registry) (settings : Settings) : Rendering :=
  ⟨template.outline, template.layout, registry, settings.escape⟩

theorem seated_of_compile (compiled : compile source settings = .ok template) :
    Seated template.outline template.layout := by
  rcases compile_eq_ok compiled with ⟨outlined, laidOut, -⟩
  intro id _ _ _
  exact Layout.isBody_host_of_ofText (Outline.coherent_of_ofMarkers outlined) laidOut id

/-- What both documents mean is what the one means and then what the other means. -/
theorem exists_concatenates (compiled : compile first settings = .ok one)
    (otherCompiled : compile second settings = .ok two)
    (bothCompiled : compile (first.append second) settings = .ok both)
    (plain : PlainMarkers first.markers) (otherPlain : PlainMarkers second.markers)
    (apart : first.Apart second both.outline) (kept : KeepsValues one two both)
    (registry : Registry) :
    ∃ move lead, Concatenates move lead (one.rendering registry settings)
        (two.rendering registry settings) (both.rendering registry settings) ∧
      ∀ data, (both.rendering registry settings).expansion (fun _ => none) data =
        (one.rendering registry settings).expansion (fun _ => none) data ++
          (two.rendering registry settings).expansion (fun _ => none) data := by
  rcases compile_eq_ok compiled with ⟨outlined, laid, -⟩
  rcases compile_eq_ok otherCompiled with ⟨otherOutlined, otherLaid, -⟩
  rcases compile_eq_ok bothCompiled with ⟨bothOutlined, bothLaid, -⟩
  rcases Layout.exists_composed outlined otherOutlined bothOutlined laid otherLaid bothLaid plain
    otherPlain apart.not_isArray kept with
    ⟨move, between, role, wholeRole, plan, otherPlan, all, own, their, whole, composed, piece⟩
  have rooted := composed.second.coherent.rooted
  have pointed := Outline.pointed_of_ofMarkers otherOutlined otherPlain
  let left := cut plan first.text.toList (lastRole one.outline)
  have firstLaid := composed.laid_first
  have secondLaid := composed.laid_second
  rw [← own, ← whole] at firstLaid
  rw [← their, ← whole] at secondLaid
  have joined : Concatenates move (leadOf left role) (one.rendering registry settings)
      (two.rendering registry settings) (both.rendering registry settings) :=
    { joins := composed.joins
      laid := firstLaid
      otherLaid := secondLaid
      coherent := composed.first.coherent
      otherCoherent := composed.second.coherent
      rooted := composed.whole.coherent.rooted
      pointed := Outline.pointed_of_ofMarkers outlined plain
      otherRegistered := composed.second.registered
      seated := seated_of_compile compiled
      otherSeated := seated_of_compile otherCompiled
      registry := ⟨rfl, rfl⟩
      escape := ⟨rfl, rfl⟩
      inner := fun _ _ held => leadOf_opening composed.second piece left held
      innerSlots := fun _ _ listed => leadOf_leading composed.second piece left listed }
  refine ⟨move, _, joined, fun data => ?_⟩
  let start := Bindings.start (fun _ => none) (Meaning.payload data)
  rcases Nat.exists_eq_add_one.mpr (Outline.size_pos rooted) with ⟨levels, size⟩
  have body := joined.expandBody_whole (Meaning.payload data) size
  rw [inOrder_ledItems_leadOf composed.second piece left (pointed.pointsApart rooted),
    ← expandBody_eq_ledItems, ← size] at body
  have surround := composed.surround
    ((one.rendering registry settings).expandBody one.outline.scopes.size none start [])
    ((two.rendering registry settings).expandBody two.outline.scopes.size none start [])
    (fun unmarked => expandBody_eq_empty composed.first unmarked start)
    (fun unmarked => expandBody_eq_empty composed.second unmarked start)
  rw [← own, ← their, ← whole] at surround
  unfold expansion
  rw [body]
  exact surround

/-- The formatters of both documents are those of the one and those of the other. -/
theorem check_append (compiled : compile first settings = .ok one)
    (otherCompiled : compile second settings = .ok two)
    (bothCompiled : compile (first.append second) settings = .ok both) {registry : Registry}
    {move : Relocation} {lead : Role → String} (joined : Concatenates move lead
      (one.rendering registry settings) (two.rendering registry settings)
      (both.rendering registry settings))
    (checked : one.program.check registry = .ok ())
    (otherChecked : two.program.check registry = .ok ()) :
    both.program.check registry = .ok () := by
  rw [(Program.compile_eq_ok (compile_eq_ok compiled).2.2).check_eq_ok] at checked
  rw [(Program.compile_eq_ok (compile_eq_ok otherCompiled).2.2).check_eq_ok] at otherChecked
  rw [(Program.compile_eq_ok (compile_eq_ok bothCompiled).2.2).check_eq_ok]
  intro item listed
  rcases List.mem_filter.mp listed with ⟨numbered, kept⟩
  have seen : item ∈ (both.rendering registry settings).slotsIn
      (both.layout.host both.outline item.2) :=
    List.mem_filter.mpr ⟨numbered, Bool.and_eq_true_iff.mpr ⟨kept, beq_self_eq_true _⟩⟩
  rw [joined.slotsIn_whole] at seen
  rcases List.mem_append.mp seen with own | theirs
  · rcases List.mem_filter.mp own with ⟨ownNumbered, keeps⟩
    exact checked item (List.mem_filter.mpr ⟨ownNumbered, (Bool.and_eq_true_iff.mp keeps).1⟩)
  · rcases List.mem_map.mp theirs with ⟨origin, among, rfl⟩
    rcases List.mem_filter.mp among with ⟨ownNumbered, keeps⟩
    exact otherChecked origin
      (List.mem_filter.mpr ⟨ownNumbered, (Bool.and_eq_true_iff.mp keeps).1⟩)

/-- Templates compose: both documents render as the one and then the other. -/
theorem render_append (compiled : compile first settings = .ok one)
    (otherCompiled : compile second settings = .ok two)
    (bothCompiled : compile (first.append second) settings = .ok both)
    (plain : PlainMarkers first.markers) (otherPlain : PlainMarkers second.markers)
    (apart : first.Apart second both.outline) (kept : KeepsValues one two both) (data : Value)
    {registry : Registry} (checked : one.program.check registry = .ok ())
    (otherChecked : two.program.check registry = .ok ()) :
    ∃ text otherText, one.render data registry = .ok text ∧
      two.render data registry = .ok otherText ∧
      both.render data registry = .ok (text ++ otherText) := by
  rcases exists_concatenates compiled otherCompiled bothCompiled plain otherPlain apart kept
    registry with ⟨move, lead, joined, expands⟩
  have bothChecked := check_append compiled otherCompiled bothCompiled joined checked otherChecked
  have bothPlain : PlainMarkers (first.append second).markers :=
    List.forall_mem_append.mpr ⟨plain, otherPlain.map_shift _⟩
  have renders : ∀ {source : Source} {template : Template},
      compile source settings = .ok template → PlainMarkers source.markers →
      template.program.check registry = .ok () → template.render data registry =
        .ok ((template.rendering registry settings).expansion (fun _ => none) data) := by
    intro source template compiled plain checked
    unfold render
    rw [fragments_eq compiled checked (fun _ => none) data]
    exact congrArg Except.ok
      (documentText_eq_expansion (compile_eq_ok compiled).1 plain _ _ _ _ _)
  refine ⟨_, _, renders compiled plain checked, renders otherCompiled otherPlain otherChecked, ?_⟩
  rw [← expands]
  exact renders bothCompiled bothPlain bothChecked

/-- Who goes to which places, and something behind that. -/
def journeySource : Source :=
  ⟨"by  to , . ", [⟨3, "d.me.name"⟩, ⟨7, "d.trips[i].place"⟩, ⟨9, "d.trips[i+1]"⟩]⟩

/-- Which cars the same person has at home. -/
def homeSource : Source :=
  ⟨"home of : ; ", [⟨8, "d.me.name"⟩, ⟨10, "d.cars[i].name"⟩, ⟨12, "d.cars[i+1]"⟩]⟩

def journeyPayload : Value :=
  .object [("me", .object [("name", .string "ann")]),
    ("trips", .array [.object [("place", .string "x")], .object [("place", .string "y")]]),
    ("cars", .array [.object [("name", .string "a")], .object [("name", .string "b")]])]

/-- Both read the name of one person, and no trip is a car. -/
theorem render_append_journey : ∃ one two both text otherText,
    compile journeySource {} = .ok one ∧ compile homeSource {} = .ok two ∧
      compile (journeySource.append homeSource) {} = .ok both ∧
      one.render journeyPayload .empty = .ok text ∧
      two.render journeyPayload .empty = .ok otherText ∧
      both.render journeyPayload .empty = .ok (text ++ otherText) := by
  obtain ⟨one, compiled⟩ := exists_of_isOk
    (by decide +kernel : (compile journeySource {}).isOk = true)
  obtain ⟨two, otherCompiled⟩ := exists_of_isOk
    (by decide +kernel : (compile homeSource {}).isOk = true)
  obtain ⟨both, bothCompiled⟩ := exists_of_isOk
    (by decide +kernel : (compile (journeySource.append homeSource) {}).isOk = true)
  have suits : ((compile journeySource {}).toOption.all fun one =>
      (compile homeSource {}).toOption.all fun two =>
        (compile (journeySource.append homeSource) {}).toOption.all fun both =>
          decide (journeySource.Apart homeSource both.outline ∧ one.KeepsValues two both) &&
            ((one.program.check .empty).isOk && (two.program.check .empty).isOk)) = true := by
    decide +kernel
  rw [compiled, otherCompiled, bothCompiled] at suits
  obtain ⟨⟨apart, kept⟩, checked, otherChecked⟩ := by
    simpa only [Except.toOption, Option.all_some, Bool.and_eq_true, decide_eq_true_eq] using suits
  obtain ⟨⟨⟩, checked⟩ := exists_of_isOk checked
  obtain ⟨⟨⟩, otherChecked⟩ := exists_of_isOk otherChecked
  obtain ⟨text, otherText, renders⟩ := render_append compiled otherCompiled bothCompiled
    (by decide +kernel) (by decide +kernel) apart kept journeyPayload checked otherChecked
  exact ⟨one, two, both, text, otherText, compiled, otherCompiled, bothCompiled, renders⟩

end Template

end Stencil
