import Stencil.Proofs.Layout.Composed
import Stencil.Proofs.Meaning.Assembly
import Stencil.Proofs.Meaning.Parts
import Stencil.Proofs.Outline.Beginning

namespace Stencil.Meaning

open Layout (FirstPiece Role rolesOf leadOf)
open Outline (Coherent PointsApart Registered Rooted)
open Program (Member)

/-!
# The first item of a document

The first item of the body of a document is what its first marker begins with: the text
that opens the outermost dimension it mentions, or the value it inserts.  So text before
that item is text before the document.
-/

theorem inOrder_cons_of_least {front back : List Item} {point : Nat} {text : String}
    (behind : ∀ item ∈ front, point < item.point) (least : ∀ item ∈ back, point ≤ item.point) :
    inOrder (front ++ ⟨point, text⟩ :: back) = text ++ inOrder (front ++ back) := by
  unfold inOrder
  rw [orderBy_append_cons]
  · rw [List.map_cons, String.join_cons]
  · intro item member
    have later := behind item member
    simpa [keyAtMost] using later
  · intro item member
    simpa [keyAtMost] using least item member

variable {outline : Outline} {markers : List Marker} {occurrence : Occurrence}

/-! ## Points begin with one -/

theorem one_le_opened (registered : Registered markers outline) {id : Nat} {scope : Scope}
    (found : outline.scopes[id]? = some scope) (array : scope.isArray = true) :
    1 ≤ scope.opened.point := by
  rcases registered.exists_opened found array with ⟨index, occurrence, -, -, opened⟩
  rw [opened]
  exact Nat.succ_le_succ (Nat.zero_le _)

theorem one_le_placed (coherent : Coherent outline) (registered : Registered markers outline)
    {id : Nat} {slot : Slot} (found : outline.slots[id]? = some slot) : 1 ≤ slot.place.point := by
  rcases registered.exists_placed coherent found with ⟨index, occurrence, -, -, place⟩
  rw [place]
  exact Nat.succ_le_succ (Nat.zero_le _)

namespace Rendering

variable {rendering : Rendering} {levels : Nat} {inside : Bindings}

/-- The items of the body of a document, with text before some of them. -/
def ledItems (rendering : Rendering) (lead : Role → String) (levels : Nat) (inside : Bindings) :
    List Item :=
  ((rendering.arraysIn none).map fun array =>
      ⟨array.scope.opened.point, lead (.opening array.id) ++ rendering.openingOf array⟩) ++
    ((rendering.slotsIn none).map fun item =>
      ⟨item.1.place.point, lead (.leading item.2) ++ rendering.slotText inside item⟩) ++
    (rendering.arraysIn none).map (rendering.arrayItem levels inside)

theorem expandBody_eq_ledItems (rendering : Rendering) (levels : Nat) (outer : Bindings) :
    rendering.expandBody (levels + 1) none outer [] =
      inOrder (rendering.ledItems (fun _ => "") levels (rendering.bindObjects none outer)) := by
  rw [expandBody_succ]
  simp only [ledItems, openingItems, valueItems, String.empty_append, List.append_nil]

theorem getElem?_of_mem_slotsIn {body : Option ScopeId} {item : Slot × SlotId}
    (listed : item ∈ rendering.slotsIn body) : rendering.outline.slots[item.2]? = some item.1 := by
  have numbered := List.mk_mem_zipIdx_iff_getElem?.mp (List.mem_filter.mp listed).1
  simpa using numbered

theorem lt_size_of_mem_slotsIn {body : Option ScopeId} {item : Slot × SlotId}
    (listed : item ∈ rendering.slotsIn body) : item.2 < rendering.outline.slots.size :=
  (Array.getElem?_eq_some_iff.mp (getElem?_of_mem_slotsIn listed)).1

/-- A document without repetitions and values has an empty body. -/
theorem ledItems_eq_nil (empty : ∀ role : Role, ¬ role.Of rendering.outline)
    (lead : Role → String) (levels : Nat) (inside : Bindings) :
    rendering.ledItems lead levels inside = [] := by
  have arrays : rendering.arraysIn none = [] := by
    refine List.eq_nil_iff_forall_not_mem.mpr fun array listed => ?_
    exact empty (.opening array.id) (mem_ids_arraysIn.mp (List.mem_map_of_mem listed)).isArray
  have slots : rendering.slotsIn none = [] := by
    refine List.eq_nil_iff_forall_not_mem.mpr fun item listed => ?_
    exact empty (.leading item.2) (lt_size_of_mem_slotsIn listed)
  unfold ledItems
  rw [arrays, slots]
  rfl

/-- A dimension that lies in no other belongs to the body of the document. -/
theorem hasArray_none_of_dimensionsAround {outline : Outline} (rooted : Rooted outline)
    {id : ScopeId} {scope : Scope} (found : outline.scopes[id]? = some scope)
    (around : outline.dimensionsAround id = [id]) : HasArray outline none id := by
  have member : id ∈ outline.dimensionsAround id := by
    rw [around]
    exact .head _
  have array : scope.isArray = true :=
    (Outline.scopeIs_eq found).symm.trans (Outline.mem_dimensionsAround_iff.mp member).2
  have elsewhere : id ≠ Outline.root := by
    rintro rfl
    rw [Outline.dimensionsAround_root rooted] at around
    cases around
  rcases rooted.inside id scope found elsewhere with ⟨parent, link, -, -⟩
  rw [Outline.dimensionsAround_inside rooted found link, array] at around
  have outside : outline.dimensionsAround parent = [] := by
    have same : outline.dimensionsAround parent ++ [id] = [] ++ [id] := around
    exact List.append_cancel_right same
  refine ⟨scope, parent, found, array, link, ?_⟩
  unfold Outline.dimensionAround?
  rw [outside]
  rfl

/-- The points of the items of a document are those of its repetitions and values. -/
theorem point_of_mem_ledItems (holds : Nat → Prop) (lead : Role → String)
    (rooted : Rooted rendering.outline)
    (opened : ∀ (id : Nat) scope, rendering.outline.scopes[id]? = some scope →
      scope.isArray = true → holds scope.opened.point)
    (placed : ∀ (id : Nat) slot, rendering.outline.slots[id]? = some slot →
      holds slot.place.point) :
    ∀ item ∈ rendering.ledItems lead levels inside, holds item.point := by
  have arrays : ∀ array ∈ rendering.arraysIn none, holds array.scope.opened.point := by
    intro array listed
    rcases inside_of_mem_arraysIn rooted listed with ⟨inside, kind⟩
    exact opened array.id array.scope inside.found kind
  intro item listed
  rcases List.mem_append.mp listed with early | repeated
  · rcases List.mem_append.mp early with opening | value
    · rcases List.mem_map.mp opening with ⟨array, member, rfl⟩
      exact arrays array member
    · rcases List.mem_map.mp value with ⟨slot, member, rfl⟩
      exact placed slot.2 slot.1 (getElem?_of_mem_slotsIn member)
  · rcases List.mem_map.mp repeated with ⟨array, member, rfl⟩
    exact arrays array member

theorem leadOf_of_ne (text : String) {role other : Role} (differs : other ≠ role) :
    leadOf text role other = "" := if_neg differs

/-- What is before the one item with the first point of all is before the document. -/
theorem inOrder_ledItems_of_split (coherent : Coherent rendering.outline)
    (registered : Registered markers rendering.outline) {role : Role} {shown : String}
    {front back : List Item} (elsewhere : ∀ item ∈ front, item.point ≠ 1)
    (split : ∀ lead : Role → String, (∀ other, other ≠ role → lead other = "") →
      rendering.ledItems lead levels inside = front ++ ⟨1, lead role ++ shown⟩ :: back)
    (text : String) :
    inOrder (rendering.ledItems (leadOf text role) levels inside) =
      text ++ inOrder (rendering.ledItems (fun _ => "") levels inside) := by
  have points : ∀ item ∈ rendering.ledItems (fun _ => "") levels inside, 1 ≤ item.point :=
    point_of_mem_ledItems (1 ≤ ·) (fun _ => "") coherent.rooted
      (fun _ _ found => one_le_opened registered found)
      (fun _ _ found => one_le_placed coherent registered found)
  rw [split (fun _ => "") fun _ _ => rfl] at points ⊢
  rw [split _ fun other differs => leadOf_of_ne text differs, leadOf, if_pos rfl]
  have behind : ∀ item ∈ front, 1 < item.point := fun item listed =>
    Nat.lt_of_le_of_ne (points item (List.mem_append_left _ listed))
      (Ne.symm (elsewhere item listed))
  have after : ∀ item ∈ back, 1 ≤ item.point := fun item listed =>
    points item (List.mem_append_right _ (.tail _ listed))
  rw [inOrder_cons_of_least behind after, inOrder_cons_of_least behind after,
    String.empty_append, String.append_assoc]

/-- Text before the first repetition of all is text before the document. -/
theorem inOrder_ledItems_opening (coherent : Coherent rendering.outline)
    (registered : Registered markers rendering.outline) (apart : PointsApart rendering.outline)
    {id : ScopeId} {scope : Scope} (found : rendering.outline.scopes[id]? = some scope)
    (point : scope.opened.point = 1) (top : HasArray rendering.outline none id) (text : String) :
    inOrder (rendering.ledItems (leadOf text (.opening id)) levels inside) =
      text ++ inOrder (rendering.ledItems (fun _ => "") levels inside) := by
  have rooted := coherent.rooted
  rcases List.mem_map.mp (mem_ids_arraysIn.mpr top) with ⟨array, listed, rfl⟩
  rcases inside_of_mem_arraysIn rooted listed with ⟨arrayInside, -⟩
  have own : array.scope = scope := Option.some.inj (arrayInside.found.symm.trans found)
  rcases List.append_of_mem listed with ⟨front, back, split⟩
  have points := pairwise_arraysIn rooted apart none
  have ids := pairwise_ids_arraysIn rendering none
  rw [split, List.pairwise_append] at points
  rw [List.pairwise_map, split, List.pairwise_append, List.pairwise_cons] at ids
  let opening (other : Member) : Item := ⟨other.scope.opened.point, rendering.openingOf other⟩
  have differs : ∀ item ∈ front.map opening, item.point ≠ 1 := by
    intro item member
    rcases List.mem_map.mp member with ⟨other, among, rfl⟩
    have apart := points.2.2 other among array (.head _)
    rw [own, point] at apart
    exact apart
  let values : List Item := (rendering.slotsIn none).map fun item =>
    ⟨item.1.place.point, rendering.slotText inside item⟩
  have led : ∀ lead : Role → String, (∀ other, other ≠ .opening array.id → lead other = "") →
      rendering.ledItems lead levels inside = front.map opening ++
        ⟨1, lead (.opening array.id) ++ rendering.openingOf array⟩ :: (back.map opening ++
          (values ++ (rendering.arraysIn none).map (rendering.arrayItem levels inside))) := by
    intro lead elsewhere
    have others : ∀ other ∈ front ++ back, (⟨other.scope.opened.point,
        lead (.opening other.id) ++ rendering.openingOf other⟩ : Item) = opening other := by
      intro other among
      have differs : Role.opening other.id ≠ .opening array.id := by
        intro same
        have number := Role.opening.inj same
        rcases List.mem_append.mp among with early | late
        · exact Nat.ne_of_lt (ids.2.2 other early array (.head _)) number
        · exact Nat.ne_of_gt (ids.2.1.1 other late) number
      rw [elsewhere _ differs, String.empty_append]
    have slots : ((rendering.slotsIn none).map fun item => (⟨item.1.place.point,
        lead (.leading item.2) ++ rendering.slotText inside item⟩ : Item)) = values := by
      refine List.map_congr_left fun item _ => ?_
      rw [elsewhere _ Role.noConfusion, String.empty_append]
    unfold ledItems
    rw [slots, split, List.map_append, List.map_cons, own, point,
      List.map_congr_left fun other among => others other (List.mem_append_left _ among),
      List.map_congr_left fun other among => others other (List.mem_append_right _ among),
      ← split, List.append_assoc, List.append_assoc, List.cons_append]
  exact inOrder_ledItems_of_split coherent registered differs led text

/-- So is text before a value before which there is no repetition. -/
theorem inOrder_ledItems_leading (coherent : Coherent rendering.outline)
    (registered : Registered markers rendering.outline) {slot : Slot} {more : List (Slot × SlotId)}
    (slots : rendering.slotsIn none = (slot, 0) :: more) (point : slot.place.point = 1)
    (others : ∀ item ∈ more, item.2 ≠ 0)
    (later : ∀ (id : Nat) scope, rendering.outline.scopes[id]? = some scope →
      scope.isArray = true → 1 < scope.opened.point) (text : String) :
    inOrder (rendering.ledItems (leadOf text (.leading 0)) levels inside) =
      text ++ inOrder (rendering.ledItems (fun _ => "") levels inside) := by
  let openings : List Item := (rendering.arraysIn none).map fun array =>
    ⟨array.scope.opened.point, rendering.openingOf array⟩
  have differs : ∀ item ∈ openings, item.point ≠ 1 := by
    intro item member
    rcases List.mem_map.mp member with ⟨array, among, rfl⟩
    rcases inside_of_mem_arraysIn coherent.rooted among with ⟨inside, kind⟩
    exact Nat.ne_of_gt (later array.id array.scope inside.found kind)
  have led : ∀ lead : Role → String, (∀ other, other ≠ .leading 0 → lead other = "") →
      rendering.ledItems lead levels inside = openings ++
        ⟨1, lead (.leading 0) ++ rendering.slotText inside (slot, 0)⟩ ::
          ((more.map fun item => ⟨item.1.place.point, rendering.slotText inside item⟩) ++
            (rendering.arraysIn none).map (rendering.arrayItem levels inside)) := by
    intro lead elsewhere
    have opened : ((rendering.arraysIn none).map fun array => (⟨array.scope.opened.point,
        lead (.opening array.id) ++ rendering.openingOf array⟩ : Item)) = openings := by
      refine List.map_congr_left fun array _ => ?_
      rw [elsewhere _ Role.noConfusion, String.empty_append]
    have values : (more.map fun item => (⟨item.1.place.point,
        lead (.leading item.2) ++ rendering.slotText inside item⟩ : Item)) =
        more.map fun item => ⟨item.1.place.point, rendering.slotText inside item⟩ := by
      refine List.map_congr_left fun item among => ?_
      rw [elsewhere _ fun same => others item among (Role.leading.inj same), String.empty_append]
    unfold ledItems
    rw [opened, slots, List.map_cons, values, point, List.append_assoc, List.cons_append]
  exact inOrder_ledItems_of_split coherent registered differs led text

/-- The value of slot number zero is the first that is emitted from the body it belongs
to. -/
theorem slotsIn_eq_cons {body : Option ScopeId} {slot : Slot}
    (found : rendering.outline.slots[0]? = some slot) (kept : rendering.layout.omits 0 = false)
    (host : rendering.layout.host rendering.outline 0 = body) :
    ∃ more, rendering.slotsIn body = (slot, 0) :: more ∧ ∀ item ∈ more, item.2 ≠ 0 := by
  unfold slotsIn
  cases slots : rendering.outline.slots.toList with
  | nil =>
    have none : rendering.outline.slots = #[] := Array.toList_eq_nil_iff.mp slots
    rw [none] at found
    cases found
  | cons first rest =>
    have same : first = slot := by
      rw [← Array.getElem?_toList, slots] at found
      exact Option.some.inj found
    rw [List.zipIdx_cons, List.filter_cons_of_pos (by simp [kept, host]), same]
    refine ⟨_, rfl, fun item listed => ?_⟩
    have numbered := List.le_snd_of_mem_zipIdx (List.mem_filter.mp listed).1
    exact Nat.ne_of_gt numbered

/-- The first piece of a document opens a repetition of its body, or is before a value of
its body before which there is no repetition. -/
theorem cases_of_firstPiece {outline : Outline} {layout : Layout} {role : Role}
    (rooted : Rooted outline) (piece : FirstPiece outline layout role occurrence) :
    (∃ id scope, role = .opening id ∧ outline.scopes[id]? = some scope ∧
        scope.opened.point = 1 ∧ HasArray outline none id) ∨
      ∃ slot, role = .leading 0 ∧ outline.slots[0]? = some slot ∧ slot.place.point = 1 ∧
        layout.host outline 0 = none ∧ ∀ (id : Nat) scope, outline.scopes[id]? = some scope →
          scope.isArray = true → 1 < scope.opened.point := by
  have head := piece.head
  cases opens : occurrence.opens with
  | cons id more =>
    have opening : role = .opening id := by
      simp [rolesOf, piece.ends, opens] at head
      exact head.symm
    rcases piece.begins.opens id more opens with ⟨around, scope, found, point⟩
    exact .inl ⟨id, scope, opening, found, point,
      hasArray_none_of_dimensionsAround rooted found around⟩
  | nil =>
    have leading : role = .leading 0 := by
      simp [rolesOf, piece.ends, opens, piece.begins.slot] at head
      exact head.symm
    rcases piece.begins.placed with ⟨slot, found, point, -⟩
    exact .inr ⟨slot, leading, found, point, piece.host opens, piece.begins.later opens⟩

section

variable {role : Role} (piece : FirstPiece rendering.outline rendering.layout role occurrence)
  (rooted : Rooted rendering.outline) (text : String) {body : ScopeId}

include piece rooted

/-- Repetitions inside others do not open the document. -/
theorem leadOf_opening_of_firstPiece {id : ScopeId}
    (held : HasArray rendering.outline (some body) id) : leadOf text role (.opening id) = "" := by
  apply leadOf_of_ne
  rintro rfl
  rcases cases_of_firstPiece rooted piece with ⟨other, _, same, _, _, top⟩ | ⟨_, impossible, _⟩
  · cases same
    cases held.unique top
  · cases impossible

/-- Nor do values inside repetitions. -/
theorem leadOf_leading_of_firstPiece {item : Slot × SlotId}
    (listed : item ∈ rendering.slotsIn (some body)) : leadOf text role (.leading item.2) = "" := by
  apply leadOf_of_ne
  rintro rfl
  rcases cases_of_firstPiece rooted piece with ⟨_, _, impossible, _⟩ | ⟨_, same, _, _, host, _⟩
  · cases impossible
  · have seated := (List.mem_filter.mp listed).2
    simp [Role.leading.inj same, host] at seated

end

/-- Text before the first piece of a document is text before the document. -/
theorem inOrder_ledItems_of_firstPiece (coherent : Coherent rendering.outline)
    (registered : Registered markers rendering.outline) (apart : PointsApart rendering.outline)
    {role : Role} (piece : FirstPiece rendering.outline rendering.layout role occurrence)
    (text : String) :
    inOrder (rendering.ledItems (leadOf text role) levels inside) =
      text ++ inOrder (rendering.ledItems (fun _ => "") levels inside) := by
  rcases cases_of_firstPiece coherent.rooted piece with
    ⟨id, scope, rfl, found, point, top⟩ | ⟨slot, rfl, found, point, host, later⟩
  · exact inOrder_ledItems_opening coherent registered apart found point top text
  · rcases slotsIn_eq_cons found piece.kept host with ⟨more, slots, others⟩
    exact inOrder_ledItems_leading coherent registered slots point others later text

end Rendering

end Stencil.Meaning
