import Stencil.Proofs.Meaning.Distinct

namespace Stencil.Meaning

open Outline (Coherent Registered Rooted)
open Program (Member)

/-!
# Documents without rows

Where no repetition has elements, all that is emitted are the values of the document's
own body.  They stand in the order of the markers, so the document is the text before
it, the values with their literals, and the text after it.
-/

/-! ## Slots and markers -/

section

variable {outline : Outline} {markers : List Marker}

/-- The slot of an occurrence with its number. -/
def slotAt? (outline : Outline) (occurrence : Occurrence) : Option (Slot × SlotId) :=
  occurrence.slot.bind fun id => outline.slots[id]?.map (·, id)

theorem zipIdx_eq_filterMap {α : Type} (items : List α) :
    items.zipIdx = (List.range items.length).filterMap fun id => items[id]?.map (·, id) := by
  induction items using List.reverseRecOn with
  | nil => rfl
  | append_singleton items last ih =>
    rw [List.zipIdx_append, List.length_append, List.length_singleton, List.range_succ,
      List.filterMap_append, ih]
    congr 1
    · refine List.filterMap_congr fun id member => ?_
      rw [List.getElem?_append_left (List.mem_range.mp member)]
    · simp

/-- The slots of an outline are those of its occurrences. -/
theorem zipIdx_slots (coherent : Coherent outline) :
    outline.slots.toList.zipIdx = outline.occurrences.toList.filterMap (slotAt? outline) := by
  have numbered := zipIdx_eq_filterMap outline.slots.toList
  rw [Array.length_toList, ← coherent.listed, List.filterMap_filterMap] at numbered
  rw [numbered]
  refine List.filterMap_congr fun occurrence _ => ?_
  unfold slotAt?
  simp only [Array.getElem?_toList]

/-- An occurrence that left a slot behind has it, with the path of its own marker. -/
theorem exists_slotAt? (registered : Registered markers outline) {occurrence : Occurrence}
    (listed : occurrence ∈ outline.occurrences.toList) {id : SlotId}
    (inserts : occurrence.slot = some id) :
    ∃ slot, outline.slots[id]? = some slot ∧ slotAt? outline occurrence = some (slot, id) ∧
      (⟨slot.place.offset, slot.path⟩ : Marker) = occurrence.marker := by
  rcases List.getElem?_of_mem listed with ⟨index, marks⟩
  rw [Array.getElem?_toList] at marks
  rcases registered.placed index occurrence id marks inserts with ⟨slot, found, place, path⟩
  refine ⟨slot, found, ?_, ?_⟩
  · rw [slotAt?, inserts, Option.bind_some, found]
    rfl
  · rw [place, path]
    rfl

/-- Slots stand in the order of their numbers. -/
theorem placed_lt (coherent : Coherent outline) (registered : Registered markers outline)
    {id other : Nat} {slot otherSlot : Slot} (found : outline.slots[id]? = some slot)
    (otherFound : outline.slots[other]? = some otherSlot) (less : id < other) :
    slot.place.point < otherSlot.place.point := by
  rcases registered.exists_placed coherent found with ⟨index, occurrence, marks, inserts, place⟩
  rcases registered.exists_placed coherent otherFound with
    ⟨otherIndex, otherOccurrence, otherMarks, otherInserts, otherPlace⟩
  rw [place, otherPlace]
  refine Nat.succ_lt_succ (Nat.lt_of_not_le fun behind => ?_)
  rcases Nat.lt_or_eq_of_le behind with before | same
  · have rising : (outline.occurrences.toList.filterMap Occurrence.slot).Pairwise (· < ·) := by
      rw [coherent.listed]
      exact List.pairwise_lt_range
    rw [List.pairwise_filterMap, List.pairwise_iff_getElem] at rising
    rcases Array.getElem?_eq_some_iff.mp marks with ⟨bound, itself⟩
    rcases Array.getElem?_eq_some_iff.mp otherMarks with ⟨otherBound, otherItself⟩
    have turned := rising otherIndex index (by simpa using otherBound) (by simpa using bound) before
      other (by simpa [otherItself] using otherInserts) id (by simpa [itself] using inserts)
    exact Nat.lt_asymm less turned
  · subst same
    rw [marks] at otherMarks
    cases otherMarks
    rw [inserts] at otherInserts
    cases otherInserts
    exact Nat.lt_irrefl _ less

end

/-! ## Texts -/

theorem join_eq_empty {texts : List String} (empty : ∀ text ∈ texts, text = "") :
    String.join texts = "" := by
  induction texts with
  | nil => rfl
  | cons text rest ih =>
    rw [String.join_cons, empty text (.head _), ih fun other member => empty other (.tail _ member),
      String.empty_append]

theorem join_map_filter {α : Type} (items : List α) (fits : α → Bool) (text : α → String) :
    String.join ((items.filter fits).map text) =
      String.join (items.map fun item => if fits item then text item else "") := by
  induction items with
  | nil => rfl
  | cons item rest ih =>
    rw [List.map_cons, String.join_cons, ← ih, List.filter_cons]
    split
    · rw [List.map_cons, String.join_cons]
    · rw [String.empty_append]

/-- Side by side in a body the points decide the order. -/
theorem atMost_of_positions {here : Position} {point other : Nat} {a b : Fragment}
    (first : a.position = here ++ [point]) (second : b.position = here ++ [other])
    (before : point ≤ other) : a.atMost b = true := by
  rw [Fragment.atMost, first, second, atMost_of_points (.inl rfl), decide_eq_true before]

theorem documentText_of_rising {here : Position} {items : List Item}
    (rising : items.Pairwise fun left right => left.point < right.point) :
    Fragment.documentText (items.map (Item.fragment here)) =
      String.join (items.map Item.text) := by
  induction items with
  | nil => rfl
  | cons item rest ih =>
    rcases List.pairwise_cons.mp rising with ⟨first, later⟩
    have split : (item :: rest).map (Item.fragment here) =
        [item.fragment here] ++ rest.map (Item.fragment here) := rfl
    rw [split, Fragment.documentText_append, Fragment.documentText_singleton, ih later,
      List.map_cons, String.join_cons]
    · rfl
    · intro a own b behind
      rw [List.mem_singleton.mp own]
      rcases List.mem_map.mp behind with ⟨other, member, rfl⟩
      exact atMost_of_positions rfl rfl (Nat.le_of_lt (first other member))

namespace Rendering

variable {rendering : Rendering} {markers : List Marker}

/-- The values of a body stand in the order of the document. -/
theorem rising_valueItems (coherent : Coherent rendering.outline)
    (registered : Registered markers rendering.outline) (body : Option ScopeId)
    (inside : Bindings) : (rendering.valueItems body inside).Pairwise
      fun left right => left.point < right.point := by
  have numbered : (rendering.slotsIn body).Pairwise fun left right => left.2 < right.2 := by
    apply List.Pairwise.filter
    rw [← List.pairwise_map (R := (· < ·)), List.zipIdx_map_snd]
    exact List.pairwise_lt_range'
  unfold valueItems
  rw [List.pairwise_map]
  exact numbered.imp_of_mem fun first second less =>
    placed_lt coherent registered (getElem?_of_mem_slotsIn first)
      (getElem?_of_mem_slotsIn second) less

/-- The repetitions of the document's own body show nothing: they have no elements, and
no text opens them. -/
def Rowless (rendering : Rendering) (inside : Bindings) : Prop :=
  ∀ array ∈ rendering.arraysIn none, rendering.openingOf array = "" ∧
    elementsOf array inside = []

/-- Without rows only the values are emitted. -/
theorem Rowless.emitted (rooted : Rooted rendering.outline) {outer : Bindings}
    (rowless : rendering.Rowless (rendering.bindObjects none outer)) (here : Position) :
    rendering.emitted none outer here =
      (rendering.valueItems none (rendering.bindObjects none outer)).map
        (Item.fragment here) := by
  rw [evaluates_emitted rooted none (Outline.isBody_none _)]
  have empty : ((rendering.arraysIn none).flatMap fun array =>
      literal here array.scope.opened.point (rendering.openingOf array) ++
        rows (fun item index => rendering.emitted (some array.id)
            ((rendering.bindObjects none outer).bind array.id (some item))
            (here ++ [array.scope.opened.point, index]))
          (fun index =>
            rendering.separatorAt array (here ++ [array.scope.opened.point, index]))
          0 (elementsOf array (rendering.bindObjects none outer))) = [] := by
    refine List.flatMap_eq_nil_iff.mpr fun array among => ?_
    rw [(rowless array among).1, (rowless array among).2]
    rfl
  simp only [empty, List.nil_append, valueItems, List.map_map]
  rfl

/-- Without rows a document is its values with their literals, between the texts before
and after it. -/
theorem Rowless.documentText (coherent : Coherent rendering.outline)
    (registered : Registered markers rendering.outline) (unbound : Bindings) (data : Value)
    (rowless : rendering.Rowless
      (rendering.bindObjects none (unbound.start (payload data)))) :
    Fragment.documentText (rendering.fragments unbound data) =
      rendering.layout.before ++
        String.join ((rendering.slotsIn none).map (rendering.slotText
          (rendering.bindObjects none (unbound.start (payload data))))) ++
        rendering.layout.after := by
  have rising := rising_valueItems coherent registered none
    (rendering.bindObjects none (unbound.start (payload data)))
  have points : ∀ item ∈ rendering.valueItems none
      (rendering.bindObjects none (unbound.start (payload data))),
      item.point ≤ rendering.outline.lastPoint := by
    intro item listed
    rcases List.mem_map.mp listed with ⟨slot, among, rfl⟩
    exact placed_le_lastPoint coherent registered (getElem?_of_mem_slotsIn among)
  unfold fragments
  rw [rowless.emitted coherent.rooted, Fragment.documentText_append, Fragment.documentText_append,
    documentText_literal, documentText_literal, documentText_of_rising rising, valueItems,
    List.map_map]
  · rfl
  · intro a first b second
    rcases List.mem_map.mp second with ⟨item, listed, rfl⟩
    exact atMost_of_positions (position_of_mem_literal first) rfl (Nat.zero_le _)
  · intro a first b second
    rcases List.mem_append.mp first with before | value
    · exact atMost_of_positions (position_of_mem_literal before)
        (position_of_mem_literal second) (Nat.zero_le _)
    · rcases List.mem_map.mp value with ⟨item, listed, rfl⟩
      exact atMost_of_positions rfl (position_of_mem_literal second)
        (Nat.le_succ_of_le (points item listed))

/-- Values of the slots as the markers left them behind, one after the other. -/
theorem join_map_slots {outline : Outline} (coherent : Coherent outline)
    (text : Slot × SlotId → String) :
    String.join (outline.slots.toList.zipIdx.map text) =
      String.join (outline.occurrences.toList.map fun occurrence =>
        ((slotAt? outline occurrence).map text).getD "") := by
  rw [zipIdx_slots coherent]
  induction outline.occurrences.toList with
  | nil => rfl
  | cons occurrence rest ih =>
    rw [List.map_cons, String.join_cons, ← ih]
    cases found : slotAt? outline occurrence with
    | none =>
      rw [List.filterMap_cons_none found, Option.map_none, Option.getD_none,
        String.empty_append]
    | some item =>
      rw [List.filterMap_cons_some found, List.map_cons, String.join_cons]
      rfl

end Rendering

end Stencil.Meaning
