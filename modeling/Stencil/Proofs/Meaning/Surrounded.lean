import Stencil.Proofs.Meaning.Distinct

namespace Stencil.Meaning

open Outline (Coherent Registered Rooted)
open Program (Member)

/-!
# Values between two texts

Markers without a document have no literal text between them, so all that is emitted
for a body are values.  A value stands at a point of its own, wherever it is repeated,
and the point tells the dimensions around it.  So the values of one run never share a
position, even where two dimensions are opened by one marker side by side.
-/

namespace Rendering

/-- No body has literal text in it. -/
structure Unlettered (rendering : Rendering) : Prop where
  openings : ∀ array, rendering.openingOf array = ""
  separators : ∀ array, Program.separatorOf rendering.layout array = none

theorem unlettered_surrounding (outline : Outline) (before after : String)
    (registry : Registry) (escape : Escape) :
    Unlettered ⟨outline, Layout.surrounding before after, registry, escape⟩ where
  openings _ := rfl
  separators array := by
    unfold Program.separatorOf
    cases array.scope.closing? <;> rfl

variable {rendering : Rendering} {markers : List Marker} {body : Option ScopeId}

/-- A body without literal text: the rows of its repetitions and its values. -/
theorem Unlettered.emitBody_succ (bare : rendering.Unlettered) (levels : Nat)
    (outer : Bindings) (here : Position) :
    rendering.emitBody (levels + 1) body outer here =
      ((rendering.arraysIn body).flatMap fun array =>
        rows (fun item index =>
            rendering.emitBody levels (some array.id)
              ((rendering.bindObjects body outer).bind array.id (some item))
              (here ++ [array.scope.opened.point, index]))
          (fun index =>
            rendering.separatorAt array (here ++ [array.scope.opened.point, index]))
          0 (elementsOf array (rendering.bindObjects body outer))) ++
        (rendering.slotsIn body).map fun item =>
          ⟨here ++ [item.1.place.point],
            rendering.slotText (rendering.bindObjects body outer) item⟩ := by
  rw [emitBody]
  simp only [bare.openings]
  rfl

/-- A fragment is a value whose body lies inside the one it is emitted for. -/
theorem Unlettered.slot_of_mem_emitBody (bare : rendering.Unlettered)
    (rooted : Rooted rendering.outline) (levels : Nat) :
    ∀ {body : Option ScopeId} {outer : Bindings} {here : Position} {fragment : Fragment},
      fragment ∈ rendering.emitBody levels body outer here →
      ∃ host, ∃ item ∈ rendering.slotsIn host, ∃ path,
        fragment.position = path ++ [item.1.place.point] ∧
          rendering.outline.dimensionsOf body <+: rendering.outline.dimensionsOf host := by
  induction levels with
  | zero =>
    intro body outer here fragment listed
    cases listed
  | succ levels ih =>
    intro body outer here fragment listed
    rw [bare.emitBody_succ] at listed
    rcases List.mem_append.mp listed with repeated | value
    · rcases List.mem_flatMap.mp repeated with ⟨array, among, inRows⟩
      rcases mem_rows inRows with ⟨index, -, ⟨element, inRow⟩ | between⟩
      · rcases ih inRow with ⟨host, item, inHost, path, position, within⟩
        refine ⟨host, item, inHost, path, position, List.IsPrefix.trans ?_ within⟩
        rcases inside_of_mem_arraysIn rooted among with ⟨inside, kind⟩
        show _ <+: rendering.outline.dimensionsAround array.id
        rw [inside.dimensionsAround_array rooted kind]
        exact List.prefix_append _ _
      · rw [separatorAt, bare.separators] at between
        cases between
    · rcases List.mem_map.mp value with ⟨item, inBody, rfl⟩
      exact ⟨body, item, inBody, here, rfl, List.prefix_refl _⟩

/-- The body of a value is told by the point of the value. -/
theorem host_eq_of_point (coherent : Coherent rendering.outline)
    (registered : Registered markers rendering.outline) {host otherHost : Option ScopeId}
    {item other : Slot × SlotId} (inHost : item ∈ rendering.slotsIn host)
    (inOther : other ∈ rendering.slotsIn otherHost)
    (same : item.1.place.point = other.1.place.point) : host = otherHost := by
  have equal := slot_eq_of_point coherent registered (getElem?_of_mem_slotsIn inHost)
    (getElem?_of_mem_slotsIn inOther) same
  have own := (List.mem_filter.mp inHost).2
  have its := (List.mem_filter.mp inOther).2
  simp only [Bool.and_eq_true, beq_iff_eq] at own its
  rw [← own.2, ← its.2, equal]

/-- What is emitted for bodies that lie apart stands at distinct positions. -/
theorem Unlettered.position_ne (bare : rendering.Unlettered)
    (coherent : Coherent rendering.outline) (registered : Registered markers rendering.outline)
    {array other : Member} (first : array ∈ rendering.arraysIn body)
    (second : other ∈ rendering.arraysIn body) (different : array.id ≠ other.id)
    {levels otherLevels : Nat} {inner otherInner : Bindings} {here there : Position}
    {a b : Fragment} (own : a ∈ rendering.emitBody levels (some array.id) inner here)
    (its : b ∈ rendering.emitBody otherLevels (some other.id) otherInner there) :
    a.position ≠ b.position := by
  intro same
  have rooted := coherent.rooted
  rcases bare.slot_of_mem_emitBody rooted levels own with
    ⟨host, item, inHost, path, position, within⟩
  rcases bare.slot_of_mem_emitBody rooted otherLevels its with
    ⟨otherHost, otherItem, inOther, otherPath, otherPosition, otherWithin⟩
  rw [position, otherPosition] at same
  have point := (List.append_inj' same rfl).2
  cases host_eq_of_point coherent registered inHost inOther (List.cons.inj point).1
  rcases inside_of_mem_arraysIn rooted first with ⟨inside, kind⟩
  rcases inside_of_mem_arraysIn rooted second with ⟨otherInside, otherKind⟩
  have around : rendering.outline.dimensionsOf (some array.id) =
      rendering.outline.dimensionsOf body ++ [array.id] :=
    inside.dimensionsAround_array rooted kind
  have otherAround : rendering.outline.dimensionsOf (some other.id) =
      rendering.outline.dimensionsOf body ++ [other.id] :=
    otherInside.dimensionsAround_array rooted otherKind
  rw [around] at within
  rw [otherAround] at otherWithin
  have equal := List.prefix_of_prefix_length_le within otherWithin (by simp)
  exact different (List.cons.inj (List.append_inj' (equal.eq_of_length (by simp)) rfl).2).1

/-- A value of a body does not stand where one inside a repetition does. -/
theorem Unlettered.value_position_ne (bare : rendering.Unlettered)
    (coherent : Coherent rendering.outline) (registered : Registered markers rendering.outline)
    {array : Member} (among : array ∈ rendering.arraysIn body) {levels : Nat} {inner : Bindings}
    {here there : Position} {a : Fragment}
    (own : a ∈ rendering.emitBody levels (some array.id) inner here) {item : Slot × SlotId}
    (listed : item ∈ rendering.slotsIn body) : a.position ≠ there ++ [item.1.place.point] := by
  intro same
  have rooted := coherent.rooted
  rcases bare.slot_of_mem_emitBody rooted levels own with
    ⟨host, inner, inHost, path, position, within⟩
  rw [position] at same
  have point := (List.append_inj' same rfl).2
  cases host_eq_of_point coherent registered inHost listed (List.cons.inj point).1
  rcases inside_of_mem_arraysIn rooted among with ⟨inside, kind⟩
  have around : rendering.outline.dimensionsOf (some array.id) =
      rendering.outline.dimensionsOf body ++ [array.id] :=
    inside.dimensionsAround_array rooted kind
  have shorter := within.length_le
  rw [around, List.length_append] at shorter
  exact Nat.not_succ_le_self _ shorter

/-- The values of a body stand at distinct positions. -/
theorem Unlettered.distinct_emitBody (bare : rendering.Unlettered)
    (coherent : Coherent rendering.outline) (registered : Registered markers rendering.outline)
    (levels : Nat) : ∀ (body : Option ScopeId) (outer : Bindings) (here : Position),
      Fragment.Distinct (rendering.emitBody levels body outer here) := by
  have rowOf : ∀ {items : List Value} {levels : Nat} {array : Member} {inside : Bindings}
      {here : Position} {fragment : Fragment},
      fragment ∈ rows (fun item index => rendering.emitBody levels (some array.id)
          (inside.bind array.id (some item)) (here ++ [array.scope.opened.point, index]))
        (fun index => rendering.separatorAt array (here ++ [array.scope.opened.point, index]))
        0 items →
      ∃ item index, fragment ∈ rendering.emitBody levels (some array.id)
        (inside.bind array.id (some item)) (here ++ [array.scope.opened.point, index]) := by
    intro items levels array inside here fragment listed
    rcases mem_rows listed with ⟨index, -, ⟨item, inRow⟩ | between⟩
    · exact ⟨item, index, inRow⟩
    · rw [separatorAt, bare.separators] at between
      cases between
  induction levels with
  | zero => exact fun _ _ _ => .nil
  | succ levels ih =>
    intro body outer here
    rw [bare.emitBody_succ]
    refine List.pairwise_append.mpr ⟨List.pairwise_flatMap.mpr ⟨?_, ?_⟩, ?_, ?_⟩
    · intro array _
      apply distinct_rows
      · exact fun item index fragment inRow => behind_emitBody levels fragment inRow
      · intro item _ index last
        have none : rendering.separatorItems array last = [] := by
          unfold separatorItems
          rw [bare.separators]
          cases last <;> rfl
        rw [none, List.map_nil, List.append_nil]
        exact ih _ _ _
    · have ids := List.pairwise_map.mp (pairwise_ids_arraysIn rendering body)
      refine ids.imp_of_mem fun first second less a own b its => ?_
      rcases rowOf own with ⟨item, index, inRow⟩
      rcases rowOf its with ⟨other, otherIndex, inOther⟩
      exact bare.position_ne coherent registered first second (Nat.ne_of_lt less) inRow inOther
    · rw [List.pairwise_map]
      refine (pairwise_slotsIn coherent registered body).imp fun different => ?_
      exact Position.append_cons_ne different
    · intro a repeated b shown
      rcases List.mem_flatMap.mp repeated with ⟨array, among, own⟩
      rcases List.mem_map.mp shown with ⟨item, listed, rfl⟩
      rcases rowOf own with ⟨element, index, inRow⟩
      exact bare.value_position_ne coherent registered among inRow listed

/-- Between two texts no position is shared, whatever the markers are. -/
theorem Unlettered.distinct_fragments (bare : rendering.Unlettered)
    (coherent : Coherent rendering.outline) (registered : Registered markers rendering.outline)
    (unbound : Bindings) (data : Value) :
    Fragment.Distinct (rendering.fragments unbound data) :=
  distinct_fragments_of_body coherent registered
    (bare.distinct_emitBody coherent registered _ none _ [])

end Rendering

end Stencil.Meaning
