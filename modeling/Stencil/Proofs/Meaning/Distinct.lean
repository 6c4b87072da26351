import Stencil.Proofs.Layout.Refusal
import Stencil.Proofs.Meaning.Leading
import Stencil.Proofs.Program.Visible

namespace Stencil.Meaning

open Layout (Orderly)
open Outline (Coherent Pointed Registered Rooted occurrence_eq_of_point)
open Program (Hosted Member)

/-!
# No two fragments stand at one position

A position ends with the point of a marker, and one marker can open several dimensions
and insert a value besides.  But these lie one inside the other, so a body has at most
one of them as an item of its own; and the marker that ends a repetition does nothing
else.  Rows of a repetition are told apart by their numbers, and what is in a row has a
longer position than the items of the body around it.
-/

/-! ## Points of one outline -/

section Points

variable {outline : Outline} {markers : List Marker}

/-- Values are inserted at different points. -/
theorem slot_eq_of_point (coherent : Coherent outline) (registered : Registered markers outline)
    {id other : Nat} {slot otherSlot : Slot} (found : outline.slots[id]? = some slot)
    (otherFound : outline.slots[other]? = some otherSlot)
    (same : slot.place.point = otherSlot.place.point) : id = other := by
  rcases registered.exists_placed coherent found with ⟨index, occurrence, marks, inserts, place⟩
  rcases registered.exists_placed coherent otherFound with
    ⟨otherIndex, otherOccurrence, otherMarks, otherInserts, otherPlace⟩
  rw [place, otherPlace] at same
  cases occurrence_eq_of_point marks otherMarks same
  exact Option.some.inj (inserts.symm.trans otherInserts)

/-- What ends a repetition stands at a point of its own. -/
structure EndsAlone (outline : Outline) (closing : Place) : Prop where
  opened : ∀ (id : Nat) scope, outline.scopes[id]? = some scope → scope.isArray = true →
    scope.opened.point ≠ closing.point
  placed : ∀ (id : Nat) slot, outline.slots[id]? = some slot → slot.place.point ≠ closing.point

theorem endsAlone (coherent : Coherent outline) (registered : Registered markers outline)
    (orderly : Orderly outline) {id : Nat} {scope : Scope} {closing : Place}
    (found : outline.scopes[id]? = some scope) (ended : scope.closing? = some closing) :
    EndsAlone outline closing := by
  rw [← Outline.closingOf_eq found] at ended
  rcases (registered.closing id closing).mp ended with ⟨index, occurrence, marks, closes, rfl⟩
  have only := orderly.ends occurrence
    (Array.mem_toList_iff.mpr (Array.mem_of_getElem? marks)) (List.ne_nil_of_mem closes)
  constructor
  · intro other otherScope otherFound array same
    rcases registered.exists_opened otherFound array with
      ⟨otherIndex, otherOccurrence, otherMarks, opens, opened⟩
    rw [opened] at same
    cases occurrence_eq_of_point otherMarks marks same
    rw [only.1] at opens
    cases opens
  · intro other slot otherFound same
    rcases registered.exists_placed coherent otherFound with
      ⟨otherIndex, otherOccurrence, otherMarks, inserts, place⟩
    rw [place] at same
    cases occurrence_eq_of_point otherMarks marks same
    rw [only.2] at inserts
    cases inserts

end Points

/-! ## Items of one body -/

/-- Separators at points where a body has neither repetitions nor values. -/
structure SeparatorsApart (rendering : Rendering) (body : Option ScopeId)
    (separators : List Item) : Prop where
  distinct : separators.Pairwise fun left right => left.point ≠ right.point
  arrays : ∀ item ∈ separators, ∀ array ∈ rendering.arraysIn body,
    array.scope.opened.point ≠ item.point
  slots : ∀ item ∈ separators, ∀ value ∈ rendering.slotsIn body,
    value.1.place.point ≠ item.point

theorem SeparatorsApart.nil (rendering : Rendering) (body : Option ScopeId) :
    SeparatorsApart rendering body [] where
  distinct := .nil
  arrays _ impossible := absurd impossible List.not_mem_nil
  slots _ impossible := absurd impossible List.not_mem_nil

/-- The repetitions, values and separators of every body stand at different points. -/
structure ItemsApart (rendering : Rendering) : Prop where
  arrays : ∀ body, (rendering.arraysIn body).Pairwise fun left right =>
    left.scope.opened.point ≠ right.scope.opened.point
  slots : ∀ body, (rendering.slotsIn body).Pairwise fun left right =>
    left.1.place.point ≠ right.1.place.point
  between : ∀ body, ∀ array ∈ rendering.arraysIn body, ∀ item ∈ rendering.slotsIn body,
    array.scope.opened.point ≠ item.1.place.point
  separators : ∀ body, ∀ array ∈ rendering.arraysIn body, ∀ last,
    SeparatorsApart rendering (some array.id) (rendering.separatorItems array last)

namespace Rendering

variable {rendering : Rendering} {markers : List Marker} {body : Option ScopeId}

theorem pairwise_slotsIn (coherent : Coherent rendering.outline)
    (registered : Registered markers rendering.outline) (body : Option ScopeId) :
    (rendering.slotsIn body).Pairwise fun left right =>
      left.1.place.point ≠ right.1.place.point := by
  have numbered : (rendering.slotsIn body).Pairwise fun left right => left.2 ≠ right.2 := by
    apply List.Pairwise.filter
    rw [← List.pairwise_map (R := (· ≠ ·)), List.zipIdx_map_snd]
    exact List.nodup_range'
  refine numbered.imp_of_mem fun first second different same => ?_
  exact different (slot_eq_of_point coherent registered (getElem?_of_mem_slotsIn first)
    (getElem?_of_mem_slotsIn second) same)

/-- A value does not stand at the point of a repetition beside it: at that point it would
lie inside the repetition. -/
theorem opened_ne_placed (coherent : Coherent rendering.outline)
    (pointed : Pointed rendering.outline) (hosted : Hosted rendering.outline rendering.layout)
    {array : Member} (among : array ∈ rendering.arraysIn body) {item : Slot × SlotId}
    (listed : item ∈ rendering.slotsIn body) :
    array.scope.opened.point ≠ item.1.place.point := by
  intro same
  have rooted := coherent.rooted
  rcases inside_of_mem_arraysIn rooted among with ⟨inside, kind⟩
  have found := getElem?_of_mem_slotsIn listed
  have seen : rendering.outline.dimensionsAround item.1.scope <+:
      rendering.outline.dimensionsOf body := by
    have fits := (List.mem_filter.mp listed).2
    simp only [Bool.and_eq_true, Bool.not_eq_true', beq_iff_eq] at fits
    have sees := hosted item.2 (lt_size_of_mem_slotsIn listed) fits.1 item.1 found
    rw [fits.2] at sees
    exact sees
  have around : array.id ∈ rendering.outline.dimensionsAround item.1.scope := by
    apply Outline.mem_dimensionsAround_iff.mpr
    exact ⟨pointed.around item.2 array.id item.1 array.scope found inside.found same,
      (Outline.scopeIs_eq inside.found).trans kind⟩
  have own := inside.dimensionsAround_array rooted kind
  have once : (rendering.outline.dimensionsAround array.id).Nodup :=
    (Outline.nodup_ancestry rooted inside.bound).filter _
  rw [own] at once
  exact (List.nodup_append.mp once).2.2 array.id (seen.subset around) array.id (by simp) rfl

theorem separatorsApart (coherent : Coherent rendering.outline)
    (registered : Registered markers rendering.outline) (orderly : Orderly rendering.outline)
    {array : Member} (among : array ∈ rendering.arraysIn body) (last : Bool) :
    SeparatorsApart rendering (some array.id) (rendering.separatorItems array last) := by
  have rooted := coherent.rooted
  rcases inside_of_mem_arraysIn rooted among with ⟨inside, -⟩
  have alone : ∀ item ∈ rendering.separatorItems array last, ∃ closing,
      item.point = closing.point ∧ EndsAlone rendering.outline closing := by
    intro item listed
    unfold separatorItems at listed
    split at listed
    · cases listed
    · split at listed
      · next text point separator =>
        cases List.mem_singleton.mp listed
        unfold Program.separatorOf at separator
        split at separator
        · next closing row ended _ =>
          split at separator
          · cases separator
          · cases separator
            exact ⟨closing, rfl, endsAlone coherent registered orderly inside.found ended⟩
        · cases separator
      · cases listed
  constructor
  · unfold separatorItems
    split
    · exact .nil
    · split
      · exact List.pairwise_singleton _ _
      · exact .nil
  · intro item listed other inner
    rcases alone item listed with ⟨closing, point, ends⟩
    rcases inside_of_mem_arraysIn rooted inner with ⟨innerInside, kind⟩
    rw [point]
    exact ends.opened other.id other.scope innerInside.found kind
  · intro item listed value inner
    rcases alone item listed with ⟨closing, point, ends⟩
    rw [point]
    exact ends.placed value.2 value.1 (getElem?_of_mem_slotsIn inner)

theorem itemsApart (coherent : Coherent rendering.outline)
    (registered : Registered markers rendering.outline) (pointed : Pointed rendering.outline)
    (orderly : Orderly rendering.outline)
    (hosted : Hosted rendering.outline rendering.layout) : ItemsApart rendering where
  arrays := pairwise_arraysIn coherent.rooted (pointed.pointsApart coherent.rooted)
  slots := pairwise_slotsIn coherent registered
  between _ _ among _ listed := opened_ne_placed coherent pointed hosted among listed
  separators _ _ among last := separatorsApart coherent registered orderly among last

/-! ## Fragments of one body -/

theorem distinct_literal (here : Position) (point : Nat) (text : String) :
    Fragment.Distinct (literal here point text) := by
  unfold literal
  split
  · exact .nil
  · exact List.pairwise_singleton _ _

theorem distinct_items {here : Position} {items : List Item}
    (apart : items.Pairwise fun left right => left.point ≠ right.point) :
    Fragment.Distinct (items.map (Item.fragment here)) :=
  List.pairwise_map.mpr (apart.imp fun different => Position.append_cons_ne different)

/-- The rows of a repetition do not share a position if no row repeats one. -/
theorem distinct_rows {row : Value → Nat → List Fragment} {array : Member} {here : Position}
    {point : Nat}
    (behind : ∀ item index, ∀ fragment ∈ row item index, Behind (here ++ [point, index]) fragment)
    {items : List Value} (single : ∀ item ∈ items, ∀ index last,
      Fragment.Distinct (row item index ++
        (rendering.separatorItems array last).map (Item.fragment (here ++ [point, index])))) :
    ∀ index, Fragment.Distinct (rows row
      (fun index => rendering.separatorAt array (here ++ [point, index])) index items) := by
  induction items with
  | nil => exact fun _ => .nil
  | cons item more ih =>
    intro index
    have onward := ih (fun other listed => single other (.tail _ listed)) (index + 1)
    rw [rows, separatorAt_eq]
    refine List.pairwise_append.mpr ⟨single item (.head _) index _, onward, ?_⟩
    intro a first b second
    rcases positions_of_rows behind first second with
      ⟨later, tail, other, less, position, otherPosition⟩
    rw [position, otherPosition]
    exact Position.append_cons_ne (Nat.ne_of_lt less)

variable {inside : Bindings} {here : Position} {separators : List Item}
  {rowsOf : Member → List Fragment}

/-- What belongs to a repetition begins with its point. -/
theorem InRows.position (inRows : rendering.InRows body here rowsOf) {array : Member}
    (among : array ∈ rendering.arraysIn body) {fragment : Fragment}
    (listed : fragment ∈ literal here array.scope.opened.point (rendering.openingOf array) ++
      rowsOf array) : ∃ tail, fragment.position = here ++ array.scope.opened.point :: tail := by
  rcases List.mem_append.mp listed with opening | row
  · exact ⟨[], position_of_mem_literal opening⟩
  · rcases inRows array among fragment row with ⟨index, tail, position⟩
    exact ⟨index :: tail, position⟩

theorem distinct_bodyOf (apart : ItemsApart rendering)
    (between : SeparatorsApart rendering body separators)
    (inRows : rendering.InRows body here rowsOf)
    (distinct : ∀ array ∈ rendering.arraysIn body, Fragment.Distinct (rowsOf array)) :
    Fragment.Distinct (rendering.bodyOf body inside here separators rowsOf) := by
  have points : ∀ item ∈ rendering.valueItems body inside ++ separators,
      ∀ array ∈ rendering.arraysIn body, array.scope.opened.point ≠ item.point := by
    intro item listed array among
    rcases List.mem_append.mp listed with value | separator
    · rcases List.mem_map.mp value with ⟨slot, inBody, rfl⟩
      exact apart.between body array among slot inBody
    · exact between.arrays item separator array among
  refine List.pairwise_append.mpr ⟨List.pairwise_flatMap.mpr ⟨?_, ?_⟩, ?_, ?_⟩
  · intro array among
    refine List.pairwise_append.mpr ⟨distinct_literal _ _ _, distinct array among, ?_⟩
    intro a opening b row same
    have item := isItem_of_mem_literal opening
    have longer := inRows.isItem among row
    unfold isItem at item longer
    rw [same, longer] at item
    cases item
  · refine (apart.arrays body).imp_of_mem fun first second different a own b other => ?_
    rcases inRows.position first own with ⟨tail, position⟩
    rcases inRows.position second other with ⟨otherTail, otherPosition⟩
    rw [position, otherPosition]
    exact Position.append_cons_ne different
  · apply distinct_items
    refine List.pairwise_append.mpr ⟨?_, between.distinct, ?_⟩
    · exact List.pairwise_map.mpr (apart.slots body)
    · intro item value separator listed
      rcases List.mem_map.mp value with ⟨slot, inBody, rfl⟩
      exact between.slots separator listed slot inBody
  · intro a repeated b shown
    rcases List.mem_flatMap.mp repeated with ⟨array, among, own⟩
    rcases List.mem_map.mp shown with ⟨item, listed, rfl⟩
    rcases inRows.position among own with ⟨tail, position⟩
    rw [position]
    exact Position.append_cons_ne (points item listed array among)

/-- What is emitted for a body, with separators in it, stands at distinct positions. -/
theorem distinct_emitBody (apart : ItemsApart rendering) (levels : Nat) :
    ∀ {body : Option ScopeId} {separators : List Item},
      SeparatorsApart rendering body separators → ∀ (outer : Bindings) (here : Position),
        Fragment.Distinct (rendering.emitBody levels body outer here ++
          separators.map (Item.fragment here)) := by
  induction levels with
  | zero =>
    intro body separators between outer here
    exact distinct_items between.distinct
  | succ levels ih =>
    intro body separators between outer here
    rw [emitBody_eq_bodyOf]
    apply distinct_bodyOf apart between (rendering.inRows_rowsEmitted levels body _ here)
    intro array among
    apply distinct_rows
    · intro item index fragment inRow
      exact behind_emitBody levels fragment inRow
    · intro item _ index last
      exact ih (apart.separators body array among last) _ _

/-! ## Whole documents -/

theorem placed_le_lastPoint {outline : Outline} (coherent : Coherent outline)
    (registered : Registered markers outline) {id : Nat} {slot : Slot}
    (found : outline.slots[id]? = some slot) : slot.place.point ≤ outline.lastPoint := by
  rcases registered.exists_placed coherent found with ⟨index, occurrence, marks, -, place⟩
  rw [place]
  exact (Array.getElem?_eq_some_iff.mp marks).1

/-- The text around a document stands at points where no marker is. -/
theorem distinct_fragments_of_body (coherent : Coherent rendering.outline)
    (registered : Registered markers rendering.outline) {unbound : Bindings} {data : Value}
    (body : Fragment.Distinct (rendering.emitBody rendering.outline.scopes.size none
      (unbound.start (payload data)) [])) :
    Fragment.Distinct (rendering.fragments unbound data) := by
  have within : ∀ fragment ∈ rendering.emitBody rendering.outline.scopes.size none
      (unbound.start (payload data)) [], ∃ point tail,
        fragment.position = point :: tail ∧ 1 ≤ point ∧ point ≤ rendering.outline.lastPoint := by
    intro fragment listed
    rcases point_of_mem_emitBody listed with
      ⟨point, tail, position, ⟨array, among, rfl⟩ | ⟨item, among, rfl⟩⟩
    · rcases inside_of_mem_arraysIn coherent.rooted among with ⟨inside, kind⟩
      exact ⟨_, tail, position, one_le_opened registered inside.found kind,
        registered.early _ _ inside.found⟩
    · have found := getElem?_of_mem_slotsIn among
      exact ⟨_, tail, position, one_le_placed coherent registered found,
        placed_le_lastPoint coherent registered found⟩
  refine List.pairwise_append.mpr ⟨List.pairwise_append.mpr ⟨distinct_literal _ _ _, body, ?_⟩,
    distinct_literal _ _ _, ?_⟩
  · intro a first b second same
    rcases within b second with ⟨point, tail, position, positive, -⟩
    rw [position_of_mem_literal first, position] at same
    cases same
    cases positive
  · intro a first b second same
    rw [position_of_mem_literal second] at same
    rcases List.mem_append.mp first with before | inBody
    · rw [position_of_mem_literal before] at same
      cases same
    · rcases within a inBody with ⟨point, tail, position, -, last⟩
      rw [position] at same
      cases same
      exact Nat.not_succ_le_self _ last

theorem distinct_fragments (coherent : Coherent rendering.outline)
    (registered : Registered markers rendering.outline) (pointed : Pointed rendering.outline)
    (orderly : Orderly rendering.outline)
    (hosted : Hosted rendering.outline rendering.layout) (unbound : Bindings) (data : Value) :
    Fragment.Distinct (rendering.fragments unbound data) := by
  have apart := itemsApart coherent registered pointed orderly hosted
  have body := distinct_emitBody apart rendering.outline.scopes.size (.nil rendering none)
    (unbound.start (payload data)) []
  rw [List.map_nil, List.append_nil] at body
  exact distinct_fragments_of_body coherent registered body

end Rendering

end Stencil.Meaning
