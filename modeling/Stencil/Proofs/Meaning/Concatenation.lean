import Stencil.Proofs.Meaning.Leading

namespace Stencil.Meaning

open Layout (Role Laid)
open Outline (Coherent Joins Pointed Registered Rooted)
open Program (Member)

/-!
# What two documents mean, one behind the other

The body of both documents has the items of the first and then those of the second, all
with later points.  So it is the body of the first followed by that of the second, which
begins with what the first leaves.
-/

/-- Values are emitted from bodies. -/
def Seated (outline : Outline) (layout : Layout) : Prop :=
  ∀ (id : Nat) slot, outline.slots[id]? = some slot → layout.omits id = false →
    Outline.IsBody outline (layout.host outline id)

/-- Two documents and both, one behind the other. -/
structure Concatenates (move : Relocation) (lead : Role → String)
    (first second whole : Rendering) : Prop where
  joins : Joins move first.outline second.outline whole.outline
  laid : Laid Relocation.stay.numbers (fun _ => "") first.outline whole.outline first.layout whole.layout
  otherLaid : Laid move.numbers lead second.outline whole.outline second.layout whole.layout
  coherent : Coherent first.outline
  otherCoherent : Coherent second.outline
  rooted : Rooted whole.outline
  pointed : Pointed first.outline
  otherRegistered : ∃ markers, Registered markers second.outline
  seated : Seated first.outline first.layout
  otherSeated : Seated second.outline second.layout
  registry : whole.registry = first.registry ∧ whole.registry = second.registry
  escape : whole.escape = first.escape ∧ whole.escape = second.escape
  inner : ∀ body id, Rendering.HasArray second.outline (some body) id → lead (.opening id) = ""
  innerSlots : ∀ body, ∀ item ∈ second.slotsIn (some body), lead (.leading item.2) = ""

open Rendering

/-! ## Items up to a point and later ones -/

theorem inOrder_partition (point : Nat) (items : List Item) :
    inOrder items = inOrder (items.filter fun item => decide (item.point ≤ point)) ++
      inOrder (items.filter fun item => !decide (item.point ≤ point)) := by
  have early : ∀ item ∈ items.filter fun item => decide (item.point ≤ point),
      item.point ≤ point := fun item listed => by simpa using (List.mem_filter.mp listed).2
  have late : ∀ item ∈ items.filter fun item => !decide (item.point ≤ point),
      point < item.point := fun item listed => by simpa using (List.mem_filter.mp listed).2
  have commute : ∀ item ∈ items, ∀ other ∈ items, decide (item.point ≤ point) = true →
      decide (other.point ≤ point) = false → Commute (keyAtMost Item.point) item other := by
    intro item _ other _ before behind
    have less : item.point < other.point :=
      Nat.lt_of_le_of_lt (by simpa using before) (by simpa using behind)
    apply insertOrdered_comm
    · simpa [keyAtMost] using Nat.le_of_lt less
    · simpa [keyAtMost] using less
    · intro third further
      simp only [keyAtMost, decide_eq_true_eq] at further ⊢
      exact Nat.le_trans (Nat.le_of_lt less) further
  unfold inOrder
  rw [← orderBy_filter_append commute, orderBy_append, List.map_append, String.join_append]
  intro item listed other listedOther
  have less := Nat.lt_of_le_of_lt (early item listed) (late other listedOther)
  simpa [keyAtMost] using Nat.le_of_lt less

/-- Three lists of items with later ones behind each. -/
theorem inOrder_mixed (point : Nat)
    {openings values arrays laterOpenings laterValues laterArrays : List Item}
    (early : ∀ item ∈ openings ++ values ++ arrays, item.point ≤ point)
    (late : ∀ item ∈ laterOpenings ++ laterValues ++ laterArrays, point < item.point) :
    inOrder (openings ++ laterOpenings ++ (values ++ laterValues) ++ (arrays ++ laterArrays)) =
      inOrder (openings ++ values ++ arrays) ++
        inOrder (laterOpenings ++ laterValues ++ laterArrays) := by
  simp only [List.forall_mem_append] at early late
  have all : ∀ {items : List Item}, (∀ item ∈ items, item.point ≤ point) →
      (items.filter fun item => decide (item.point ≤ point)) = items ∧
        (items.filter fun item => !decide (item.point ≤ point)) = [] := by
    intro items holds
    rw [List.filter_eq_self, List.filter_eq_nil_iff]
    exact ⟨fun item listed => by simpa using holds item listed,
      fun item listed => by simpa using holds item listed⟩
  have none : ∀ {items : List Item}, (∀ item ∈ items, point < item.point) →
      (items.filter fun item => decide (item.point ≤ point)) = [] ∧
        (items.filter fun item => !decide (item.point ≤ point)) = items := by
    intro items holds
    rw [List.filter_eq_self, List.filter_eq_nil_iff]
    exact ⟨fun item listed => by simpa using holds item listed,
      fun item listed => by simpa using holds item listed⟩
  rw [inOrder_partition point]
  simp only [List.filter_append, all early.1.1, all early.1.2, all early.2, none late.1.1,
    none late.1.2, none late.2, List.append_nil, List.nil_append]

namespace Concatenates

variable {move : Relocation} {lead : Role → String} {first second whole : Rendering}
  (both : Concatenates move lead first second whole)

include both

/-! ## Repetitions -/

/-- A repetition of the whole is one of the first document or one of the second. -/
theorem hasArray_cases {body : Option ScopeId} {id : ScopeId}
    (held : HasArray whole.outline body id) :
    id < first.outline.scopes.size ∨
      ∃ own, own < second.outline.scopes.size ∧ move.scope own = id := by
  by_cases early : id < first.outline.scopes.size
  · exact .inl early
  · exact .inr (both.joins.onto id (Nat.le_of_not_lt early)
      (Outline.lt_size_of_scopeIs held.isArray))

theorem hasArray_first_iff (body : Option ScopeId) {id : ScopeId}
    (bound : id < first.outline.scopes.size) :
    HasArray whole.outline body id ↔ HasArray first.outline body id := by
  have same := hasArray_carried_iff both.joins.first.carries both.coherent.rooted both.rooted body bound
  have stays : body.map Relocation.stay.scope = body := Option.map_id_apply
  rw [stays] at same
  exact same

theorem hasArray_second_iff (body : Option ScopeId) {id : ScopeId}
    (bound : id < second.outline.scopes.size) :
    HasArray whole.outline (body.map move.scope) (move.scope id) ↔
      HasArray second.outline body id :=
  hasArray_carried_iff both.joins.second.carries both.otherCoherent.rooted both.rooted body bound

/-- Repetitions of the second document do not stand in those of the first. -/
theorem not_hasArray_image {body own : ScopeId} (early : body < first.outline.scopes.size)
    (bound : own < second.outline.scopes.size) :
    ¬ HasArray whole.outline (some body) (move.scope own) := by
  rintro ⟨scope, parent, found, kind, link, around⟩
  have foundOwn := Array.getElem?_eq_getElem bound
  rcases both.joins.second.scopes own _ foundOwn with ⟨image, foundImage, same⟩
  rw [found] at foundImage
  cases foundImage
  rw [same.parent] at link
  rcases Option.map_eq_some_iff.mp link with ⟨ownParent, ownLink, rfl⟩
  rw [both.joins.second.dimensionAround? both.otherCoherent.rooted both.rooted
    ((both.otherCoherent.rooted.parent_lt foundOwn ownLink).trans bound)] at around
  rcases Option.map_eq_some_iff.mp around with ⟨outer, outerAround, rfl⟩
  have array := (Outline.mem_dimensionsAround_iff.mp (List.mem_of_getLast? outerAround)).2
  exact Nat.not_lt_of_le (both.joins.beyond _ array) early

theorem ids_first {id : ScopeId} (array : first.outline.scopeIs Scope.isArray id = true) :
    (whole.arraysIn (some id)).map Member.id = (first.arraysIn (some id)).map Member.id := by
  have early := Outline.lt_size_of_scopeIs array
  apply List.Pairwise.eq_of_mem_iff (pairwise_ids_arraysIn _ _) (pairwise_ids_arraysIn _ _)
  intro other
  rw [mem_ids_arraysIn, mem_ids_arraysIn]
  constructor
  · intro held
    rcases both.hasArray_cases held with small | ⟨own, bound, rfl⟩
    · exact (both.hasArray_first_iff _ small).mp held
    · exact absurd held (both.not_hasArray_image early bound)
  · intro held
    exact (both.hasArray_first_iff _ (Outline.lt_size_of_scopeIs held.isArray)).mpr held

theorem pairwise_ids_image (body : Option ScopeId) :
    ((second.arraysIn body).map fun array => move.scope array.id).Pairwise (· < ·) := by
  have rising := pairwise_ids_arraysIn second body
  rw [List.pairwise_map] at rising ⊢
  refine rising.imp_of_mem fun left right less => ?_
  have held := mem_ids_arraysIn.mp (List.mem_map_of_mem right)
  exact both.joins.rising _ _ less (Outline.lt_size_of_scopeIs held.isArray)
    (both.joins.beyond _ held.isArray)

theorem ids_second {id : ScopeId} (array : second.outline.scopeIs Scope.isArray id = true) :
    (whole.arraysIn (some (move.scope id))).map Member.id =
      (second.arraysIn (some id)).map fun array => move.scope array.id := by
  apply List.Pairwise.eq_of_mem_iff (pairwise_ids_arraysIn _ _) (both.pairwise_ids_image _)
  intro other
  rw [mem_ids_arraysIn, mem_ids_image]
  constructor
  · intro held
    have behind := Nat.lt_of_le_of_lt (both.joins.beyond _ array) (held.lt both.rooted)
    rcases both.hasArray_cases held with small | ⟨own, bound, rfl⟩
    · exact absurd behind (Nat.lt_asymm small)
    · exact ⟨own, (both.hasArray_second_iff (some id) bound).mp held, rfl⟩
  · rintro ⟨own, held, rfl⟩
    exact (both.hasArray_second_iff (some id) (Outline.lt_size_of_scopeIs held.isArray)).mpr held

/-- The repetitions of the body of both documents are those of the first and then those
of the second. -/
theorem ids_none : (whole.arraysIn none).map Member.id =
    (first.arraysIn none).map Member.id ++
      (second.arraysIn none).map fun array => move.scope array.id := by
  apply List.Pairwise.eq_of_mem_iff (pairwise_ids_arraysIn _ _)
  · refine List.pairwise_append.mpr
      ⟨pairwise_ids_arraysIn _ _, both.pairwise_ids_image _, fun left early right late => ?_⟩
    rcases mem_ids_image.mp late with ⟨own, held, rfl⟩
    exact Nat.lt_of_lt_of_le (Outline.lt_size_of_scopeIs (mem_ids_arraysIn.mp early).isArray)
      (both.joins.beyond _ held.isArray)
  · intro other
    rw [List.mem_append, mem_ids_arraysIn, mem_ids_arraysIn, mem_ids_image]
    constructor
    · intro held
      rcases both.hasArray_cases held with small | ⟨own, bound, rfl⟩
      · exact .inl ((both.hasArray_first_iff _ small).mp held)
      · exact .inr ⟨own, (both.hasArray_second_iff none bound).mp held, rfl⟩
    · rintro (held | ⟨own, held, rfl⟩)
      · exact (both.hasArray_first_iff _ (Outline.lt_size_of_scopeIs held.isArray)).mpr held
      · exact (both.hasArray_second_iff none (Outline.lt_size_of_scopeIs held.isArray)).mpr held

/-! ## Values -/

/-- The values of a body are those of the first document and then those of the second. -/
theorem slotsIn_whole (body : Option ScopeId) :
    whole.slotsIn body = first.slotsIn body ++
      (second.outline.slots.toList.zipIdx.filter fun item => !second.layout.omits item.2 &&
        (second.layout.host second.outline item.2).map move.scope == body).map
          fun item => (move.slotAt item.1, item.2 + move.slot) := by
  have numbered : whole.outline.slots.toList.zipIdx = first.outline.slots.toList.zipIdx ++
      second.outline.slots.toList.zipIdx.map fun item =>
        (move.slotAt item.1, item.2 + move.slot) := by
    have further : second.outline.slots.toList.zipIdx move.slot =
        second.outline.slots.toList.zipIdx.map (Prod.map id (· + move.slot)) := by
      rw [List.map_snd_add_zipIdx_eq_zipIdx, Nat.add_zero]
    rw [both.joins.slots, Array.toList_append, Array.toList_map, List.zipIdx_append,
      List.zipIdx_map, Nat.zero_add, Array.length_toList, ← both.joins.slot, further, List.map_map]
    rfl
  unfold slotsIn
  rw [numbered, List.filter_append, List.filter_map]
  congr 1
  · refine List.filter_congr fun item listed => ?_
    have bound : item.2 < first.outline.slots.size := by
      simpa using List.snd_lt_of_mem_zipIdx listed
    have host : whole.layout.host whole.outline item.2 = first.layout.host first.outline item.2 :=
      (both.laid.host item.2 bound).trans Option.map_id_apply
    rw [← both.laid.omits item.2 bound, ← host]
    rfl
  · congr 1
    refine List.filter_congr fun item listed => ?_
    have bound : item.2 < second.outline.slots.size := by
      simpa using List.snd_lt_of_mem_zipIdx listed
    have host : whole.layout.host whole.outline (item.2 + move.slot) =
        (second.layout.host second.outline item.2).map move.scope := both.otherLaid.host item.2 bound
    rw [← both.otherLaid.omits item.2 bound, ← host]
    rfl

/-- Values of a repetition of the first document are its own. -/
theorem slots_first {id : ScopeId} (array : first.outline.scopeIs Scope.isArray id = true) :
    whole.slotsIn (some id) = first.slotsIn (some id) := by
  rw [both.slotsIn_whole, List.append_right_eq_self, List.map_eq_nil_iff, List.filter_eq_nil_iff]
  rintro item listed seated
  simp only [Bool.and_eq_true, Bool.not_eq_true', beq_iff_eq, Option.map_eq_some_iff] at seated
  rcases seated with ⟨kept, host, seat, image⟩
  have found : second.outline.slots[item.2]? = some item.1 := by
    simpa using List.mk_mem_zipIdx_iff_getElem?.mp listed
  have beyond := both.joins.beyond host (both.otherSeated item.2 item.1 found kept host seat)
  rw [image] at beyond
  exact Nat.not_lt_of_le beyond (Outline.lt_size_of_scopeIs array)

theorem slots_second {id : ScopeId} (array : second.outline.scopeIs Scope.isArray id = true) :
    whole.slotsIn (some (move.scope id)) =
      (second.slotsIn (some id)).map fun item => (move.slotAt item.1, item.2 + move.slot) := by
  have none : first.slotsIn (some (move.scope id)) = [] := by
    refine List.filter_eq_nil_iff.mpr fun item listed seated => ?_
    simp only [Bool.and_eq_true, Bool.not_eq_true', beq_iff_eq] at seated
    have found : first.outline.slots[item.2]? = some item.1 := by
      simpa using List.mk_mem_zipIdx_iff_getElem?.mp listed
    have early := Outline.lt_size_of_scopeIs (both.seated item.2 item.1 found seated.1 _ seated.2)
    exact Nat.not_lt_of_le (both.joins.beyond id array) early
  rw [both.slotsIn_whole, none, List.nil_append]
  congr 1
  refine List.filter_congr fun item _ => ?_
  have same := (Option.map_injective both.joins.second.injective).eq_iff
    (a := second.layout.host second.outline item.2) (b := some id)
  congr 1
  rw [Bool.eq_iff_iff, beq_iff_eq, beq_iff_eq]
  exact same

theorem slots_none : whole.slotsIn none = first.slotsIn none ++
    (second.slotsIn none).map fun item => (move.slotAt item.1, item.2 + move.slot) := by
  rw [both.slotsIn_whole]
  congr 2
  refine List.filter_congr fun item _ => ?_
  congr 1
  rw [Bool.eq_iff_iff, beq_iff_eq, beq_iff_eq]
  exact Option.map_eq_none_iff

/-! ## Parts -/

theorem innerFirst : Inner .stay first whole where
  embeds := both.joins.first
  coherent := both.coherent
  wholeRooted := both.rooted
  registry := both.registry.1
  escape := both.escape.1
  arrays _ array := both.ids_first array
  slots id array := by
    rw [show some (Relocation.stay.scope id) = some id from rfl, both.slots_first array]
    exact (List.map_id _).symm
  opening body id held :=
    (both.laid.opening id held.isArray).trans String.empty_append
  leading body item listed := by
    exact (both.laid.leading item.2 (lt_size_of_mem_slotsIn listed)).trans String.empty_append
  separator := both.laid.separator

theorem innerSecond : Inner move second whole where
  embeds := both.joins.second
  coherent := both.otherCoherent
  wholeRooted := both.rooted
  registry := both.registry.2
  escape := both.escape.2
  arrays _ array := both.ids_second array
  slots _ array := both.slots_second array
  opening body id held := by
    refine (both.otherLaid.opening id held.isArray).trans ?_
    rw [both.inner body id held, String.empty_append]
  leading body item listed := by
    refine (both.otherLaid.leading item.2 (lt_size_of_mem_slotsIn listed)).trans ?_
    rw [both.innerSlots body item listed, String.empty_append]
  separator := both.otherLaid.separator

/-! ## The body of both documents -/

theorem exists_arraysIn : ∃ front back, whole.arraysIn none = front ++ back ∧
    front.map Member.id = (first.arraysIn none).map Member.id ∧
    back.map Member.id = (second.arraysIn none).map fun array => move.scope array.id :=
  List.map_eq_append_iff.mp both.ids_none

/-- The items of both documents, those of the first in front among each kind of them. -/
theorem ledItems_whole {front back : List Member} (split : whole.arraysIn none = front ++ back)
    (levels : Nat) (all : Bindings) :
    whole.ledItems (fun _ => "") levels all =
      (front.map (fun image => ⟨image.scope.opened.point, whole.openingOf image⟩) ++
        back.map fun image => ⟨image.scope.opened.point, whole.openingOf image⟩) ++
      ((first.slotsIn none).map (fun item => ⟨item.1.place.point, whole.slotText all item⟩) ++
        ((second.slotsIn none).map fun item => (move.slotAt item.1, item.2 + move.slot)).map
          fun item => ⟨item.1.place.point, whole.slotText all item⟩) ++
      (front.map (whole.arrayItem levels all) ++ back.map (whole.arrayItem levels all)) := by
  unfold ledItems
  simp only [String.empty_append]
  rw [split, both.slots_none, List.map_append, List.map_append, List.map_append]

/-- The items of the first document stand at its own points. -/
theorem point_le_lastPoint (levels : Nat) (own : Bindings) :
    ∀ item ∈ first.ledItems (fun _ => "") levels own, item.point ≤ first.outline.lastPoint :=
  point_of_mem_ledItems (· ≤ first.outline.lastPoint) (fun _ => "") both.coherent.rooted
    (fun _ _ found _ => both.pointed.opened _ _ found)
    (fun _ _ found => both.pointed.placed _ _ found)

/-- The items of the second document stand behind them. -/
theorem lastPoint_lt_point (levels : Nat) (other : Bindings) :
    ∀ item ∈ second.ledItems lead levels other, first.outline.lastPoint < item.point + move.point := by
  rcases both.otherRegistered with ⟨markers, registered⟩
  intro item listed
  have positive : 1 ≤ item.point :=
    point_of_mem_ledItems (1 ≤ ·) lead both.otherCoherent.rooted
      (fun _ _ found => one_le_opened registered found)
      (fun _ _ found => one_le_placed both.otherCoherent registered found) item listed
  rw [both.joins.point, Nat.add_comm]
  exact Nat.lt_add_of_pos_right positive

/-- The items of both documents are those of the first and later those of the second,
which has more before its first. -/
theorem inOrder_ledItems {own other all : Bindings} (agrees : Agrees .stay first.outline own all)
    (otherAgrees : Agrees move second.outline other all) {levels more fewer : Nat}
    (enough : first.Enough (levels + 1) none) (otherEnough : second.Enough (fewer + 1) none)
    (wholeEnough : whole.Enough (more + 1) none) :
    inOrder (whole.ledItems (fun _ => "") more all) =
      inOrder (first.ledItems (fun _ => "") levels own) ++
        inOrder (second.ledItems lead fewer other) := by
  rcases both.exists_arraysIn with ⟨front, back, split, ids, otherIds⟩
  have inFront : ∀ image ∈ front, image ∈ whole.arraysIn none := fun image listed => by
    rw [split]
    exact List.mem_append_left _ listed
  have inBack : ∀ image ∈ back, image ∈ whole.arraysIn none := fun image listed => by
    rw [split]
    exact List.mem_append_right _ listed
  have isArray : ∀ {part : Rendering} {array : Member}, array ∈ part.arraysIn none →
      part.outline.scopeIs Scope.isArray array.id = true := fun listed =>
    (mem_ids_arraysIn.mp (List.mem_map_of_mem listed)).isArray
  have openings := both.innerFirst.openings inFront ids (fun _ => "") fun array listed =>
    both.laid.opening array.id (isArray listed)
  have otherOpenings := both.innerSecond.openings inBack otherIds (fun id => lead (.opening id))
    fun array listed => both.otherLaid.opening array.id (isArray listed)
  have values := both.innerFirst.values agrees (fun _ => "")
    fun item (listed : item ∈ first.slotsIn none) =>
      both.laid.leading item.2 (lt_size_of_mem_slotsIn listed)
  have otherValues := both.innerSecond.values otherAgrees (fun id => lead (.leading id))
    fun item (listed : item ∈ second.slotsIn none) =>
      both.otherLaid.leading item.2 (lt_size_of_mem_slotsIn listed)
  have top := Outline.isBody_none
  have arrays := both.innerFirst.repetitions agrees inFront ids
    fun image imageListed array listed => both.innerFirst.sameRows_of_mem (top _) (top _) enough
      wholeEnough listed (inFront image imageListed)
  have otherArrays := both.innerSecond.repetitions otherAgrees inBack otherIds
    fun image imageListed array listed => both.innerSecond.sameRows_of_mem (top _) (top _)
      otherEnough wholeEnough listed (inBack image imageListed)
  have stays : ((first.slotsIn none).map fun item =>
      (Relocation.stay.slotAt item.1, item.2 + Relocation.stay.slot)) = first.slotsIn none :=
    List.map_id _
  rw [stays] at values
  rw [both.ledItems_whole split, openings, otherOpenings, values, otherValues, arrays, otherArrays,
    inOrder_mixed first.outline.lastPoint]
  · simp only [← List.map_append]
    rw [inOrder_shift, inOrder_shift]
    rfl
  · rw [← List.map_append, ← List.map_append, List.forall_mem_map]
    exact both.point_le_lastPoint levels own
  · rw [← List.map_append, ← List.map_append, List.forall_mem_map]
    exact both.lastPoint_lt_point fewer other

/-- The body of both documents is that of the first and then that of the second, which has
more before its first item. -/
theorem expandBody_whole (payload : Value) {levels : Nat}
    (size : second.outline.scopes.size = levels + 1) :
    whole.expandBody whole.outline.scopes.size none (Bindings.start (fun _ => none) payload) [] =
      first.expandBody first.outline.scopes.size none (Bindings.start (fun _ => none) payload) [] ++
        inOrder (second.ledItems lead levels
          (second.bindObjects none (Bindings.start (fun _ => none) payload))) := by
  rcases Nat.exists_eq_add_one.mpr (Outline.size_pos both.coherent.rooted) with ⟨own, ownSize⟩
  rcases Nat.exists_eq_add_one.mpr (Outline.size_pos both.rooted) with ⟨more, wholeSize⟩
  have agrees := (agrees_start both.joins.first payload).bindObjects both.joins.first
    both.coherent.rooted both.rooted none
  have otherAgrees := (agrees_start both.joins.second payload).bindObjects both.joins.second
    both.otherCoherent.rooted both.rooted none
  rw [wholeSize, ownSize, expandBody_eq_ledItems, expandBody_eq_ledItems]
  refine both.inOrder_ledItems agrees otherAgrees ?_ ?_ ?_
  · rw [← ownSize]
    exact enough_size _ _
  · rw [← size]
    exact enough_size _ _
  · rw [← wholeSize]
    exact enough_size _ _

end Concatenates

end Stencil.Meaning
