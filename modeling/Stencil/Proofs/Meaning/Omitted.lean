import Stencil.Proofs.Layout.Omitted
import Stencil.Proofs.Meaning.Concatenation

namespace Stencil.Meaning

open Outline (Coherent IsBody Omits Rooted Spare)
open Program (Member)

/-!
# The meaning without a skipped marker

If a skipped marker states no condition on a dimension that others mention, a document
means the same without it.  Its value is left out, and the dimensions that only it
mentions have rows without any text.  All else is there in the same order.
-/

/-! ## Items without text -/

/-- The items that have a text. -/
def visible (items : List Item) : List Item := items.filter fun item => !item.text.isEmpty

theorem visible_append (items more : List Item) :
    visible (items ++ more) = visible items ++ visible more :=
  List.filter_append _ _

theorem inOrder_visible (items : List Item) : inOrder (visible items) = inOrder items := by
  unfold inOrder visible
  rw [← filter_orderBy]
  induction orderBy (keyAtMost Item.point) items with
  | nil => rfl
  | cons item rest ih =>
    cases blank : item.text.isEmpty with
    | true =>
      rw [List.filter_cons_of_neg (by simp [blank]), ih, List.map_cons, String.join_cons,
        String.isEmpty_iff.mp blank, String.empty_append]
    | false =>
      rw [List.filter_cons_of_pos (by simp [blank]), List.map_cons, List.map_cons,
        String.join_cons, String.join_cons, ih]

theorem inOrder_of_blank {items : List Item} (blank : ∀ item ∈ items, item.text = "") :
    inOrder items = "" := by
  have none : visible items = [] :=
    List.filter_eq_nil_iff.mpr fun item listed => by simp [blank item listed]
  rw [← inOrder_visible, none]
  rfl

/-- What has no text can be left out of a list of items. -/
theorem visible_map {α : Type} {shown : α → Item} {fits : α → Bool} {all : List α}
    (blank : ∀ a ∈ all, fits a = false → (shown a).text = "") :
    visible (all.map shown) = visible ((all.filter fits).map shown) := by
  unfold visible
  rw [List.filter_map, List.filter_map, List.filter_filter]
  congr 1
  refine List.filter_congr fun a listed => ?_
  cases fit : fits a with
  | true => simp
  | false => simp [blank a listed fit]

theorem rowTexts_of_blank {row : Value → Bool → String} (blank : ∀ item last, row item last = "")
    (items : List Value) : rowTexts row items = "" := by
  induction items with
  | nil => rfl
  | cons item more ih => rw [rowTexts, blank, ih, String.empty_append]

/-- Which elements are kept is said by which conditions there are. -/
theorem kept_congr {left right : List Condition} (same : ∀ condition, condition ∈ left ↔
    condition ∈ right) (elements : List Value) : kept left elements = kept right elements := by
  unfold kept
  refine List.filterMap_congr fun item _ => ?_
  refine ite_congr (propext ?_) (fun _ => rfl) fun _ => rfl
  exact forall_congr' fun condition => imp_congr_left (same condition)

/-! ## Both documents -/

/-- A rendering and one of the document with a skipped marker more, which leaves the
conditions on the elements of all repetitions as they are. -/
structure Idle (move : Omission) (own : Occurrence) (part whole : Rendering) : Prop where
  omits : Omits move own part.outline whole.outline
  laid : Layout.Omitted move part.outline whole.outline part.layout whole.layout
  coherent : Coherent part.outline
  wholeRooted : Rooted whole.outline
  seated : Seated part.outline part.layout
  registry : whole.registry = part.registry
  escape : whole.escape = part.escape
  conditions : ∀ (id : Nat) scope image, part.outline.scopes[id]? = some scope →
    whole.outline.scopes[move.scope id]? = some image →
      ∀ condition, condition ∈ image.conditions ↔ condition ∈ scope.conditions

namespace Idle

open Rendering

variable {move : Omission} {marker : Occurrence} {part whole : Rendering} {own all : Bindings}
  {body other : Option ScopeId} {array image : Member} (idle : Idle move marker part whole)

include idle

/-! ## Values -/

/-- The values of a body are the same but for their numbers. -/
theorem slotsIn (body : Option ScopeId) :
    whole.slotsIn (body.map move.scope) = (part.slotsIn body).map move.numbered := by
  apply idle.omits.filter_slots
  · intro item listed
    have bound : item.2 < part.outline.slots.size := by
      simpa using List.snd_lt_of_mem_zipIdx listed
    have host : whole.layout.host whole.outline (move.slotNumber item.2) =
        (part.layout.host part.outline item.2).map move.scope := idle.laid.laid.host item.2 bound
    have omits : whole.layout.omits (move.slotNumber item.2) = part.layout.omits item.2 :=
      idle.laid.laid.omits item.2 bound
    have same : (part.layout.host part.outline item.2).map move.scope = body.map move.scope ↔
        part.layout.host part.outline item.2 = body :=
      (Option.map_injective idle.omits.injective).eq_iff
    show (!whole.layout.omits (move.slotNumber item.2) &&
      whole.layout.host whole.outline (move.slotNumber item.2) == body.map move.scope) = _
    rw [host, omits]
    congr 1
    rw [Bool.eq_iff_iff, beq_iff_eq, beq_iff_eq]
    exact same
  · intro slot
    rw [idle.laid.omitted]
    rfl

/-- No value is emitted from a dimension that only the marker mentions. -/
theorem slotsIn_of_spare {id : ScopeId} (spare : Spare move part.outline id) :
    whole.slotsIn (some id) = [] := by
  have none : whole.slotsIn (some id) =
      (part.outline.slots.toList.zipIdx.filter fun _ => false).map move.numbered := by
    apply idle.omits.filter_slots
    · intro item listed
      have found : part.outline.slots[item.2]? = some item.1 := by
        simpa using List.mk_mem_zipIdx_iff_getElem?.mp listed
      have bound := (Array.getElem?_eq_some_iff.mp found).1
      by_contra seated
      simp only [Bool.not_eq_false, Bool.and_eq_true, Bool.not_eq_true', beq_iff_eq] at seated
      have moved : (part.layout.host part.outline item.2).map move.scope = some id :=
        (idle.laid.laid.host item.2 bound).symm.trans seated.2
      rcases Option.map_eq_some_iff.mp moved with ⟨scope, seat, rfl⟩
      have body := idle.seated item.2 item.1 found
        ((idle.laid.laid.omits item.2 bound).symm.trans seated.1) scope seat
      exact spare scope (Outline.lt_size_of_scopeIs body) rfl
    · intro slot
      rw [idle.laid.omitted]
      rfl
  rw [none, List.filter_false]
  rfl

/-! ## Repetitions -/

theorem hasArray_iff (body : Option ScopeId) {id : ScopeId}
    (bound : id < part.outline.scopes.size) :
    HasArray whole.outline (body.map move.scope) (move.scope id) ↔
      HasArray part.outline body id :=
  hasArray_carried_iff idle.omits.carries idle.coherent.rooted idle.wholeRooted body bound

/-- What lies in a dimension that only the marker mentions is mentioned by it only. -/
theorem spare_of_hasArray {outer id : ScopeId} (spare : Spare move part.outline outer)
    (held : HasArray whole.outline (some outer) id) : Spare move part.outline id := by
  rintro its bound rfl
  rcases held with ⟨scope, parent, found, kind, link, around⟩
  have foundOwn := Array.getElem?_eq_getElem bound
  rcases idle.omits.carries.scopes its _ foundOwn with ⟨image, foundImage, same⟩
  cases found.symm.trans foundImage
  rw [same.parent] at link
  rcases Option.map_eq_some_iff.mp link with ⟨ownParent, ownLink, rfl⟩
  have parentBound := (idle.coherent.rooted.parent_lt foundOwn ownLink).trans bound
  rw [idle.omits.carries.dimensionAround? idle.coherent.rooted idle.wholeRooted
    parentBound] at around
  rcases Option.map_eq_some_iff.mp around with ⟨dimension, within, rfl⟩
  have array := (Outline.mem_dimensionsAround_iff.mp (List.mem_of_getLast? within)).2
  exact spare dimension (Outline.lt_size_of_scopeIs array) rfl

/-- The other repetitions of a body are the same but for their numbers. -/
theorem ids (body : Option ScopeId) :
    (((whole.arraysIn (body.map move.scope)).filter fun array =>
        !decide (Spare move part.outline array.id)).map Member.id) =
      (part.arraysIn body).map fun array => move.scope array.id := by
  have listed : ((whole.arraysIn (body.map move.scope)).map Member.id).filter
      (fun id => !decide (Spare move part.outline id)) =
        ((whole.arraysIn (body.map move.scope)).filter fun array =>
          !decide (Spare move part.outline array.id)).map Member.id := List.filter_map
  refine listed.symm.trans ?_
  apply List.Pairwise.eq_of_mem_iff ((pairwise_ids_arraysIn _ _).filter _)
  · have rising := pairwise_ids_arraysIn part body
    rw [List.pairwise_map] at rising ⊢
    refine rising.imp_of_mem fun left right less => ?_
    exact idle.omits.rising _ _ (mem_ids_arraysIn.mp (List.mem_map_of_mem left)).isArray
      (mem_ids_arraysIn.mp (List.mem_map_of_mem right)).isArray less
  · intro id
    rw [List.mem_filter, mem_ids_arraysIn, mem_ids_image]
    constructor
    · rintro ⟨held, image⟩
      have covered : ¬ Spare move part.outline id := by simpa using image
      unfold Spare at covered
      push Not at covered
      rcases covered with ⟨its, bound, rfl⟩
      exact ⟨its, (idle.hasArray_iff body bound).mp held, rfl⟩
    · rintro ⟨its, held, rfl⟩
      have bound := Outline.lt_size_of_scopeIs held.isArray
      refine ⟨(idle.hasArray_iff body bound).mpr held, ?_⟩
      have covered : ¬ Spare move part.outline (move.scope its) := fun spare => spare its bound rfl
      simpa using covered

/-! ## Repetitions that only the marker mentions -/

theorem separatorItems_of_spare (listed : array ∈ whole.arraysIn other)
    (spare : Spare move part.outline array.id) (last : Bool) :
    whole.separatorItems array last = [] := by
  have found := (inside_of_mem_arraysIn idle.wholeRooted listed).1.found
  have endless : array.scope.closing? = none := by
    have ended := idle.omits.endless array.id spare
    rw [Outline.scopeIs_hasEnd, Outline.closingOf_eq found] at ended
    simpa using ended
  unfold Rendering.separatorItems
  rw [separatorOf_eq, endless]
  cases last <;> rfl

/-- A repetition has no text if its rows have none. -/
theorem arrayItem_of_spare (listed : array ∈ whole.arraysIn other)
    (spare : Spare move part.outline array.id) {levels : Nat}
    (blank : ∀ outer, whole.expandBody levels (some array.id) outer [] = "") (inside : Bindings) :
    (whole.arrayItem levels inside array).text = "" := by
  refine rowTexts_of_blank (fun item last => ?_) _
  rw [idle.separatorItems_of_spare listed spare]
  exact blank _

/-- Rows have no text if only the marker mentions their dimension. -/
theorem expandBody_of_spare (levels : Nat) : ∀ {id : ScopeId}, Spare move part.outline id →
    ∀ outer, whole.expandBody levels (some id) outer [] = "" := by
  induction levels with
  | zero => exact fun _ _ => rfl
  | succ levels ih =>
    intro id spare outer
    have within : ∀ array ∈ whole.arraysIn (some id), Spare move part.outline array.id :=
      fun array listed => idle.spare_of_hasArray spare
        (mem_ids_arraysIn.mp (List.mem_map_of_mem listed))
    rw [expandBody_succ]
    apply inOrder_of_blank
    simp only [openingItems, valueItems, idle.slotsIn_of_spare spare, List.map_nil,
      List.append_nil, List.forall_mem_append, List.forall_mem_map]
    exact ⟨fun array listed => idle.laid.opening array.id (within array listed),
      fun array listed => idle.arrayItem_of_spare listed (within array listed)
        (ih (within array listed)) _⟩

/-! ## All other repetitions -/

theorem memberImage (listed : array ∈ part.arraysIn body)
    (imageListed : image ∈ whole.arraysIn other) (ids : image.id = move.scope array.id) :
    MemberImage move.scope move.Image array image :=
  memberImage_of_ids idle.omits.images (fun _ _ same => same.parent) idle.coherent.rooted
    idle.wholeRooted listed imageListed ids

theorem elementsOf (listed : array ∈ part.arraysIn body)
    (imageListed : image ∈ whole.arraysIn other)
    (alike : MemberImage move.scope move.Image array image)
    (agree : AgreeAlong move.scope part.outline own all) :
    elementsOf image all = Rendering.elementsOf array own := by
  rcases inside_of_mem_arraysIn idle.coherent.rooted listed with ⟨inside, -⟩
  have found := (inside_of_mem_arraysIn idle.wholeRooted imageListed).1.found
  rw [alike.id] at found
  unfold Rendering.elementsOf
  rw [kept_congr (idle.conditions _ _ _ inside.found found), alike.same.access, alike.parent,
    agree array.parent (inside.smaller.trans inside.bound)]

theorem separatorItems (listed : array ∈ part.arraysIn body)
    (imageListed : image ∈ whole.arraysIn other)
    (alike : MemberImage move.scope move.Image array image) (last : Bool) :
    whole.separatorItems image last =
      (part.separatorItems array last).map (Item.along move.pointNumber) := by
  have found := (inside_of_mem_arraysIn idle.coherent.rooted listed).1.found
  have foundImage := (inside_of_mem_arraysIn idle.wholeRooted imageListed).1.found
  have closing : image.scope.closing? = array.scope.closing?.map move.place := by
    have ends := congrArg Prod.fst (idle.omits.ends array.id (Outline.lt_size_of_getElem? found))
    rw [← alike.id] at ends
    rw [← Outline.closingOf_eq found, ← Outline.closingOf_eq foundImage]
    exact ends
  have text : whole.layout.separatorText image.id = part.layout.separatorText array.id := by
    rw [alike.id]
    exact idle.laid.laid.separator array.id (isArray_of_mem_arraysIn listed)
  exact separatorItems_along move.pointNumber (fun _ => rfl) text closing last

/-- The items of the repetitions are the same, but for those of repetitions that only the
marker mentions. -/
theorem visible_arrays {shown ownShown : Member → Item}
    (blank : ∀ array ∈ whole.arraysIn (body.map move.scope),
      Spare move part.outline array.id → (shown array).text = "")
    (same : ∀ array ∈ part.arraysIn body, ∀ image ∈ whole.arraysIn (body.map move.scope),
      MemberImage move.scope move.Image array image →
        shown image = (ownShown array).along move.pointNumber) :
    visible ((whole.arraysIn (body.map move.scope)).map shown) =
      visible (((part.arraysIn body).map ownShown).map (Item.along move.pointNumber)) := by
  have left (array) (listed : array ∈ whole.arraysIn (body.map move.scope))
      (unmatched : (!decide (Spare move part.outline array.id)) = false) :
      (shown array).text = "" := blank array listed (by simpa using unmatched)
  rw [visible_map left, List.map_map]
  refine congrArg visible (map_eq_map_of_keys (idle.ids body) ?_)
  intro image imageListed array listed ids
  have imageListed := (List.mem_filter.mp imageListed).1
  exact same array listed image imageListed (idle.memberImage listed imageListed ids)

theorem visible_openingItems (body : Option ScopeId) :
    visible (whole.openingItems (body.map move.scope)) =
      visible ((part.openingItems body).map (Item.along move.pointNumber)) := by
  refine idle.visible_arrays (fun array _ spare => idle.laid.opening array.id spare) ?_
  intro array listed image _ alike
  rcases inside_of_mem_arraysIn idle.coherent.rooted listed with ⟨-, kind⟩
  have text : whole.openingOf image = part.openingOf array := by
    have opening : whole.layout.openingText (move.scope array.id) =
        "" ++ part.layout.openingText array.id :=
      idle.laid.laid.opening array.id (isArray_of_mem_arraysIn listed)
    rw [String.empty_append, ← alike.id] at opening
    exact opening
  unfold Item.along
  rw [text, alike.same.opened kind]
  rfl

theorem valueItems (agree : AgreeAlong move.scope part.outline own all) (body : Option ScopeId) :
    whole.valueItems (body.map move.scope) all =
      (part.valueItems body own).map (Item.along move.pointNumber) := by
  unfold Rendering.valueItems
  rw [idle.slotsIn, List.map_map, List.map_map]
  refine List.map_congr_left fun item listed => congrArg (Item.mk _) ?_
  have found := getElem?_of_mem_slotsIn listed
  have bound := idle.coherent.slotScope item.2 item.1 found
  have leading : whole.layout.leading (move.slotNumber item.2) = part.layout.leading item.2 :=
    (idle.laid.laid.leading item.2 (Array.getElem?_eq_some_iff.mp found).1).trans
      String.empty_append
  have inserted := agree.insertedText idle.omits.carries idle.coherent.rooted idle.registry
    idle.escape bound item.1.field item.1.calls
  show whole.layout.leading (move.slotNumber item.2) ++ _ = part.layout.leading item.2 ++ _
  rw [leading]
  exact congrArg _ inserted

/-! ## Bodies -/

/-- A repetition is the same item if its rows are the same. -/
theorem arrayItem {levels more : Nat} (listed : array ∈ part.arraysIn body)
    (imageListed : image ∈ whole.arraysIn other)
    (alike : MemberImage move.scope move.Image array image)
    (agree : AgreeAlong move.scope part.outline own all)
    (rows : ∀ own all, AgreeAlong move.scope part.outline own all → ∀ separators : List Item,
      whole.expandBody more (some image.id) all (separators.map (Item.along move.pointNumber)) =
        part.expandBody levels (some array.id) own separators) :
    whole.arrayItem more all image =
      (part.arrayItem levels own array).along move.pointNumber := by
  rcases inside_of_mem_arraysIn idle.coherent.rooted listed with ⟨-, kind⟩
  have opened : image.scope.opened.point = move.pointNumber array.scope.opened.point :=
    congrArg Place.point (alike.same.opened kind)
  refine arrayItem_along move.pointNumber opened
    (idle.elementsOf listed imageListed alike agree) ?_
  intro item last
  rw [idle.separatorItems listed imageListed alike]
  apply rows
  rw [alike.id]
  exact agree.bind idle.omits.injective array.id (some item)

theorem isBody (isBody : IsBody part.outline body) :
    IsBody whole.outline (body.map move.scope) := by
  intro id inside
  rcases Option.map_eq_some_iff.mp inside with ⟨own, rfl, rfl⟩
  have array := isBody own rfl
  rw [idle.omits.carries.scopeIs_isArray (Outline.lt_size_of_scopeIs array)]
  exact array

/-- Each body is the same without the marker. -/
theorem expandBody (levels : Nat) : ∀ {more : Nat} {body : Option ScopeId},
    IsBody part.outline body → part.Enough levels body →
      whole.Enough more (body.map move.scope) →
        ∀ own all, AgreeAlong move.scope part.outline own all → ∀ separators : List Item,
          whole.expandBody more (body.map move.scope) all
              (separators.map (Item.along move.pointNumber)) =
            part.expandBody levels body own separators := by
  have rooted := idle.coherent.rooted
  induction levels with
  | zero =>
    intro more body isBody enough
    exact absurd enough (not_enough_zero rooted isBody)
  | succ levels ih =>
    intro more body isBody enough wholeEnough own all agree separators
    cases more with
    | zero => exact absurd wholeEnough (not_enough_zero idle.wholeRooted (idle.isBody isBody))
    | succ more =>
    have inside : AgreeAlong move.scope part.outline (part.bindObjects body own)
        (whole.bindObjects (body.map move.scope) all) :=
      agree.bindObjects idle.omits.carries rooted idle.wholeRooted body
    have arrays : visible ((whole.arraysIn (body.map move.scope)).map
          (whole.arrayItem more (whole.bindObjects (body.map move.scope) all))) =
        visible (((part.arraysIn body).map
          (part.arrayItem levels (part.bindObjects body own))).map
            (Item.along move.pointNumber)) := by
      refine idle.visible_arrays (fun array listed spare => idle.arrayItem_of_spare listed spare
        (fun _ => idle.expandBody_of_spare more spare _) _) ?_
      intro array listed image imageListed alike
      refine idle.arrayItem listed imageListed alike inside ?_
      rcases inside_of_mem_arraysIn rooted listed with ⟨around, kind⟩
      have imageEnough := wholeEnough.inner idle.wholeRooted (idle.isBody isBody) imageListed
      rw [alike.id] at imageEnough ⊢
      exact ih (around.isBody kind) (enough.inner rooted isBody listed) imageEnough
    -- The items with a text are the same in the same order, and the others do not show.
    rw [expandBody_succ, expandBody_succ, ← inOrder_visible, idle.valueItems inside]
    simp only [visible_append, idle.visible_openingItems, arrays]
    simp only [← visible_append, ← List.map_append, inOrder_visible]
    exact inOrder_along (fun _ _ less => Omission.pointNumber_lt_iff.mpr less) _

/-- So the document is the same. -/
theorem expansion (data : Value) :
    whole.expansion (fun _ => none) data = part.expansion (fun _ => none) data := by
  have body := idle.expandBody part.outline.scopes.size (Outline.isBody_none part.outline)
    (enough_size part none) (enough_size whole none) _ _
    (agreeAlong_start idle.omits.carries (payload data)) []
  unfold Rendering.expansion
  rw [idle.laid.before, idle.laid.after]
  exact congrArg (· ++ part.layout.after) (congrArg (part.layout.before ++ ·) body)

end Idle

end Stencil.Meaning
