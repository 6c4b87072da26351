import Mathlib.Data.List.Sort
import Stencil.Proofs.Layout.Conservation
import Stencil.Proofs.Meaning.Agreement
import Stencil.Proofs.Meaning.Document

namespace Stencil.Meaning

open Program (Member)
open Outline (Rooted IsBody Inside)

/-!
# What a part of a document means in the whole

Inside its repetitions a part of a document means in the whole what it means alone: the
repetitions run over the same elements, and their rows have the same items at points
further on.
-/

variable {move : Relocation} {part whole : Rendering} {own all : Bindings}

/-! ## Repetitions of a part -/

namespace Rendering

/-- A dimension that belongs to a body. -/
def HasArray (outline : Outline) (body : Option ScopeId) (id : ScopeId) : Prop :=
  ∃ scope parent, outline.scopes[id]? = some scope ∧ scope.isArray = true ∧
    scope.parent = some parent ∧ outline.dimensionAround? parent = body

theorem mem_ids_arraysIn {rendering : Rendering} {body : Option ScopeId} {id : ScopeId} :
    id ∈ (rendering.arraysIn body).map Member.id ↔ HasArray rendering.outline body id := by
  unfold arraysIn scopesIn
  rw [List.mem_map]
  constructor
  · rintro ⟨array, listed, rfl⟩
    rcases List.mem_filter.mp listed with ⟨member, kind⟩
    rcases Outline.mem_members.mp member with ⟨-, found, link, around⟩
    exact ⟨array.scope, array.parent, found, kind, link, around⟩
  · rintro ⟨scope, parent, found, kind, link, around⟩
    exact ⟨⟨id, scope, parent⟩, List.mem_filter.mpr ⟨Outline.mem_members.mpr
      ⟨List.mem_range.mpr (Outline.lt_size_of_getElem? found), found, link, around⟩, kind⟩, rfl⟩

theorem mem_ids_image {rendering : Rendering} {move : ScopeId → ScopeId} {body : Option ScopeId}
    {other : ScopeId} :
    other ∈ (rendering.arraysIn body).map (fun array => move array.id) ↔
      ∃ own, HasArray rendering.outline body own ∧ move own = other := by
  constructor
  · intro listed
    rcases List.mem_map.mp listed with ⟨array, member, rfl⟩
    exact ⟨array.id, mem_ids_arraysIn.mp (List.mem_map_of_mem member), rfl⟩
  · rintro ⟨own, held, rfl⟩
    rcases List.mem_map.mp (mem_ids_arraysIn.mpr held) with ⟨array, member, rfl⟩
    exact List.mem_map_of_mem member

theorem pairwise_ids_arraysIn (rendering : Rendering) (body : Option ScopeId) :
    ((rendering.arraysIn body).map Member.id).Pairwise (· < ·) := by
  rw [List.pairwise_map]
  exact (Outline.pairwise_members rendering.outline body).filter _

/-- A dimension belongs to the same body where it is carried to. -/
theorem hasArray_carried_iff {move : ScopeId → ScopeId} {part whole : Outline}
    (carries : Outline.Carries move part whole) (rooted : Rooted part)
    (wholeRooted : Rooted whole) (body : Option ScopeId) {id : ScopeId}
    (bound : id < part.scopes.size) :
    HasArray whole (body.map move) (move id) ↔ HasArray part body id := by
  have found := Array.getElem?_eq_getElem bound
  rcases carries.scopes id _ found with ⟨image, foundImage, same⟩
  constructor
  · rintro ⟨scope, parent, foundScope, kind, link, around⟩
    rw [foundImage] at foundScope
    cases foundScope
    rw [same.parent] at link
    rcases Option.map_eq_some_iff.mp link with ⟨ownParent, ownLink, rfl⟩
    rw [carries.dimensionAround? rooted wholeRooted
      ((rooted.parent_lt found ownLink).trans bound)] at around
    exact ⟨_, ownParent, found, same.repeated ▸ kind, ownLink,
      Option.map_injective carries.injective around⟩
  · rintro ⟨scope, parent, foundScope, kind, link, around⟩
    rw [found] at foundScope
    cases foundScope
    refine ⟨image, move parent, foundImage, by rw [same.repeated, kind], ?_, ?_⟩
    · rw [same.parent, link]
      rfl
    · rw [carries.dimensionAround? rooted wholeRooted ((rooted.parent_lt found link).trans bound),
        around]

theorem HasArray.isArray {outline : Outline} {body : Option ScopeId} {id : ScopeId}
    (array : HasArray outline body id) : outline.scopeIs Scope.isArray id = true := by
  rcases array with ⟨scope, parent, found, kind, -⟩
  exact (Outline.scopeIs_eq found).trans kind

theorem isArray_of_mem_arraysIn {rendering : Rendering} {body : Option ScopeId} {array : Member}
    (listed : array ∈ rendering.arraysIn body) :
    rendering.outline.scopeIs Scope.isArray array.id = true :=
  (mem_ids_arraysIn.mp (List.mem_map_of_mem listed)).isArray

/-- A dimension belongs to one body. -/
theorem HasArray.unique {outline : Outline} {body other : Option ScopeId} {id : ScopeId}
    (array : HasArray outline body id) (again : HasArray outline other id) : body = other := by
  rcases array with ⟨scope, parent, found, -, link, around⟩
  rcases again with ⟨same, outer, foundAgain, -, linkAgain, aroundAgain⟩
  rw [found] at foundAgain
  cases foundAgain
  rw [link] at linkAgain
  cases linkAgain
  exact around.symm.trans aroundAgain

/-- Dimensions of a body lie behind it. -/
theorem HasArray.lt {outline : Outline} (rooted : Rooted outline) {body id : ScopeId}
    (array : HasArray outline (some body) id) : body < id := by
  rcases array with ⟨scope, parent, found, -, link, around⟩
  have smaller := rooted.parent_lt found link
  have member := (Outline.mem_dimensionsAround_iff.mp (List.mem_of_getLast? around)).1
  exact Nat.lt_of_le_of_lt (Outline.le_of_mem_ancestry rooted
    (smaller.trans (Outline.lt_size_of_getElem? found)) member) smaller

end Rendering

/-! ## Items of a part -/

/-- An item at another point. -/
def Item.along (change : Nat → Nat) (item : Item) : Item := ⟨change item.point, item.text⟩

/-- Other points make no difference if they come in the same order. -/
theorem inOrder_along {change : Nat → Nat} (rising : StrictMono change) (items : List Item) :
    inOrder (items.map (Item.along change)) = inOrder items := by
  have same : ∀ a ∈ items, ∀ b ∈ items,
      keyAtMost Item.point (a.along change) (b.along change) = keyAtMost Item.point a b := by
    intro a _ b _
    simp [keyAtMost, Item.along, rising.le_iff_le]
  unfold inOrder
  rw [← map_orderBy same, List.map_map]
  rfl

/-- An item so many points further on. -/
def Item.shift (size : Nat) (item : Item) : Item := ⟨item.point + size, item.text⟩

theorem inOrder_shift (size : Nat) (items : List Item) :
    inOrder (items.map (Item.shift size)) = inOrder items :=
  inOrder_along (fun _ _ less => Nat.add_lt_add_right less size) items

theorem rowTexts_congr {row other : Value → Bool → String} {items : List Value}
    (same : ∀ item ∈ items, ∀ last, row item last = other item last) :
    rowTexts row items = rowTexts other items := by
  induction items with
  | nil => rfl
  | cons item more ih =>
    rw [rowTexts, rowTexts, same item (.head _), ih fun later member => same later (.tail _ member)]

/-- Lists with the same keys give the same items, if those of one key are the same. -/
theorem map_eq_map_of_keys {α β κ γ : Type} {first : List α} {key : α → κ} {otherKey : β → κ}
    {shown : α → γ} {otherShown : β → γ} :
    ∀ {second : List β}, first.map key = second.map otherKey →
      (∀ a ∈ first, ∀ b ∈ second, key a = otherKey b → shown a = otherShown b) →
      first.map shown = second.map otherShown := by
  induction first with
  | nil =>
    intro second keys _
    rw [List.map_eq_nil_iff.mp keys.symm]
    rfl
  | cons a rest ih =>
    intro second keys same
    cases second with
    | nil => cases keys
    | cons b others =>
      rw [List.map_cons, List.map_cons, List.cons.injEq] at keys
      rw [List.map_cons, List.map_cons, same a (.head _) b (.head _) keys.1,
        ih keys.2 fun c member d other => same c (.tail _ member) d (.tail _ other)]

/-- A separator stands where the repetition ends, unless it is empty. -/
theorem separatorOf_eq (layout : Layout) (member : Member) :
    Program.separatorOf layout member = member.scope.closing?.bind fun closing =>
      if (layout.separatorText member.id).isEmpty then none
      else some (layout.separatorText member.id, closing.point) := by
  unfold Program.separatorOf Layout.separatorText
  cases member.scope.closing? with
  | none => rfl
  | some closing => cases layout.row? member.id <;> rfl

namespace Rendering

/-- A member of a part and of the whole, with scopes that are related. -/
structure MemberImage (move : ScopeId → ScopeId) (Related : Scope → Scope → Prop)
    (own image : Member) : Prop where
  id : image.id = move own.id
  parent : image.parent = move own.parent
  same : Related own.scope image.scope

variable {body other : Option ScopeId} {array image : Member}

theorem memberImage_of_ids {move : ScopeId → ScopeId} {Related : Scope → Scope → Prop}
    (images : ∀ (id : Nat) scope, part.outline.scopes[id]? = some scope →
      ∃ image, whole.outline.scopes[move id]? = some image ∧ Related scope image)
    (parents : ∀ scope image, Related scope image → image.parent = scope.parent.map move)
    (rooted : Rooted part.outline) (wholeRooted : Rooted whole.outline)
    (listed : array ∈ part.arraysIn body) (imageListed : image ∈ whole.arraysIn other)
    (ids : image.id = move array.id) : MemberImage move Related array image := by
  rcases inside_of_mem_arraysIn rooted listed with ⟨inside, -⟩
  rcases inside_of_mem_arraysIn wholeRooted imageListed with ⟨imageInside, -⟩
  rcases images array.id array.scope inside.found with ⟨scope, found, same⟩
  have foundImage := imageInside.found
  rw [ids, found] at foundImage
  cases foundImage
  have link := imageInside.link
  rw [parents _ _ same, inside.link] at link
  exact ⟨ids, (Option.some.inj link).symm, same⟩

/-- A repetition of a body as an item of it. -/
def arrayItem (rendering : Rendering) (levels : Nat) (inside : Bindings) (array : Member) : Item :=
  ⟨array.scope.opened.point, rowTexts (fun item last =>
    rendering.expandBody levels (some array.id) (inside.bind array.id (some item))
      (rendering.separatorItems array last)) (elementsOf array inside)⟩

theorem expandBody_succ (rendering : Rendering) (levels : Nat) (body : Option ScopeId)
    (outer : Bindings) (separators : List Item) :
    rendering.expandBody (levels + 1) body outer separators =
      let inside := rendering.bindObjects body outer
      inOrder (rendering.openingItems body ++ rendering.valueItems body inside ++ separators ++
        (rendering.arraysIn body).map (rendering.arrayItem levels inside)) := rfl

/-- The separator of a repetition stands where the repetition ends. -/
theorem separatorItems_along (change : Nat → Nat) {place : Place → Place}
    (moved : ∀ closing, (place closing).point = change closing.point)
    (text : whole.layout.separatorText image.id = part.layout.separatorText array.id)
    (closing : image.scope.closing? = array.scope.closing?.map place) (last : Bool) :
    whole.separatorItems image last =
      (part.separatorItems array last).map (Item.along change) := by
  unfold separatorItems
  rw [separatorOf_eq, separatorOf_eq, text, closing]
  cases last with
  | true => rfl
  | false =>
    cases array.scope.closing? with
    | none => rfl
    | some closing =>
      by_cases empty : (part.layout.separatorText array.id).isEmpty = true <;>
        simp [empty, Item.along, moved]

/-- A repetition is the same item, but for its point, if its rows are the same. -/
theorem arrayItem_along (change : Nat → Nat) {levels more : Nat}
    (opened : image.scope.opened.point = change array.scope.opened.point)
    (elements : elementsOf image all = elementsOf array own)
    (rows : ∀ item last,
      whole.expandBody more (some image.id) (all.bind image.id (some item))
          (whole.separatorItems image last) =
        part.expandBody levels (some array.id) (own.bind array.id (some item))
          (part.separatorItems array last)) :
    whole.arrayItem more all image = (part.arrayItem levels own array).along change := by
  unfold arrayItem Item.along
  rw [opened, elements]
  exact congrArg (Item.mk _) (rowTexts_congr fun item _ last => rows item last)

/-- A rendering of a part and one of the whole that agree inside all repetitions. -/
structure Inner (move : Relocation) (part whole : Rendering) : Prop where
  embeds : move.Embeds part.outline whole.outline
  coherent : Outline.Coherent part.outline
  wholeRooted : Rooted whole.outline
  registry : whole.registry = part.registry
  escape : whole.escape = part.escape
  arrays : ∀ id, part.outline.scopeIs Scope.isArray id = true →
    (whole.arraysIn (some (move.scope id))).map Member.id =
      (part.arraysIn (some id)).map fun array => move.scope array.id
  slots : ∀ id, part.outline.scopeIs Scope.isArray id = true →
    whole.slotsIn (some (move.scope id)) =
      (part.slotsIn (some id)).map fun item => (move.slotAt item.1, item.2 + move.slot)
  opening : ∀ body id, HasArray part.outline (some body) id →
    whole.layout.openingText (move.scope id) = part.layout.openingText id
  leading : ∀ body, ∀ item ∈ part.slotsIn (some body),
    whole.layout.leading (item.2 + move.slot) = part.layout.leading item.2
  separator : ∀ id, part.outline.scopeIs Scope.isArray id = true →
    whole.layout.separatorText (move.scope id) = part.layout.separatorText id

theorem Inner.memberImage (inner : Inner move part whole) (listed : array ∈ part.arraysIn body)
    (imageListed : image ∈ whole.arraysIn other) (ids : image.id = move.scope array.id) :
    MemberImage move.scope move.Image array image :=
  memberImage_of_ids inner.embeds.scopes (fun _ _ same => same.parent) inner.coherent.rooted
    inner.wholeRooted listed imageListed ids

theorem Inner.separatorItems (inner : Inner move part whole) (listed : array ∈ part.arraysIn body)
    (alike : MemberImage move.scope move.Image array image) (last : Bool) :
    whole.separatorItems image last =
      (part.separatorItems array last).map (Item.shift move.point) := by
  have text : whole.layout.separatorText image.id = part.layout.separatorText array.id := by
    rw [alike.id]
    exact inner.separator array.id (isArray_of_mem_arraysIn listed)
  exact separatorItems_along (· + move.point) (fun _ => rfl) text alike.same.closing? last

theorem Inner.elementsOf (inner : Inner move part whole) (listed : array ∈ part.arraysIn body)
    (alike : MemberImage move.scope move.Image array image)
    (agrees : Agrees move part.outline own all) :
    elementsOf image all = Rendering.elementsOf array own := by
  rcases inside_of_mem_arraysIn inner.coherent.rooted listed with ⟨inside, -⟩
  unfold Rendering.elementsOf
  rw [alike.same.conditions, alike.same.access, alike.parent,
    agrees array.parent (inside.smaller.trans inside.bound)]

/-- With some levels the rows of a repetition of a part are in the whole, with so many
more, what they are alone. -/
def SameRows (move : Relocation) (part whole : Rendering) (levels more : Nat) (id : ScopeId) :
    Prop :=
  ∀ own all, Agrees move part.outline own all → ∀ separators : List Item,
    whole.expandBody more (some (move.scope id)) all (separators.map (Item.shift move.point)) =
      part.expandBody levels (some id) own separators

/-- A repetition is the same item if its rows are the same. -/
theorem Inner.arrayItem (inner : Inner move part whole) {levels more : Nat}
    (listed : array ∈ part.arraysIn body) (alike : MemberImage move.scope move.Image array image)
    (agrees : Agrees move part.outline own all)
    (rows : SameRows move part whole levels more array.id) :
    whole.arrayItem more all image = (part.arrayItem levels own array).shift move.point := by
  rcases inside_of_mem_arraysIn inner.coherent.rooted listed with ⟨-, kind⟩
  have opened : image.scope.opened.point = array.scope.opened.point + move.point :=
    congrArg Place.point (alike.same.opened kind)
  refine arrayItem_along (· + move.point) opened (inner.elementsOf listed alike agrees) ?_
  intro item last
  rw [inner.separatorItems listed alike, alike.id]
  exact rows _ _ (agrees.bind inner.embeds array.id (some item)) _

theorem Inner.slotText (inner : Inner move part whole) {item : Slot × SlotId}
    (listed : item ∈ part.slotsIn body) (agrees : Agrees move part.outline own all)
    {lead : String} (leading : whole.layout.leading (item.2 + move.slot) =
      lead ++ part.layout.leading item.2) :
    whole.slotText all (move.slotAt item.1, item.2 + move.slot) =
      lead ++ part.slotText own item := by
  have found : part.outline.slots[item.2]? = some item.1 := by
    have numbered := List.mk_mem_zipIdx_iff_getElem?.mp (List.mem_filter.mp listed).1
    simpa using numbered
  have bound := inner.coherent.slotScope item.2 item.1 found
  unfold Rendering.slotText
  rw [leading, String.append_assoc]
  congr 2
  exact agrees.insertedText inner.embeds inner.coherent.rooted inner.registry inner.escape bound _ _

/-- The openings of corresponding repetitions are the same, but for text before them. -/
theorem Inner.openingItem (inner : Inner move part whole) (listed : array ∈ part.arraysIn body)
    (alike : MemberImage move.scope move.Image array image) {lead : String}
    (opening : whole.layout.openingText (move.scope array.id) =
      lead ++ part.layout.openingText array.id) :
    (⟨image.scope.opened.point, whole.openingOf image⟩ : Item) =
      ⟨array.scope.opened.point + move.point, lead ++ part.openingOf array⟩ := by
  rcases inside_of_mem_arraysIn inner.coherent.rooted listed with ⟨-, kind⟩
  have point : image.scope.opened.point = array.scope.opened.point + move.point := by
    rw [alike.same.opened kind]
    rfl
  have text : whole.openingOf image = lead ++ part.openingOf array := by
    show whole.layout.openingText image.id = lead ++ part.layout.openingText array.id
    rw [alike.id, opening]
  rw [point, text]

/-! ## Bodies of a part -/

section

variable {images : List Member}

/-- Repetitions of a part are opened in the whole as they are alone, but for text before
them. -/
theorem Inner.openings (inner : Inner move part whole)
    (within : ∀ image ∈ images, image ∈ whole.arraysIn other)
    (ids : images.map Member.id = (part.arraysIn body).map fun array => move.scope array.id)
    (lead : ScopeId → String) (opening : ∀ array ∈ part.arraysIn body,
      whole.layout.openingText (move.scope array.id) =
        lead array.id ++ part.layout.openingText array.id) :
    (images.map fun image => (⟨image.scope.opened.point, whole.openingOf image⟩ : Item)) =
      ((part.arraysIn body).map fun array =>
        ⟨array.scope.opened.point, lead array.id ++ part.openingOf array⟩).map
          (Item.shift move.point) := by
  rw [List.map_map]
  refine map_eq_map_of_keys ids fun image imageListed array listed same => ?_
  exact inner.openingItem listed (inner.memberImage listed (within image imageListed) same)
    (opening array listed)

/-- So are values inserted. -/
theorem Inner.values (inner : Inner move part whole) (agrees : Agrees move part.outline own all)
    (lead : SlotId → String) (leading : ∀ item ∈ part.slotsIn body,
      whole.layout.leading (item.2 + move.slot) = lead item.2 ++ part.layout.leading item.2) :
    (((part.slotsIn body).map fun item => (move.slotAt item.1, item.2 + move.slot)).map
        fun item => (⟨item.1.place.point, whole.slotText all item⟩ : Item)) =
      ((part.slotsIn body).map fun item =>
        ⟨item.1.place.point, lead item.2 ++ part.slotText own item⟩).map
          (Item.shift move.point) := by
  rw [List.map_map, List.map_map]
  exact List.map_congr_left fun item listed =>
    congrArg (Item.mk _) (inner.slotText listed agrees (leading item listed))

/-- Repetitions of a part are the same if their rows are. -/
theorem Inner.repetitions (inner : Inner move part whole)
    (agrees : Agrees move part.outline own all) {levels more : Nat}
    (within : ∀ image ∈ images, image ∈ whole.arraysIn other)
    (ids : images.map Member.id = (part.arraysIn body).map fun array => move.scope array.id)
    (rows : ∀ image ∈ images, ∀ array ∈ part.arraysIn body, image.id = move.scope array.id →
      SameRows move part whole levels more array.id) :
    images.map (whole.arrayItem more all) =
      ((part.arraysIn body).map (part.arrayItem levels own)).map (Item.shift move.point) := by
  rw [List.map_map]
  refine map_eq_map_of_keys ids fun image imageListed array listed same => ?_
  exact inner.arrayItem listed (inner.memberImage listed (within image imageListed) same)
    agrees (rows image imageListed array listed same)

end

/-- Inside a repetition a part means in the whole what it means alone. -/
theorem Inner.sameRows (inner : Inner move part whole) (levels : Nat) :
    ∀ {more : Nat} {id : ScopeId}, part.outline.scopeIs Scope.isArray id = true →
      part.Enough levels (some id) → whole.Enough more (some (move.scope id)) →
      SameRows move part whole levels more id := by
  have rooted := inner.coherent.rooted
  have isWholeBody : ∀ {id : ScopeId}, part.outline.scopeIs Scope.isArray id = true →
      IsBody whole.outline (some (move.scope id)) := by
    intro id kind
    rw [← inner.embeds.scopeIs_isArray (Outline.lt_size_of_scopeIs kind)] at kind
    exact Outline.isBody_some kind
  induction levels with
  | zero =>
    intro more id kind enough
    exact absurd enough (not_enough_zero rooted (Outline.isBody_some kind))
  | succ levels ih =>
    intro more id kind enough wholeEnough own all agrees separators
    cases more with
    | zero => exact absurd wholeEnough (not_enough_zero inner.wholeRooted (isWholeBody kind))
    | succ more =>
    have inside : Agrees move part.outline (part.bindObjects (some id) own)
        (whole.bindObjects (some (move.scope id)) all) :=
      agrees.bindObjects inner.embeds rooted inner.wholeRooted (some id)
    have ids := inner.arrays id kind
    have openings : whole.openingItems (some (move.scope id)) =
        (part.openingItems (some id)).map (Item.shift move.point) := by
      have opened := inner.openings (fun _ listed => listed) ids (fun _ => "")
        fun array listed => (inner.opening id array.id
          (mem_ids_arraysIn.mp (List.mem_map_of_mem listed))).trans String.empty_append.symm
      simpa only [openingItems, String.empty_append] using opened
    have values : whole.valueItems (some (move.scope id))
          (whole.bindObjects (some (move.scope id)) all) =
        (part.valueItems (some id) (part.bindObjects (some id) own)).map
          (Item.shift move.point) := by
      have inserted := inner.values inside (fun _ => "")
        fun item listed => (inner.leading id item listed).trans String.empty_append.symm
      rw [← inner.slots id kind] at inserted
      simpa only [valueItems, String.empty_append] using inserted
    have arrays : (whole.arraysIn (some (move.scope id))).map
          (whole.arrayItem more (whole.bindObjects (some (move.scope id)) all)) =
        ((part.arraysIn (some id)).map
          (part.arrayItem levels (part.bindObjects (some id) own))).map
            (Item.shift move.point) :=
      inner.repetitions inside (fun _ listed => listed) ids
        fun image imageListed array listed same => by
          have held := mem_ids_arraysIn.mp (List.mem_map_of_mem listed)
          have imageEnough := wholeEnough.inner inner.wholeRooted (isWholeBody kind) imageListed
          rw [same] at imageEnough
          exact ih held.isArray (enough.inner rooted (Outline.isBody_some kind) listed) imageEnough
    rw [expandBody_succ, expandBody_succ]
    simp only [openings, values, arrays, ← List.map_append]
    exact inOrder_shift _ _

theorem Inner.sameRows_of_mem (inner : Inner move part whole) {levels more : Nat}
    (isBody : IsBody part.outline body) (isWholeBody : IsBody whole.outline other)
    (enough : part.Enough (levels + 1) body) (wholeEnough : whole.Enough (more + 1) other)
    (listed : array ∈ part.arraysIn body) (imageListed : image ∈ whole.arraysIn other)
    (same : image.id = move.scope array.id) : SameRows move part whole levels more array.id := by
  have held := mem_ids_arraysIn.mp (List.mem_map_of_mem listed)
  have imageEnough := wholeEnough.inner inner.wholeRooted isWholeBody imageListed
  rw [same] at imageEnough
  exact inner.sameRows levels held.isArray
    (enough.inner inner.coherent.rooted isBody listed) imageEnough

end Rendering

end Stencil.Meaning
