import Stencil.Proofs.Fragment
import Stencil.Proofs.Meaning.Document
import Stencil.Proofs.Meaning.Levels
import Stencil.Proofs.Outline.Points

namespace Stencil.Meaning

open Program (Member)
open Outline (Rooted IsBody PointsApart Pointed)

/-!
# Ordering what is emitted gives the document

A body emits its repetitions before its values, and a repetition emits its rows one
inside the other.  Positions undo this: fragments with short positions are the items
of the body, those with longer ones are in a row of a repetition, and repetitions of
one body begin at different points.
-/

/-! ## Fragments of items -/

/-- An item in a body at a position. -/
def Item.fragment (here : Position) (item : Item) : Fragment := ⟨here ++ [item.point], item.text⟩

/-- A fragment behind a position. -/
def Behind (here : Position) (fragment : Fragment) : Prop :=
  ∃ point tail, fragment.position = here ++ point :: tail

/-- Points decide the order unless what comes first has to come first. -/
theorem atMost_of_points {here tail other : Position} {point otherPoint : Nat}
    (early : tail = [] ∨ point ≠ otherPoint) :
    Position.atMost (here ++ point :: tail) (here ++ otherPoint :: other) =
      decide (point ≤ otherPoint) := by
  rw [Position.atMost_append]
  by_cases same : point = otherPoint
  · subst same
    rcases early with first | different
    · rw [first, Position.atMost_cons_self, Position.atMost_nil, decide_eq_true (Nat.le_refl _)]
    · exact absurd rfl different
  · exact Position.atMost_cons_of_ne same _ _

/-- Fragments of a body in groups: all of a group begin with one point, and those
of a group that begin with the point of a later group are no longer than that. -/
def Grouped (here : Position) (groups : List (Nat × List Fragment)) : Prop :=
  groups.Pairwise fun left right => ∀ a ∈ left.2, ∀ b ∈ right.2,
    ∃ tail other, a.position = here ++ left.1 :: tail ∧ b.position = here ++ right.1 :: other ∧
      (tail = [] ∨ left.1 ≠ right.1)

/-- Groups are shown in the order of their points. -/
theorem documentText_flatMap {here : Position} {groups : List (Nat × List Fragment)}
    (grouped : Grouped here groups) :
    Fragment.documentText (groups.flatMap Prod.snd) =
      inOrder (groups.map fun group => ⟨group.1, Fragment.documentText group.2⟩) := by
  have compares : groups.Pairwise fun left right => ∀ a ∈ left.2, ∀ b ∈ right.2,
      Fragment.atMost a b = keyAtMost Prod.fst left right := by
    refine grouped.imp fun positions a member b other => ?_
    obtain ⟨tail, otherTail, first, second, early⟩ := positions a member b other
    unfold Fragment.atMost keyAtMost
    rw [first, second, atMost_of_points early]
  unfold inOrder
  rw [Fragment.documentText_eq, orderBy_flatMap compares, ← map_orderBy (fun _ _ _ _ => rfl),
    List.map_map]
  have joined : ∀ groups : List (Nat × List Fragment),
      String.join ((groups.flatMap fun group => orderBy Fragment.atMost group.2).map
        Fragment.text) =
        String.join (groups.map fun group => Fragment.documentText group.2) := by
    intro groups
    induction groups with
    | nil => rfl
    | cons group rest ih =>
      rw [List.flatMap_cons, List.map_append, String.join_append, ih, List.map_cons,
        String.join_cons, Fragment.documentText_eq]
  exact joined _

theorem grouped_append {here : Position} {single wide : List (Nat × List Fragment)}
    (short : ∀ group ∈ single, ∀ a ∈ group.2, a.position = here ++ [group.1])
    (long : ∀ group ∈ wide, ∀ a ∈ group.2, ∃ tail, a.position = here ++ group.1 :: tail)
    (apart : wide.Pairwise fun left right => left.1 ≠ right.1) :
    Grouped here (single ++ wide) := by
  refine List.pairwise_append.mpr ⟨?_, ?_, ?_⟩
  · refine List.pairwise_of_forall_mem_list fun left first right second a member b other => ?_
    exact ⟨[], [], short left first a member, short right second b other, .inl rfl⟩
  · refine apart.imp_of_mem fun first second different a member b other => ?_
    obtain ⟨tail, position⟩ := long _ first a member
    obtain ⟨otherTail, otherPosition⟩ := long _ second b other
    exact ⟨tail, otherTail, position, otherPosition, .inr different⟩
  · intro left first right second a member b other
    obtain ⟨otherTail, otherPosition⟩ := long right second b other
    exact ⟨[], otherTail, short left first a member, otherPosition, .inl rfl⟩

/-- Whether a fragment is an item of a body at a position, and not in a row. -/
def isItem (here : Position) (fragment : Fragment) : Bool :=
  fragment.position.length ≤ here.length + 1

theorem isItem_of_position {here : Position} {point : Nat} {fragment : Fragment}
    (position : fragment.position = here ++ [point]) : isItem here fragment = true := by
  simp [isItem, position]

theorem isItem_of_longer {here tail : Position} {point index : Nat} {fragment : Fragment}
    (position : fragment.position = here ++ point :: index :: tail) :
    isItem here fragment = false := by
  simp [isItem, position]

/-- An item and what is in a row never have the same position. -/
theorem commute_of_isItem {here : Position} {a b : Fragment}
    (behind : Behind here a) (alsoBehind : Behind here b) (item : isItem here a = true)
    (inRow : isItem here b = false) : Commute Fragment.atMost a b := by
  obtain ⟨point, tail, position⟩ := behind
  obtain ⟨other, otherTail, otherPosition⟩ := alsoBehind
  obtain rfl : tail = [] := by
    unfold isItem at item
    rw [position] at item
    simpa using item
  have longer : otherTail ≠ [] := by
    rintro rfl
    rw [isItem_of_position otherPosition] at inRow
    cases inRow
  obtain ⟨index, rest, rfl⟩ := List.exists_cons_of_ne_nil longer
  have compared : Fragment.atMost a b = decide (point ≤ other) := by
    unfold Fragment.atMost
    rw [position, otherPosition, atMost_of_points (.inl rfl)]
  by_cases same : point = other
  · subst same
    refine Fragment.commute_of_atMost (by simp [compared]) ?_
    unfold Fragment.atMost
    rw [position, otherPosition, Position.atMost_append, Position.atMost_cons_self]
    rfl
  · have reversed : Fragment.atMost b a = decide (other ≤ point) := by
      unfold Fragment.atMost
      rw [position, otherPosition, atMost_of_points (.inr fun equal => same equal.symm)]
    rcases Nat.lt_or_gt_of_ne same with less | greater
    · exact Fragment.commute_of_atMost (by simp [compared, Nat.le_of_lt less])
        (by simp [reversed, less])
    · exact fun items => (Fragment.commute_of_atMost
        (by simp [reversed, Nat.le_of_lt greater]) (by simp [compared, greater]) items).symm

namespace Rendering

variable {rendering : Rendering}

/-! ## Positions -/

theorem position_of_mem_literal {here : Position} {point : Nat} {text : String}
    {fragment : Fragment} (listed : fragment ∈ literal here point text) :
    fragment.position = here ++ [point] := by
  unfold literal at listed
  split at listed
  · cases listed
  · rw [List.mem_singleton.mp listed]

theorem documentText_literal (here : Position) (point : Nat) (text : String) :
    Fragment.documentText (literal here point text) = text := by
  unfold literal
  split
  · next empty => rw [Fragment.documentText_nil, String.isEmpty_iff.mp empty]
  · exact Fragment.documentText_singleton _

theorem mem_rows {α : Type} {row : Value → Nat → List α} {separator : Nat → List α}
    {items : List Value} {a : α} : ∀ {index : Nat}, a ∈ rows row separator index items →
      ∃ later, index ≤ later ∧ ((∃ item, a ∈ row item later) ∨ a ∈ separator later) := by
  induction items with
  | nil =>
    intro index listed
    cases listed
  | cons item more ih =>
    intro index listed
    rw [rows] at listed
    rcases List.mem_append.mp listed with here | later
    · refine ⟨index, Nat.le_refl _, ?_⟩
      rcases List.mem_append.mp here with inRow | between
      · exact .inl ⟨item, inRow⟩
      · split at between
        · cases between
        · exact .inr between
    · obtain ⟨other, behind, inside⟩ := ih later
      exact ⟨other, Nat.le_of_succ_le behind, inside⟩

theorem separatorAt_eq (array : Member) (here : Position) (last : Bool) :
    (if last then [] else rendering.separatorAt array here) =
      (rendering.separatorItems array last).map (Item.fragment here) := by
  unfold separatorAt separatorItems
  cases last with
  | true => rfl
  | false =>
    simp only [Bool.false_eq_true, if_false]
    cases Program.separatorOf rendering.layout array <;> rfl

theorem behind_fragment (here : Position) (item : Item) : Behind here (item.fragment here) :=
  ⟨item.point, [], rfl⟩

theorem behind_separatorAt {array : Member} {here : Position} {fragment : Fragment}
    (listed : fragment ∈ rendering.separatorAt array here) : Behind here fragment := by
  have listed : fragment ∈ (rendering.separatorItems array false).map (Item.fragment here) := by
    rw [← separatorAt_eq]
    exact listed
  obtain ⟨item, -, rfl⟩ := List.mem_map.mp listed
  exact behind_fragment here item

/-- Where the fragments of a repetition stand. -/
theorem position_of_mem_rows {row : Value → Nat → List Fragment} {array : Member}
    {here : Position} {point index : Nat} {items : List Value} {fragment : Fragment}
    (behind : ∀ item index, ∀ fragment ∈ row item index, Behind (here ++ [point, index]) fragment)
    (listed : fragment ∈ rows row
      (fun index => rendering.separatorAt array (here ++ [point, index])) index items) :
    ∃ later tail, index ≤ later ∧ fragment.position = here ++ point :: later :: tail := by
  obtain ⟨later, less, inside⟩ := mem_rows listed
  have found : Behind (here ++ [point, later]) fragment := by
    rcases inside with ⟨item, inRow⟩ | between
    · exact behind item later fragment inRow
    · exact behind_separatorAt between
  obtain ⟨first, tail, position⟩ := found
  exact ⟨later, first :: tail, less, by rw [position]; simp⟩

/-- All that is emitted for a body stands behind its position. -/
theorem behind_emitBody (levels : Nat) : ∀ {body : Option ScopeId} {outer : Bindings}
    {here : Position}, ∀ fragment ∈ rendering.emitBody levels body outer here,
      Behind here fragment := by
  induction levels with
  | zero =>
    intro body outer here fragment listed
    cases listed
  | succ levels ih =>
    intro body outer here fragment listed
    rw [emitBody] at listed
    rcases List.mem_append.mp listed with repeated | value
    · obtain ⟨array, -, inside⟩ := List.mem_flatMap.mp repeated
      rcases List.mem_append.mp inside with opening | rows
      · exact ⟨_, [], position_of_mem_literal opening⟩
      · obtain ⟨later, tail, -, position⟩ :=
          position_of_mem_rows (fun item index fragment inRow => ih fragment inRow) rows
        exact ⟨_, later :: tail, position⟩
    · obtain ⟨item, -, rfl⟩ := List.mem_map.mp value
      exact ⟨_, [], rfl⟩

/-! ## Rows -/

/-- A row stands before all later ones. -/
theorem positions_of_rows {row : Value → Nat → List Fragment} {array : Member} {last : Bool}
    {here : Position} {point index : Nat} {item : Value} {items : List Value}
    (behind : ∀ item index, ∀ fragment ∈ row item index, Behind (here ++ [point, index]) fragment)
    {a b : Fragment} (first : a ∈ row item index ++
      (rendering.separatorItems array last).map (Item.fragment (here ++ [point, index])))
    (second : b ∈ rows row (fun index => rendering.separatorAt array (here ++ [point, index]))
      (index + 1) items) :
    ∃ later tail other, index < later ∧ a.position = (here ++ [point]) ++ index :: tail ∧
      b.position = (here ++ [point]) ++ later :: other := by
  have early : Behind (here ++ [point, index]) a := by
    rcases List.mem_append.mp first with inRow | between
    · exact behind item index a inRow
    · obtain ⟨separator, -, rfl⟩ := List.mem_map.mp between
      exact behind_fragment _ separator
  rcases early with ⟨start, tail, position⟩
  rcases position_of_mem_rows behind second with ⟨later, otherTail, less, otherPosition⟩
  exact ⟨later, start :: tail, otherTail, less, by rw [position]; simp, by rw [otherPosition]; simp⟩

/-- The rows of a repetition are shown one after the other. -/
theorem documentText_rows {row : Value → Nat → List Fragment} {array : Member}
    {shown : Value → Bool → String} {here : Position} {point : Nat}
    (behind : ∀ item index, ∀ fragment ∈ row item index, Behind (here ++ [point, index]) fragment)
    {items : List Value} (single : ∀ item ∈ items, ∀ index last,
      Fragment.documentText (row item index ++
        (rendering.separatorItems array last).map (Item.fragment (here ++ [point, index]))) =
        shown item last) :
    ∀ index, Fragment.documentText (rows row
        (fun index => rendering.separatorAt array (here ++ [point, index])) index items) =
      rowTexts shown items := by
  induction items with
  | nil => intro index; rfl
  | cons item more ih =>
    intro index
    have onward := ih (fun other listed => single other (.tail _ listed)) (index + 1)
    rw [rows, separatorAt_eq, Fragment.documentText_append, onward, single item (.head _), rowTexts]
    intro a first b second
    rcases positions_of_rows behind first second with
      ⟨later, tail, other, less, position, otherPosition⟩
    unfold Fragment.atMost
    rw [position, otherPosition, Position.atMost_append]
    exact Position.atMost_cons_of_lt less _ _

/-! ## Bodies -/

theorem pairwise_arraysIn (rooted : Rooted rendering.outline)
    (apart : PointsApart rendering.outline) (body : Option ScopeId) :
    (rendering.arraysIn body).Pairwise fun left right =>
      left.scope.opened.point ≠ right.scope.opened.point := by
  have rising := (Outline.pairwise_members rendering.outline body).filter
    fun member => member.scope.isArray
  refine rising.imp_of_mem fun first second less same => ?_
  obtain ⟨inside, kind⟩ := inside_of_mem_arraysIn rooted first
  obtain ⟨otherInside, otherKind⟩ := inside_of_mem_arraysIn rooted second
  have equal := apart _ _ _ _ _ _ inside.found otherInside.found kind otherKind inside.link
    otherInside.link (inside.around.trans otherInside.around.symm) same
  exact Nat.ne_of_lt less equal

/-- The groups of what is emitted for a body with separators in it. -/
def groupsOf (rendering : Rendering) (body : Option ScopeId) (inside : Bindings) (here : Position)
    (separators : List Item) (rowsOf : Member → List Fragment) : List (Nat × List Fragment) :=
  ((rendering.arraysIn body).map fun array =>
      (array.scope.opened.point,
        literal here array.scope.opened.point (rendering.openingOf array))) ++
    (rendering.valueItems body inside ++ separators).map (fun item =>
      (item.point, [item.fragment here])) ++
    (rendering.arraysIn body).map fun array => (array.scope.opened.point, rowsOf array)

theorem flatMap_groupsOf (body : Option ScopeId) (inside : Bindings) (here : Position)
    (separators : List Item) (rowsOf : Member → List Fragment) :
    (rendering.groupsOf body inside here separators rowsOf).flatMap Prod.snd =
      ((rendering.arraysIn body).flatMap fun array =>
          literal here array.scope.opened.point (rendering.openingOf array)) ++
        (rendering.valueItems body inside ++ separators).map (Item.fragment here) ++
        (rendering.arraysIn body).flatMap rowsOf := by
  unfold groupsOf
  rw [List.flatMap_append, List.flatMap_append, List.flatMap_map, List.flatMap_map,
    List.flatMap_map, List.map_eq_flatMap (f := Item.fragment here)]

/-- What is emitted for a body with separators in it, from the rows of its
repetitions. -/
def bodyOf (rendering : Rendering) (body : Option ScopeId) (inside : Bindings) (here : Position)
    (separators : List Item) (rowsOf : Member → List Fragment) : List Fragment :=
  ((rendering.arraysIn body).flatMap fun array =>
      literal here array.scope.opened.point (rendering.openingOf array) ++ rowsOf array) ++
    (rendering.valueItems body inside ++ separators).map (Item.fragment here)

/-- The rows of every repetition of a body stand behind its point. -/
def InRows (rendering : Rendering) (body : Option ScopeId) (here : Position)
    (rowsOf : Member → List Fragment) : Prop :=
  ∀ array ∈ rendering.arraysIn body, ∀ fragment ∈ rowsOf array, ∃ index tail,
    fragment.position = here ++ array.scope.opened.point :: index :: tail

section Items

variable {body : Option ScopeId} {inside : Bindings} {here : Position} {separators : List Item}
  {rowsOf : Member → List Fragment}

theorem isItem_of_mem_literal {point : Nat} {text : String} {fragment : Fragment}
    (listed : fragment ∈ literal here point text) : isItem here fragment = true :=
  isItem_of_position (position_of_mem_literal listed)

theorem isItem_of_mem_map {items : List Item} {fragment : Fragment}
    (listed : fragment ∈ items.map (Item.fragment here)) : isItem here fragment = true := by
  obtain ⟨shown, -, rfl⟩ := List.mem_map.mp listed
  exact isItem_of_position rfl

theorem InRows.isItem (inRows : rendering.InRows body here rowsOf) {array : Member}
    (among : array ∈ rendering.arraysIn body) {fragment : Fragment}
    (row : fragment ∈ rowsOf array) : isItem here fragment = false := by
  obtain ⟨index, tail, position⟩ := inRows array among fragment row
  exact isItem_of_longer position

theorem InRows.behind (inRows : rendering.InRows body here rowsOf) {fragment : Fragment}
    (listed : fragment ∈ rendering.bodyOf body inside here separators rowsOf) :
    Behind here fragment := by
  rcases List.mem_append.mp listed with repeated | item
  · obtain ⟨array, among, inside⟩ := List.mem_flatMap.mp repeated
    rcases List.mem_append.mp inside with opening | row
    · exact ⟨_, [], position_of_mem_literal opening⟩
    · obtain ⟨index, tail, position⟩ := inRows array among fragment row
      exact ⟨_, index :: tail, position⟩
  · obtain ⟨shown, -, rfl⟩ := List.mem_map.mp item
    exact behind_fragment here shown

/-- The items among what is emitted for a body. -/
theorem InRows.filter_isItem (inRows : rendering.InRows body here rowsOf) :
    (rendering.bodyOf body inside here separators rowsOf).filter (Meaning.isItem here) =
      ((rendering.arraysIn body).flatMap fun array =>
          literal here array.scope.opened.point (rendering.openingOf array)) ++
        (rendering.valueItems body inside ++ separators).map (Item.fragment here) := by
  unfold bodyOf
  rw [List.filter_append, List.filter_flatMap,
    List.filter_eq_self.mpr fun _ listed => isItem_of_mem_map listed]
  congr 1
  refine List.flatMap_congr fun array among => ?_
  have none : (rowsOf array).filter (Meaning.isItem here) = [] :=
    List.filter_eq_nil_iff.mpr fun _ row => by simp [inRows.isItem among row]
  rw [List.filter_append, none, List.append_nil,
    List.filter_eq_self.mpr fun _ listed => isItem_of_mem_literal listed]

/-- What is left are the rows. -/
theorem InRows.filter_not_isItem (inRows : rendering.InRows body here rowsOf) :
    ((rendering.bodyOf body inside here separators rowsOf).filter fun fragment =>
      !Meaning.isItem here fragment) = (rendering.arraysIn body).flatMap rowsOf := by
  have none : ((rendering.valueItems body inside ++ separators).map
      (Item.fragment here)).filter (fun fragment => !Meaning.isItem here fragment) = [] :=
    List.filter_eq_nil_iff.mpr fun _ listed => by simp [isItem_of_mem_map listed]
  unfold bodyOf
  rw [List.filter_append, List.filter_flatMap, none, List.append_nil]
  refine List.flatMap_congr fun array among => ?_
  have noOpening : (literal here array.scope.opened.point (rendering.openingOf array)).filter
      (fun fragment => !Meaning.isItem here fragment) = [] :=
    List.filter_eq_nil_iff.mpr fun _ listed => by simp [isItem_of_mem_literal listed]
  rw [List.filter_append, noOpening, List.nil_append]
  exact List.filter_eq_self.mpr fun _ row => by simp [inRows.isItem among row]

/-- The items of a body come out of its repetitions, and its rows in between. -/
theorem documentText_bodyOf (inRows : rendering.InRows body here rowsOf) :
    Fragment.documentText (rendering.bodyOf body inside here separators rowsOf) =
      Fragment.documentText
        ((rendering.groupsOf body inside here separators rowsOf).flatMap Prod.snd) := by
  let emitted := rendering.bodyOf body inside here separators rowsOf
  have ranks : orderBy Fragment.atMost (emitted.filter (isItem here) ++
      emitted.filter fun fragment => !isItem here fragment) =
        orderBy Fragment.atMost emitted :=
    orderBy_filter_append fun _ member _ other item inRow =>
      commute_of_isItem (inRows.behind member) (inRows.behind other) item inRow
  rw [inRows.filter_isItem, inRows.filter_not_isItem] at ranks
  rw [flatMap_groupsOf, Fragment.documentText_eq, Fragment.documentText_eq, ranks]

theorem grouped_groupsOf (rooted : Rooted rendering.outline)
    (apart : PointsApart rendering.outline) (inRows : rendering.InRows body here rowsOf) :
    Grouped here (rendering.groupsOf body inside here separators rowsOf) := by
  refine grouped_append ?_ ?_ ?_
  · intro group listed fragment member
    rcases List.mem_append.mp listed with opening | item
    · obtain ⟨array, -, rfl⟩ := List.mem_map.mp opening
      exact position_of_mem_literal member
    · obtain ⟨shown, -, rfl⟩ := List.mem_map.mp item
      rw [List.mem_singleton.mp member]
      rfl
  · intro group listed fragment member
    obtain ⟨array, among, rfl⟩ := List.mem_map.mp listed
    obtain ⟨index, tail, position⟩ := inRows array among fragment member
    exact ⟨index :: tail, position⟩
  · rw [List.pairwise_map]
    exact pairwise_arraysIn rooted apart body

/-- The groups of a body are shown as its items. -/
theorem map_groupsOf :
    ((rendering.groupsOf body inside here separators rowsOf).map fun group =>
      (⟨group.1, Fragment.documentText group.2⟩ : Item)) =
      rendering.openingItems body ++ (rendering.valueItems body inside ++ separators) ++
        (rendering.arraysIn body).map fun array =>
          ⟨array.scope.opened.point, Fragment.documentText (rowsOf array)⟩ := by
  unfold groupsOf
  rw [List.map_append, List.map_append, List.map_map, List.map_map, List.map_map]
  congr 2
  · exact List.map_congr_left fun array _ => by simp [documentText_literal]
  · conv_rhs => rw [← List.map_id (rendering.valueItems body inside ++ separators)]
    exact List.map_congr_left fun item _ => by
      simp [Fragment.documentText_singleton, Item.fragment]

end Items

/-- What is emitted for the rows of a repetition. -/
def rowsEmitted (rendering : Rendering) (levels : Nat) (inside : Bindings) (here : Position)
    (array : Member) : List Fragment :=
  rows (fun item index =>
      rendering.emitBody levels (some array.id) (inside.bind array.id (some item))
        (here ++ [array.scope.opened.point, index]))
    (fun index => rendering.separatorAt array (here ++ [array.scope.opened.point, index]))
    0 (elementsOf array inside)

theorem emitBody_eq_bodyOf (levels : Nat) (body : Option ScopeId) (outer : Bindings)
    (here : Position) (separators : List Item) :
    rendering.emitBody (levels + 1) body outer here ++ separators.map (Item.fragment here) =
      rendering.bodyOf body (rendering.bindObjects body outer) here separators
        (rendering.rowsEmitted levels (rendering.bindObjects body outer) here) := by
  rw [emitBody, bodyOf, List.map_append, ← List.append_assoc, valueItems, List.map_map]
  rfl

theorem inRows_rowsEmitted (levels : Nat) (body : Option ScopeId) (inside : Bindings)
    (here : Position) :
    rendering.InRows body here (rendering.rowsEmitted levels inside here) := by
  intro array _ fragment row
  obtain ⟨index, tail, -, position⟩ :=
    position_of_mem_rows (fun item index fragment inRow =>
      behind_emitBody levels fragment inRow) row
  exact ⟨index, tail, position⟩

/-- What is emitted for a body, with separators in it, is shown as its document. -/
theorem documentText_emitBody (rooted : Rooted rendering.outline)
    (apart : PointsApart rendering.outline) (levels : Nat) :
    ∀ {body : Option ScopeId}, IsBody rendering.outline body → rendering.Enough levels body →
      ∀ (outer : Bindings) (here : Position) (separators : List Item),
        Fragment.documentText (rendering.emitBody levels body outer here ++
            separators.map (Item.fragment here)) =
          rendering.expandBody levels body outer separators := by
  induction levels with
  | zero =>
    intro body isBody enough
    exact absurd enough (not_enough_zero rooted isBody)
  | succ levels ih =>
    intro body isBody enough outer here separators
    let inside := rendering.bindObjects body outer
    have inRows := rendering.inRows_rowsEmitted levels body inside here
    have rowsShown : ∀ array ∈ rendering.arraysIn body,
        Fragment.documentText (rendering.rowsEmitted levels inside here array) =
          rowTexts (fun item last =>
            rendering.expandBody levels (some array.id) (inside.bind array.id (some item))
              (rendering.separatorItems array last)) (elementsOf array inside) := by
      intro array among
      have kind := inside_of_mem_arraysIn rooted among
      refine documentText_rows (fun item index fragment inRow =>
        behind_emitBody levels fragment inRow) (fun item _ index last => ?_) 0
      exact ih (kind.1.isBody kind.2) (enough.inner rooted isBody among) _ _ _
    rw [emitBody_eq_bodyOf, documentText_bodyOf inRows,
      documentText_flatMap (grouped_groupsOf rooted apart inRows), map_groupsOf, expandBody,
      ← List.append_assoc (rendering.openingItems body)]
    congr 2
    exact List.map_congr_left fun array among =>
      congrArg (Item.mk array.scope.opened.point) (rowsShown array among)

/-! ## Whole documents -/

/-- The points of a body are those of its repetitions and values. -/
theorem point_of_mem_emitBody {levels : Nat} {body : Option ScopeId} {outer : Bindings}
    {here : Position} {fragment : Fragment}
    (listed : fragment ∈ rendering.emitBody levels body outer here) :
    ∃ point tail, fragment.position = here ++ point :: tail ∧
      ((∃ array ∈ rendering.arraysIn body, array.scope.opened.point = point) ∨
        ∃ item ∈ rendering.slotsIn body, item.1.place.point = point) := by
  cases levels with
  | zero => cases listed
  | succ levels =>
    rw [emitBody] at listed
    rcases List.mem_append.mp listed with repeated | value
    · obtain ⟨array, among, inside⟩ := List.mem_flatMap.mp repeated
      rcases List.mem_append.mp inside with opening | rows
      · exact ⟨_, [], position_of_mem_literal opening, .inl ⟨array, among, rfl⟩⟩
      · obtain ⟨later, tail, -, position⟩ :=
          position_of_mem_rows (fun item index fragment inRow =>
            behind_emitBody levels fragment inRow) rows
        exact ⟨_, later :: tail, position, .inl ⟨array, among, rfl⟩⟩
    · obtain ⟨item, among, rfl⟩ := List.mem_map.mp value
      exact ⟨_, [], rfl, .inr ⟨item, among, rfl⟩⟩

theorem le_lastPoint_of_mem_emitBody (pointed : Pointed rendering.outline)
    (rooted : Rooted rendering.outline) {levels : Nat} {body : Option ScopeId} {outer : Bindings}
    {fragment : Fragment} (listed : fragment ∈ rendering.emitBody levels body outer []) :
    ∃ point tail, fragment.position = point :: tail ∧ point ≤ rendering.outline.lastPoint := by
  obtain ⟨point, tail, position, origin⟩ := point_of_mem_emitBody listed
  refine ⟨point, tail, position, ?_⟩
  rcases origin with ⟨array, among, rfl⟩ | ⟨item, among, rfl⟩
  · exact pointed.opened _ _ (inside_of_mem_arraysIn rooted among).1.found
  · obtain ⟨numbered, -⟩ := List.mem_filter.mp among
    have found := List.mk_mem_zipIdx_iff_getElem?.mp numbered
    exact pointed.placed item.2 item.1 (by simpa using found)

/-- What is emitted for a document, in order, is the document. -/
theorem documentText_fragments (rooted : Rooted rendering.outline)
    (pointed : Pointed rendering.outline) (unbound : Bindings) (data : Value) :
    Fragment.documentText (rendering.fragments unbound data) =
      rendering.expansion unbound data := by
  have isBody := Outline.isBody_none rendering.outline
  have enough := rendering.enough_size none
  have body := documentText_emitBody rooted (pointed.pointsApart rooted) _ isBody enough
    (unbound.start (payload data)) [] []
  rw [List.map_nil, List.append_nil] at body
  unfold fragments expansion emitted
  rw [Fragment.documentText_append, Fragment.documentText_append, documentText_literal,
    documentText_literal, body]
  · intro a first b second
    obtain ⟨point, tail, position, -⟩ := le_lastPoint_of_mem_emitBody pointed rooted second
    have compared : Position.atMost ([] ++ [0]) ([] ++ point :: tail) = decide (0 ≤ point) :=
      atMost_of_points (.inl rfl)
    unfold Fragment.atMost
    rw [position_of_mem_literal first, position]
    exact compared.trans (decide_eq_true (Nat.zero_le _))
  · intro a first b second
    unfold Fragment.atMost
    rw [position_of_mem_literal second]
    rcases List.mem_append.mp first with before | inBody
    · rw [position_of_mem_literal before]
      exact Position.atMost_cons_of_lt (Nat.succ_pos _) _ _
    · obtain ⟨point, tail, position, least⟩ := le_lastPoint_of_mem_emitBody pointed rooted inBody
      rw [position]
      exact Position.atMost_cons_of_lt (Nat.lt_succ_of_le least) _ _

end Rendering

end Stencil.Meaning
