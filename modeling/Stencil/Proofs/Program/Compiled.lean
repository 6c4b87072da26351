import Stencil.Proofs.Outline.Bodies
import Stencil.Proofs.Program.Simulation

namespace Stencil.Program

open Meaning (Bindings Rendering)
open Outline (Rooted IsBody Inside)

/-!
# The block of a body

The block made of a body emits what the body means.  It is also properly scoped:
where a body is entered, the scopes in its dimensions are visible except its own
objects, and the objects follow in an order in which parents come first.
-/

/-! ## Bindings of objects -/

theorem bindings_filter (rest : Block) (members : List Member) :
    bindings rest members =
      bindings rest (members.filter fun member => !member.scope.isArray) := by
  induction members with
  | nil => rfl
  | cons member more ih =>
    cases array : member.scope.isArray with
    | true => simp [bindings, array, ih]
    | false => simp [bindings, array, ih]

theorem emit_bindings (inserts : Block.Inserts) (rest : Block) {objects : List Member}
    (kinds : ∀ member ∈ objects, member.scope.isArray = false) :
    ∀ (outer : Bindings) (here : Position), (bindings rest objects).emit inserts outer here =
      rest.emit inserts (objects.foldl Rendering.bindObject outer) here := by
  induction objects with
  | nil => intro outer here; rfl
  | cons member more ih =>
    intro outer here
    rw [bindings, if_neg (by simp [kinds member (.head _)]), Block.emit,
      ih fun other listed => kinds other (.tail _ listed)]
    rfl

/-- The bindings of objects are properly scoped if the objects come in turn and their
parents are of the current row or among them. -/
theorem scoped_bindings {size : Nat} {reads : Nat → Set ScopeId → Prop} {rest : Block}
    {objects : List Member} (kinds : ∀ member ∈ objects, member.scope.isArray = false)
    (turn : Outline.InTurn objects) :
    ∀ {visible current : Set ScopeId},
      (∀ member ∈ objects, member.id ∉ visible ∧ member.id < size ∧
        member.parent < member.id ∧
        (member.parent ∈ visible ∧ member.parent ∈ current ∨
          ∃ other ∈ objects, other.id = member.parent)) →
      rest.Scoped size reads (visible ∪ {id | ∃ other ∈ objects, other.id = id})
        (current ∪ {id | ∃ other ∈ objects, other.id = id}) →
      (bindings rest objects).Scoped size reads visible current := by
  induction objects with
  | nil =>
    intro visible current _ proper
    simpa [bindings] using proper
  | cons member more ih =>
    intro visible current known proper
    obtain ⟨later, turnMore⟩ := List.pairwise_cons.mp turn
    obtain ⟨fresh, bound, smaller, parent⟩ := known member (.head _)
    have placed : member.parent ∈ visible ∧ member.parent ∈ current := by
      rcases parent with outer | ⟨other, listed, same⟩
      · exact outer
      · exfalso
        rcases List.mem_cons.mp listed with itself | behind
        · rw [itself] at same
          exact Nat.lt_irrefl _ (same ▸ smaller)
        · exact (later other behind).2 same
    have union : ∀ set : Set ScopeId,
        set ∪ {id | ∃ other ∈ member :: more, other.id = id} =
          Insert.insert member.id set ∪ {id | ∃ other ∈ more, other.id = id} := by
      intro set
      ext id
      simp only [List.mem_cons, exists_eq_or_imp, Set.mem_union, Set.mem_ofPred_eq,
        Set.mem_insert_iff, eq_comm (a := id)]
      tauto
    rw [union, union] at proper
    rw [bindings, if_neg (by simp [kinds member (.head _)])]
    refine ⟨placed.1, placed.2, fresh, bound, ?_⟩
    refine ih (fun other listed => kinds other (.tail _ listed)) turnMore ?_ proper
    intro other listed
    obtain ⟨otherFresh, otherBound, otherSmaller, otherParent⟩ := known other (.tail _ listed)
    refine ⟨?_, otherBound, otherSmaller, ?_⟩
    · rw [Set.mem_insert_iff]
      rintro (same | inside)
      · exact (later other listed).1 same
      · exact otherFresh inside
    · rcases otherParent with outer | ⟨third, thirdListed, same⟩
      · exact .inl ⟨Set.mem_insert_of_mem _ outer.1, Set.mem_insert_of_mem _ outer.2⟩
      · rcases List.mem_cons.mp thirdListed with itself | behind
        · rw [itself] at same
          exact .inl ⟨same ▸ Set.mem_insert _ _, same ▸ Set.mem_insert _ _⟩
        · exact .inr ⟨third, behind, same⟩

/-! ## Loops -/

/-- Loops one after the other, before a block. -/
def loopsOf (layout : Layout) (bodyOf : ScopeId → Block) (rest : Block)
    (arrays : List Member) : Block :=
  arrays.foldr (fun member after => loopOf layout member (bodyOf member.id) after) rest

/-- In a list without repetition every array has its loop with its body. -/
theorem loops_eq (layout : Layout) (bodyOf : ScopeId → Block) (rest : Block)
    {members : List Member} (rising : members.Pairwise fun left right => left.id ≠ right.id) :
    ∀ {seen : List ScopeId}, (∀ member ∈ members, member.id ∉ seen) →
      loops layout bodyOf rest seen members =
        loopsOf layout bodyOf rest (members.filter fun member => member.scope.isArray) := by
  induction members with
  | nil => intro seen _; rfl
  | cons member more ih =>
    intro seen unseen
    obtain ⟨different, risingMore⟩ := List.pairwise_cons.mp rising
    have unseenMore : ∀ other ∈ more, other.id ∉ member.id :: seen := by
      intro other listed
      rw [List.mem_cons]
      rintro (same | inside)
      · exact different other listed same.symm
      · exact unseen other (.tail _ listed) inside
    have onward := ih risingMore unseenMore
    have new : seen.contains member.id = false := by
      simpa using unseen member (.head _)
    rw [loops, onward, new]
    cases array : member.scope.isArray with
    | true => simp [loopsOf, array]
    | false => simp [array]

theorem emit_opening (rendering : Rendering) (inserts : Block.Inserts) (member : Member)
    (rest : Block) (inside : Bindings) (here : Position) :
    (opening rendering.layout member rest).emit inserts inside here =
      Rendering.literal here member.scope.opened.point (rendering.openingOf member) ++
        rest.emit inserts inside here := by
  unfold opening Rendering.openingOf Rendering.literal
  cases rendering.layout.row? member.id with
  | none => simp
  | some row =>
    cases empty : row.opening.isEmpty with
    | true => simp [empty]
    | false => simp [empty, Block.emit]

theorem emit_loopsOf (rendering : Rendering) (inserts : Block.Inserts)
    (bodyOf : ScopeId → Block) (rest : Block) (arrays : List Member) (inside : Bindings)
    (here : Position) :
    (loopsOf rendering.layout bodyOf rest arrays).emit inserts inside here =
      (arrays.flatMap fun array =>
        Rendering.literal here array.scope.opened.point (rendering.openingOf array) ++
          Meaning.rows (fun item index =>
              (bodyOf array.id).emit inserts (inside.bind array.id (some item))
                (here ++ [array.scope.opened.point, index]))
            (fun index =>
              rendering.separatorAt array (here ++ [array.scope.opened.point, index]))
            0 (Rendering.elementsOf array inside)) ++
        rest.emit inserts inside here := by
  induction arrays with
  | nil => rfl
  | cons array more ih =>
    unfold loopsOf at ih ⊢
    rw [List.foldr_cons, loopOf, emit_opening, Block.emit, ih, List.flatMap_cons,
      Meaning.keep_eq_kept]
    simp only [List.append_assoc]
    rfl

theorem scoped_opening {size : Nat} {reads : Nat → Set ScopeId → Prop} {layout : Layout}
    {member : Member} {rest : Block} {visible current : Set ScopeId}
    (proper : rest.Scoped size reads visible current) :
    (opening layout member rest).Scoped size reads visible current := by
  unfold opening
  split
  · split
    · exact proper
    · exact proper
  · exact proper

theorem scoped_loopsOf {size : Nat} {reads : Nat → Set ScopeId → Prop} {layout : Layout}
    {bodyOf : ScopeId → Block} {rest : Block} {visible current : Set ScopeId}
    {arrays : List Member}
    (known : ∀ array ∈ arrays, array.parent ∈ visible ∧ array.parent ∈ current ∧
      array.id ∉ visible ∧ array.id < size ∧
      (bodyOf array.id).Scoped size reads (Insert.insert array.id visible) {array.id})
    (proper : rest.Scoped size reads visible current) :
    (loopsOf layout bodyOf rest arrays).Scoped size reads visible current := by
  induction arrays with
  | nil => exact proper
  | cons array more ih =>
    obtain ⟨seen, ofRow, fresh, bound, body⟩ := known array (.head _)
    exact scoped_opening ⟨seen, ofRow, fresh, bound, body,
      ih fun other listed => known other (.tail _ listed)⟩

/-! ## Insertions -/

/-- A slot with the body it is emitted from. -/
def placedOf (outline : Outline) (layout : Layout) (item : Slot × SlotId) : Placed :=
  ⟨layout.host outline item.2, item.1.scope, item.1.field, layout.leading item.2,
    ⟨baseText item.1.path, item.1.calls⟩, item.1.place.point⟩

/-- The slots that are emitted, with their numbers. -/
def keptSlots (outline : Outline) (layout : Layout) : List (Slot × SlotId) :=
  outline.slots.toList.zipIdx.filter fun item => !layout.omits item.2

theorem mapM_placeSlot_eq_ok {outline : Outline} {layout : Layout} {items : List (Slot × SlotId)} :
    ∀ {placed : List Placed}, items.mapM (placeSlot outline layout) = .ok placed →
      placed = items.map (placedOf outline layout) := by
  induction items with
  | nil =>
    intro placed run
    exact mapM_nil_eq_ok.mp run
  | cons item more ih =>
    intro placed run
    obtain ⟨first, rest, made, others, rfl⟩ := mapM_cons_eq_ok.mp run
    have same : first = placedOf outline layout item := by
      unfold placeSlot at made
      simp only at made
      split at made
      · cases made
      · split at made
        · cases made
        · cases made
          rfl
    rw [same, ih others, List.map_cons]

/-- Numbered insertions of a program. -/
def Numbered (program : Program) (items : List (Placed × Nat)) : Prop :=
  ∀ item ∈ items, program.insertions[item.2]? = some item.1.insertion

theorem emit_insertionsOf {program : Program} {registry : Registry} {body : Option ScopeId}
    {items : List (Placed × Nat)} (numbered : Numbered program items) (inside : Bindings)
    (here : Position) :
    (insertionsOf body items).emit (program.inserts registry) inside here =
      (items.filter fun item => item.1.host == body).map fun item =>
        ⟨here ++ [item.1.insertion.point], item.1.insertion.leading ++
          Meaning.insertedText (program.setting registry) inside item.1.insertion.scope
            item.1.insertion.field item.1.insertion.chain.calls⟩ := by
  induction items with
  | nil => rfl
  | cons item more ih =>
    have onward := ih fun other listed => numbered other (.tail _ listed)
    rw [insertionsOf]
    by_cases hosted : item.1.host = body
    · rw [if_pos hosted, Block.emit, onward, List.filter_cons_of_pos (by simpa using hosted),
        List.map_cons]
      unfold inserts
      rw [numbered item (.head _)]
      rfl
    · rw [if_neg hosted, onward, List.filter_cons_of_neg (by simpa using hosted)]

theorem scoped_insertionsOf {size : Nat} {reads : Nat → Set ScopeId → Prop}
    {body : Option ScopeId} {visible current : Set ScopeId} {items : List (Placed × Nat)}
    (readable : ∀ item ∈ items, item.1.host = body → reads item.2 visible) :
    (insertionsOf body items).Scoped size reads visible current := by
  induction items with
  | nil => exact trivial
  | cons item more ih =>
    have onward := ih fun other listed => readable other (.tail _ listed)
    rw [insertionsOf]
    split
    · next hosted => exact ⟨readable item (.head _) hosted, onward⟩
    · exact onward

/-! ## What a compiled program consists of -/

/-- A program compiled from an outline in some order: its code is the block of the top,
and its insertions are the slots that are emitted. -/
structure CompiledFrom (program : Program) (outline : Outline) (order : List ScopeId)
    (layout : Layout) (escape : Escape) : Prop where
  code : program.code = ((block outline order layout
    (((keptSlots outline layout).map (placedOf outline layout)).zipIdx)
    outline.scopes.size none).instructions 0).toArray
  insertions : program.insertions =
    (((keptSlots outline layout).map (placedOf outline layout)).map Placed.insertion).toArray
  parents : program.parents = outline.scopes.map Scope.parent
  before : program.before = layout.before
  after : program.after = layout.after
  afterPoint : program.afterPoint = outline.lastPoint + 1
  escape : program.escape = escape

variable {program : Program} {outline : Outline} {order : List ScopeId} {layout : Layout}
  {escape : Escape}

theorem compile_eq_ok {settings : Settings}
    (compiled : compile outline order layout settings = .ok program) :
    CompiledFrom program outline order layout settings.escape := by
  unfold compile at compiled
  obtain ⟨_, -, compiled⟩ := bind_eq_ok.mp compiled
  obtain ⟨placed, slots, compiled⟩ := bind_eq_ok.mp compiled
  have same : placed = (keptSlots outline layout).map (placedOf outline layout) :=
    mapM_placeSlot_eq_ok slots
  subst same
  cases compiled
  exact ⟨rfl, rfl, rfl, rfl, rfl, rfl, rfl⟩

/-- The formatters of a program are those of the slots that are emitted. -/
theorem CompiledFrom.check_eq_ok (compiled : CompiledFrom program outline order layout escape)
    (registry : Registry) : program.check registry = .ok () ↔
      ∀ item ∈ keptSlots outline layout, ∀ call ∈ item.1.calls,
        registry.contains call.name = true := by
  unfold check
  rw [compiled.insertions, forM_eq_ok, List.map_map, List.forall_mem_map]
  exact forall₂_congr fun item _ => Formatter.Chain.check_eq_ok_iff

theorem CompiledFrom.numbered (compiled : CompiledFrom program outline order layout escape) :
    Numbered program (((keptSlots outline layout).map (placedOf outline layout)).zipIdx) := by
  intro item listed
  obtain ⟨placed, index⟩ := item
  have found := List.mk_mem_zipIdx_iff_getElem?.mp listed
  rw [compiled.insertions]
  simp only [List.getElem?_toArray, List.getElem?_map, found, Option.map_some]

theorem CompiledFrom.setting (compiled : CompiledFrom program outline order layout escape)
    (registry : Registry) :
    program.setting registry = (Rendering.mk outline layout registry escape).setting := by
  unfold Program.setting Rendering.setting
  rw [compiled.parents, compiled.escape]
  congr 1
  funext id
  simp only [Array.getElem?_map]
  cases outline.scopes[id]? <;> rfl

theorem map_filter_zipIdx {α β : Type} (items : List α) (fits : α → Bool) (shown : α → β) :
    (items.zipIdx.filter fun item => fits item.1).map (fun item => shown item.1) =
      (items.filter fits).map shown := by
  have first : items.zipIdx.map Prod.fst = items := List.zipIdx_map_fst 0 items
  conv_rhs => rw [← first, List.filter_map, List.map_map]
  rfl

/-- The insertions of a body are its slots. -/
theorem CompiledFrom.emit_insertions
    (compiled : CompiledFrom program outline order layout escape) (registry : Registry) (body : Option ScopeId) (inside : Bindings) (here : Position) :
    let rendering : Rendering := ⟨outline, layout, registry, escape⟩
    (insertionsOf body (((keptSlots outline layout).map (placedOf outline layout)).zipIdx)).emit
        (program.inserts registry) inside here =
      (rendering.slotsIn body).map fun item =>
        ⟨here ++ [item.1.place.point], rendering.slotText inside item⟩ := by
  intro rendering
  rw [emit_insertionsOf compiled.numbered, compiled.setting registry]
  rw [map_filter_zipIdx _ (fun placed : Placed => placed.host == body) fun placed : Placed =>
    (⟨here ++ [placed.insertion.point], placed.insertion.leading ++
      Meaning.insertedText rendering.setting inside placed.insertion.scope
        placed.insertion.field placed.insertion.chain.calls⟩ : Fragment)]
  unfold keptSlots Rendering.slotsIn
  rw [List.filter_map, List.map_map, List.filter_filter]
  have same : (outline.slots.toList.zipIdx.filter fun item =>
      layout.host outline item.2 == body && !layout.omits item.2) =
        outline.slots.toList.zipIdx.filter fun item =>
          !layout.omits item.2 && layout.host outline item.2 == body :=
    List.filter_congr fun item _ => Bool.and_comm _ _
  exact congrArg (List.map _) same

/-! ## The block of a body -/

/-- The members of a body that are arrays, or that are not, in an order of all scopes. -/
def membersOf (outline : Outline) (order : List ScopeId) (body : Option ScopeId)
    (arrays : Bool) : List Member :=
  (members outline order body).filter fun member => member.scope.isArray == arrays

theorem mem_membersOf {body : Option ScopeId} {arrays : Bool} {member : Member} :
    member ∈ membersOf outline order body arrays ↔
      member ∈ members outline order body ∧ member.scope.isArray = arrays := by
  rw [membersOf, List.mem_filter, beq_iff_eq]

/-- A body with objects and arrays told apart: objects are bound first, and every array
has its loop. -/
theorem block_succ (once : order.Nodup) (layout : Layout) (insertions : List (Placed × Nat))
    (levels : Nat) (body : Option ScopeId) :
    block outline order layout insertions (levels + 1) body =
      bindings (loopsOf layout
          (fun id => block outline order layout insertions levels (some id))
          (insertionsOf body insertions) (membersOf outline order body true))
        (membersOf outline order body false) := by
  have distinct : (members outline order body).Pairwise
      fun left right => left.id ≠ right.id := by
    refine List.Pairwise.filter _ (List.pairwise_filterMap.mpr (once.imp ?_))
    intro left right different first firstMade second secondMade
    rw [(Outline.member?_eq_some.mp firstMade).1, (Outline.member?_eq_some.mp secondMade).1]
    exact different
  unfold membersOf
  simp only [beq_true, beq_false]
  rw [block, loops_eq _ _ _ distinct (by simp), bindings_filter]

/-- The block of a body emits what the body means. -/
theorem CompiledFrom.emit_block
    (compiled : CompiledFrom program outline outline.order layout escape)
    (rooted : Rooted outline) (registry : Registry) (levels : Nat) :
    ∀ (body : Option ScopeId) (outer : Bindings) (here : Position),
      (block outline outline.order layout
          (((keptSlots outline layout).map (placedOf outline layout)).zipIdx) levels body).emit
          (program.inserts registry) outer here =
        (Rendering.mk outline layout registry escape).emitBody levels body outer here := by
  induction levels with
  | zero => intro body outer here; rfl
  | succ levels ih =>
    intro body outer here
    have arrays := Outline.filter_members_order rooted body true
    have objects := Outline.filter_members_order rooted body false
    rw [block_succ (Outline.nodup_order outline), emit_bindings, Rendering.emitBody]
    · rw [emit_loopsOf (Rendering.mk outline layout registry escape),
        compiled.emit_insertions registry]
      unfold membersOf
      rw [arrays, objects]
      simp only [ih, beq_true, beq_false]
      rfl
    · exact fun member listed => (mem_membersOf.mp listed).2

end Stencil.Program
