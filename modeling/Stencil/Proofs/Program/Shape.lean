import Stencil.Proofs.Program.Placement
import Stencil.Proofs.Program.Reordered

namespace Stencil

open Outline (Rooted IsBody ParentsFirst)

/-!
# The code has the shape of the outline

The code of a program can be read without the block it was made of.  Its loops are well
bracketed.  Every slot that is not omitted is emitted by one instruction, and the innermost
loop around that runs over the dimension of the slot.  No scope is given a value before its
parent has one, and the parent keeps it where it is needed.  All this holds in whatever order
the scopes were compiled, also if it names a scope more than once.
-/

namespace Program

variable {program : Program} {outline : Outline} {order : List ScopeId} {layout : Layout}
  {escape : Escape}

/-- The instruction at an address emits a slot. -/
def Emits (program : Program) (outline : Outline) (layout : Layout) (item : Slot × SlotId)
    (address : Nat) : Prop :=
  ∃ index : Nat, (keptSlots outline layout)[index]? = some item ∧
    program.insertions[index]? = some (placedOf outline layout item).insertion ∧
    program.code[address]? = some (.insert index)

/-- The code of a program has the shape of an outline that is laid out. -/
structure Shaped (program : Program) (outline : Outline) (layout : Layout) : Prop where
  bracketed : program.WellBracketed
  emitted : ∀ (id : SlotId) slot, outline.slots[id]? = some slot → layout.omits id = false →
    ∃ address, program.Emits outline layout (slot, id) address ∧
      (∀ other, program.Emits outline layout (slot, id) other → other = address) ∧
      program.Innermost (layout.host outline id) address
  /-- Nothing but slots is emitted. -/
  kept : ∀ address index : Nat, program.code[address]? = some (.insert index) →
    ∃ item, outline.slots[item.2]? = some item.1 ∧ layout.omits item.2 = false ∧
      program.Emits outline layout item address
  provided : ∀ (address : Nat) instruction scope parent,
    program.code[address]? = some instruction → instruction.gives? = some (scope, parent) →
      Child outline scope parent ∧ (parent = Outline.root ∨ program.Provided parent address)

/-! ## Slots -/

/-- The slots that are emitted are those that are not omitted. -/
theorem mem_keptSlots {item : Slot × SlotId} :
    item ∈ keptSlots outline layout ↔
      outline.slots[item.2]? = some item.1 ∧ layout.omits item.2 = false := by
  rw [keptSlots, List.mem_filter, Bool.not_eq_true', ← Array.getElem?_toList]
  exact and_congr_left' List.mk_mem_zipIdx_iff_getElem?

/-- No slot is emitted twice. -/
theorem nodup_keptSlots (outline : Outline) (layout : Layout) :
    (keptSlots outline layout).Nodup := by
  refine List.Nodup.filter _ (List.Nodup.of_map Prod.snd ?_)
  rw [List.zipIdx_map_snd]
  exact List.nodup_range'

section Inserted

variable {placed : List Placed} {index : Nat} {one : Placed}

theorem inserted_mem_ownItems {host : Option ScopeId} :
    Item.inserted index ∈ ownItems outline order placed.zipIdx host ↔
      ∃ one, placed[index]? = some one ∧ one.host = host := by
  rw [mem_ownItems]
  constructor
  · rintro (⟨_, -, -, ⟨⟩⟩ | ⟨_, -, -, ⟨⟩⟩ | ⟨⟨one, _⟩, listed, hosted, ⟨⟩⟩)
    exact ⟨one, List.mk_mem_zipIdx_iff_getElem?.mp listed, hosted⟩
  · rintro ⟨one, found, hosted⟩
    exact .inr (.inr ⟨(one, index), List.mk_mem_zipIdx_iff_getElem?.mpr found, hosted, rfl⟩)

/-- Its own body emits a slot once. -/
theorem count_inserted (found : placed[index]? = some one) :
    (ownItems outline order placed.zipIdx one.host).count (.inserted index) = 1 := by
  rw [ownItems, (count_kinds _ _ _ index).2.2]
  apply List.count_eq_one_of_mem
  · have numbers : (placed.zipIdx.map Prod.snd).Nodup := by
      rw [List.zipIdx_map_snd]
      exact List.nodup_range'
    exact numbers.sublist (List.filter_sublist.map _)
  · refine List.mem_map.mpr ⟨(one, index), List.mem_filter.mpr ⟨?_, beq_self_eq_true _⟩, rfl⟩
    exact List.mk_mem_zipIdx_iff_getElem?.mpr found

end Inserted

/-! ## Statements in the code -/

theorem item?_eq_inserted {instruction : Instruction} {index : Nat} :
    instruction.item? = some (.inserted index) ↔ instruction = .insert index := by
  cases instruction <;> simp [Instruction.item?]

/-- The slots that are not omitted have their insertions, in the same order. -/
theorem CompiledFrom.getElem?_insertions
    (compiled : CompiledFrom program outline order layout escape) {index : Nat}
    {item : Slot × SlotId} (listed : (keptSlots outline layout)[index]? = some item) :
    program.insertions[index]? = some (placedOf outline layout item).insertion := by
  refine compiled.numbered (placedOf outline layout item, index)
    (List.mk_mem_zipIdx_iff_getElem?.mpr ?_)
  rw [List.getElem?_map, listed, Option.map_some]

/-- An emitted slot is one that is not omitted. -/
theorem CompiledFrom.exists_slot
    (compiled : CompiledFrom program outline order layout escape) (rooted : Rooted outline)
    {address index : Nat} (fetched : program.code[address]? = some (.insert index)) :
    ∃ item, (keptSlots outline layout)[index]? = some item ∧
      program.insertions[index]? = some (placedOf outline layout item).insertion ∧
      program.Innermost (layout.host outline item.2) address := by
  rcases compiled.exists_body rooted fetched rfl with ⟨host, -, own, innermost⟩
  rcases inserted_mem_ownItems.mp own with ⟨one, found, rfl⟩
  rw [List.getElem?_map] at found
  rcases Option.map_eq_some_iff.mp found with ⟨item, listed, rfl⟩
  exact ⟨item, listed, compiled.getElem?_insertions listed, innermost⟩

/-- A slot that is not omitted is emitted at one address. -/
theorem CompiledFrom.exists_address
    (compiled : CompiledFrom program outline order layout escape) (rooted : Rooted outline)
    (complete : ∀ id < outline.scopes.size, id ∈ order) {item : Slot × SlotId} {index : Nat}
    (isBody : IsBody outline (layout.host outline item.2))
    (listed : (keptSlots outline layout)[index]? = some item) :
    ∃ address : Nat, program.code[address]? = some (.insert index) ∧
      ∀ other : Nat, program.code[other]? = some (.insert index) → other = address := by
  have found : ((keptSlots outline layout).map (placedOf outline layout))[index]? =
      some (placedOf outline layout item) := by
    rw [List.getElem?_map, listed, Option.map_some]
  have counted : (program.code.toList.filterMap Instruction.item?).count (.inserted index) = 1 := by
    rw [compiled.count_code rooted complete isBody]
    · exact count_inserted found
    · intro other _ own
      rcases inserted_mem_ownItems.mp own with ⟨one, same, rfl⟩
      rw [found] at same
      rw [← Option.some.inj same]
      rfl
  rcases exists_only_of_count_eq_one counted with ⟨address, instruction, fetched, begins, only⟩
  rw [Array.getElem?_toList] at fetched
  rw [item?_eq_inserted.mp begins] at fetched
  refine ⟨address, fetched, fun other again => only other _ ?_ (item?_eq_inserted.mpr rfl)⟩
  rw [Array.getElem?_toList, again]

/-- What is compiled from an outline has its shape. -/
theorem CompiledFrom.shaped
    (compiled : CompiledFrom program outline order layout escape) (rooted : Rooted outline)
    (complete : ∀ id < outline.scopes.size, id ∈ order) (turn : ParentsFirst outline order)
    (hosts : ∀ id, IsBody outline (layout.host outline id)) : program.Shaped outline layout := by
  refine ⟨wellBracketed_of_block compiled.code, ?_, ?_, ?_⟩
  · intro id slot found kept
    have member : (slot, id) ∈ keptSlots outline layout := mem_keptSlots.mpr ⟨found, kept⟩
    rcases List.mem_iff_getElem?.mp member with ⟨index, listed⟩
    rcases compiled.exists_address rooted complete (hosts id) listed with ⟨address, fetched, only⟩
    rcases compiled.exists_slot rooted fetched with ⟨item, same, insertion, innermost⟩
    rw [listed] at same
    cases same
    refine ⟨address, ⟨index, listed, insertion, fetched⟩, ?_, innermost⟩
    rintro other ⟨otherIndex, again, -, otherFetched⟩
    have bound := (List.getElem?_eq_some_iff.mp listed).1
    have same : index = otherIndex :=
      (List.getElem?_inj bound (nodup_keptSlots outline layout)).mp (listed.trans again.symm)
    rw [← same] at otherFetched
    exact only other otherFetched
  · intro address index fetched
    rcases compiled.exists_slot rooted fetched with ⟨item, listed, insertion, -⟩
    have known := mem_keptSlots.mp (List.mem_of_getElem? listed)
    exact ⟨item, known.1, known.2, index, listed, insertion, fetched⟩
  · intro address instruction scope parent fetched gives
    exact compiled.provided rooted turn fetched gives

end Program

/-- A layout of an outline: text around the document only, or a text that is laid out. -/
def Layout.LaysOut (layout : Layout) (outline : Outline) : Prop :=
  (∃ before after, layout = .surrounding before after) ∨
    ∃ text, Layout.ofText outline text = .ok layout

/-- The code compiled from markers has the shape of their outline, whatever order it is
compiled in. -/
theorem code_is_shaped (markers : List Marker) (policy : Unterminated) (outline : Outline)
    (order : List ScopeId) (layout : Layout) (settings : Settings) (program : Program)
    (outlined : Outline.ofMarkers markers policy = .ok outline) (laidOut : layout.LaysOut outline)
    (compiled : Program.compile outline order layout settings = .ok program) :
    program.Shaped outline layout := by
  have coherent := Outline.coherent_of_ofMarkers outlined
  have accepted := Program.checkOrder_of_compile compiled
  refine (Program.compile_eq_ok compiled).shaped coherent.rooted
    (Outline.complete_of_checkOrder accepted)
    (Outline.parentsFirst_of_checkOrder coherent.rooted accepted) ?_
  rcases laidOut with ⟨before, after, rfl⟩ | ⟨text, laidOut⟩
  · exact coherent.fitting.plainHosts before after
  · exact coherent.fitting.hosts text layout laidOut

/-- The rooms, compiled with the street in front and with the houses named twice. -/
theorem code_is_shaped_rooms : ∃ outline layout program,
    Outline.ofMarkers roomSource.markers .permissive = .ok outline ∧
    Layout.ofText outline roomSource.text = .ok layout ∧
    Program.compile outline [0, 3, 1, 2, 1] layout {} = .ok program ∧
    program.Shaped outline layout := by
  have made : ((Outline.ofMarkers roomSource.markers .permissive).bind fun outline =>
      (Layout.ofText outline roomSource.text).bind fun layout =>
        Program.compile outline [0, 3, 1, 2, 1] layout {}).isOk = true := by decide +kernel
  rcases exists_of_isOk made with ⟨program, made⟩
  rcases bind_eq_ok.mp made with ⟨outline, outlined, made⟩
  rcases bind_eq_ok.mp made with ⟨layout, laidOut, compiled⟩
  exact ⟨outline, layout, program, outlined, laidOut, compiled,
    code_is_shaped _ _ outline _ layout _ program outlined (.inr ⟨_, laidOut⟩) compiled⟩

end Stencil
