import Stencil.Proofs.Formatter.Chain
import Stencil.Proofs.Program.Emission

namespace Stencil.Program

open Meaning

/-!
# Single steps of the machine

What the machine needs to know of a block is the code of the block at its address
and the values of the scopes visible there.  This module has the lemmas on single
instructions: how they are fetched, how a step takes a run further, and what the
step of an insertion emits once all formatters are known to exist.
-/

variable {program : Program} {registry : Registry}

/-! ## Code -/

/-- Some instructions stand in the code from an address on. -/
def CodeAt (program : Program) (address : Nat) (instructions : List Instruction) : Prop :=
  instructions <+: program.code.toList.drop address

theorem CodeAt.fetch {address : Nat} {instruction : Instruction} {rest : List Instruction}
    (code : CodeAt program address (instruction :: rest)) :
    program.code[address]? = some instruction := by
  obtain ⟨behind, whole⟩ := code
  have first : (program.code.toList.drop address)[0]? = some instruction := by
    rw [← whole]
    rfl
  rw [List.getElem?_drop] at first
  simpa using first

theorem CodeAt.tail {address : Nat} {instruction : Instruction} {rest : List Instruction}
    (code : CodeAt program address (instruction :: rest)) : CodeAt program (address + 1) rest := by
  obtain ⟨behind, whole⟩ := code
  refine ⟨behind, ?_⟩
  have := congrArg (List.drop 1) whole
  simpa [List.drop_drop, Nat.add_comm] using this

theorem CodeAt.left {address : Nat} {front back : List Instruction}
    (code : CodeAt program address (front ++ back)) : CodeAt program address front :=
  (List.prefix_append front back).trans code

theorem CodeAt.right {address : Nat} {front back : List Instruction}
    (code : CodeAt program address (front ++ back)) :
    CodeAt program (address + front.length) back := by
  obtain ⟨behind, whole⟩ := code
  refine ⟨behind, ?_⟩
  have := congrArg (List.drop front.length) whole
  simpa [List.drop_drop, Nat.add_comm] using this

/-! ## Runs -/

/-- So many steps lead from one state to another, whatever fuel there is
besides. -/
def Reaches (program : Program) (registry : Registry) (steps : Nat) (before after : State) :
    Prop :=
  ∀ fuel, program.runFor registry (fuel + steps) before = program.runFor registry fuel after

theorem Reaches.refl (state : State) : Reaches program registry 0 state state :=
  fun _ => rfl

theorem Reaches.trans {first second : Nat} {before between after : State}
    (early : Reaches program registry first before between)
    (late : Reaches program registry second between after) :
    Reaches program registry (first + second) before after := by
  intro fuel
  rw [Nat.add_comm first second, ← Nat.add_assoc, early, late]

theorem reaches_of_step {before after : State} {instruction : Instruction}
    (fetched : program.code[before.address]? = some instruction)
    (taken : program.step registry before instruction = .ok after) :
    Reaches program registry 1 before after := by
  intro fuel
  rw [runFor, fetched]
  simp only [taken]

/-! ## Tables -/

/-- The position of what is emitted in a state, but for the point. -/
def State.here (state : State) : Position :=
  state.loops.reverse.flatMap fun loop => [loop.point, loop.index]

/-- The table has the values of the visible scopes. -/
def Agrees (visible : Set ScopeId) (bindings : Bindings) (state : State) : Prop :=
  ∀ id ∈ visible, state.valueOf id = bindings id

theorem valueOf_assign_self {state : State} {scope : ScopeId} {value : Option Value}
    (bound : scope < state.values.size) : (state.assign scope value).valueOf scope = value := by
  simp [State.valueOf, State.assign, bound]

theorem valueOf_assign_of_ne {state : State} {scope other : ScopeId} {value : Option Value}
    (different : other ≠ scope) :
    (state.assign scope value).valueOf other = state.valueOf other := by
  simp [State.valueOf, State.assign, Array.getElem?_setIfInBounds_ne (Ne.symm different)]

/-- Binding one more scope in the table and in the bindings. -/
theorem Agrees.bind {visible : Set ScopeId} {bindings : Bindings} {state : State}
    (agrees : Agrees visible bindings state) {scope : ScopeId} (value : Option Value)
    (bound : scope < state.values.size) :
    Agrees (Insert.insert scope visible) (bindings.bind scope value)
      (state.assign scope value) := by
  intro id member
  by_cases same : id = scope
  · subst same
    rw [valueOf_assign_self bound]
    simp [Bindings.bind]
  · rw [valueOf_assign_of_ne same, agrees id (Set.mem_of_mem_insert_of_ne member same)]
    simp [Bindings.bind, same]

/-! ## Insertions -/

/-- The setting of a program: parents are those it was compiled with. -/
def setting (program : Program) (registry : Registry) : Setting :=
  ⟨registry, program.escape, fun id => (program.parents[id]?).join⟩

/-- What an insertion of a program emits. -/
def inserts (program : Program) (registry : Registry) : Block.Inserts :=
  fun index bindings here =>
    match program.insertions[index]? with
    | none => []
    | some insertion =>
      [⟨here ++ [insertion.point], insertion.leading ++
        Meaning.insertedText (program.setting registry) bindings insertion.scope insertion.field
          insertion.chain.calls⟩]

/-- An insertion reads its scope and those around it. -/
def Reads (program : Program) (index : Nat) (visible : Set ScopeId) : Prop :=
  ∃ insertion, program.insertions[index]? = some insertion ∧
    ∀ up scope, program.ancestor? up insertion.scope = some scope → scope ∈ visible

theorem above_setting (up : Nat) (scope : ScopeId) :
    above (program.setting registry).parentOf up scope = program.ancestor? up scope := by
  induction up generalizing scope with
  | zero => rfl
  | succ up ih =>
    rw [above, ancestor?]
    congr 1
    funext parent
    exact ih parent

theorem chain_check_of_check {insertion : Insertion} {index : Nat}
    (checked : program.check registry = .ok ())
    (found : program.insertions[index]? = some insertion) :
    insertion.chain.check registry = .ok () :=
  forM_eq_ok.mp checked insertion (Array.mem_toList_iff.mpr (Array.mem_of_getElem? found))

/-- An insertion whose scopes are visible emits what it does under the
bindings. -/
theorem step_insert {index : Nat} {visible : Set ScopeId} {bindings : Bindings}
    {state : State} (checked : program.check registry = .ok ())
    (reads : Reads program index visible) (agrees : Agrees visible bindings state) :
    program.step registry state (.insert index) =
      .ok { state with
        address := state.address + 1
        emitted := (program.inserts registry index bindings state.here).reverse ++
          state.emitted } := by
  obtain ⟨insertion, found, reads⟩ := reads
  have own : state.valueOf insertion.scope = bindings insertion.scope :=
    agrees _ (reads 0 _ rfl)
  have around : program.fieldAbove state insertion.scope =
      Meaning.fieldAbove (program.setting registry).parentOf bindings insertion.scope := by
    funext up name
    unfold Program.fieldAbove Meaning.fieldAbove
    rw [above_setting]
    cases outer : program.ancestor? up insertion.scope with
    | none => rfl
    | some scope => rw [Option.bind_some, Option.bind_some, agrees scope (reads up scope outer)]
  have text : program.insertedText registry state insertion =
      .ok (Meaning.insertedText (program.setting registry) bindings insertion.scope
        insertion.field insertion.chain.calls) := by
    unfold Program.insertedText Meaning.insertedText
    rw [own]
    cases (bindings insertion.scope).bind fun value => value.field? insertion.field with
    | none => rfl
    | some value =>
      have formatted : insertion.chain.apply registry (program.fieldAbove state insertion.scope)
          value = _ := Formatter.Chain.apply_of_check (chain_check_of_check checked found) value
      cases value with
      | null => rfl
      | _ =>
        simp only
        rw [formatted, around]
        rfl
  unfold step inserts
  simp only [found]
  rw [text]
  rfl

end Stencil.Program
