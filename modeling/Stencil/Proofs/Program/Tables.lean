import Stencil.Proofs.Outline.Lookups
import Stencil.Proofs.Program.Refinement

namespace Stencil

open Outline (Coherent)

namespace Program

/-!
# The tables of a run

A run keeps the values of all scopes in a table and finds what it inserts in another.
Compiled instructions name places of these tables only, and so does every loop that is
being run, wherever the run has come to and whatever the payload is.
-/

variable {program : Program} {registry : Registry} {outline : Outline} {layout : Layout}

/-! ## Instructions -/

/-- What an instruction names is in the tables. -/
def Names (program : Program) : Instruction → Prop
  | .bind scope parent _ => scope < program.parents.size ∧ parent < program.parents.size
  | .enter scope parent _ _ _ _ => scope < program.parents.size ∧ parent < program.parents.size
  | .insert index => index < program.insertions.size
  | .next _ | .text _ _ | .separator _ _ => True

/-- What a properly scoped block names is in the tables, if they hold what is visible. -/
theorem names_of_scoped {block : Block} :
    ∀ {visible current : Set ScopeId} (address : Nat),
      block.Scoped program.parents.size (Reads program) visible current →
      (∀ id ∈ visible, id < program.parents.size) →
      ∀ instruction ∈ block.instructions address, program.Names instruction := by
  have widened : ∀ {visible : Set ScopeId} {scope : ScopeId}, scope < program.parents.size →
      (∀ id ∈ visible, id < program.parents.size) →
      ∀ id ∈ Insert.insert scope visible, id < program.parents.size := by
    intro visible scope bound held id member
    rcases member with rfl | old
    · exact bound
    · exact held id old
  induction block with
  | done =>
    intro _ _ _ _ _ instruction impossible
    cases impossible
  | bind scope parent access rest ih =>
    intro visible current address proper held instruction listed
    rcases proper with ⟨seen, -, -, bound, further⟩
    rcases List.mem_cons.mp listed with rfl | later
    · exact ⟨bound, held parent seen⟩
    · exact ih _ further (widened bound held) instruction later
  | text literal point rest ih =>
    intro visible current address proper held instruction listed
    rcases List.mem_cons.mp listed with rfl | later
    · exact trivial
    · exact ih _ proper held instruction later
  | insert index rest ih =>
    intro visible current address proper held instruction listed
    rcases proper with ⟨⟨insertion, found, -⟩, further⟩
    rcases List.mem_cons.mp listed with rfl | later
    · exact (Array.getElem?_eq_some_iff.mp found).1
    · exact ih _ further held instruction later
  | loop scope parent access conditions point body separator rest body_ih rest_ih =>
    intro visible current address proper held instruction listed
    rcases proper with ⟨seen, -, -, bound, inner, further⟩
    simp only [Block.instructions, List.cons_append, List.mem_cons, List.mem_append] at listed
    rcases listed with rfl | (inBody | between) | rfl | later
    · exact ⟨bound, held parent seen⟩
    · exact body_ih _ inner (widened bound held) instruction inBody
    · cases separator with
      | none => cases between
      | some separator =>
        cases List.mem_singleton.mp between
        exact trivial
    · exact trivial
    · exact rest_ih _ further held instruction later

/-- Every instruction of a compiled program names what is in the tables. -/
theorem CompiledFrom.names {escape : Escape}
    (compiled : CompiledFrom program outline outline.order layout escape)
    (coherent : Coherent outline) (hosted : Hosted outline layout) :
    ∀ instruction ∈ program.code, program.Names instruction := by
  have size : program.parents.size = outline.scopes.size := by
    rw [compiled.parents, Array.size_map]
  have proper := scoped_block compiled (Outline.orders_order coherent.rooted) coherent hosted
    outline.scopes.size (Outline.isBody_none outline)
  rw [← size] at proper
  intro instruction listed
  rw [compiled.code] at listed
  apply names_of_scoped 0 proper _ instruction (by simpa [size] using listed)
  intro id entered
  rw [size]
  exact entered.1.1

/-! ## States -/

/-- The states a run comes to. -/
inductive Visits (program : Program) (registry : Registry) (payload : Value) : State → Prop where
  | initial : Visits program registry payload (program.initial payload)
  | step {before after : State} {instruction : Instruction}
      (visits : Visits program registry payload before)
      (fetched : program.code[before.address]? = some instruction)
      (taken : program.step registry before instruction = .ok after) :
      Visits program registry payload after

/-- A table with a place for every scope, and loops over scopes with a place. -/
structure Tabled (program : Program) (state : State) : Prop where
  values : state.values.size = program.parents.size
  loops : ∀ loop ∈ state.loops, loop.scope < program.parents.size

variable {before after : State}

theorem Tabled.enterLoop (tabled : Tabled program before) {scope : ScopeId}
    (bound : scope < program.parents.size) (items : List Value) (point exit : Nat) :
    Tabled program (enterLoop before scope items point exit) := by
  cases items with
  | nil => exact ⟨tabled.values, tabled.loops⟩
  | cons first remaining =>
    refine ⟨by simp [Program.enterLoop, State.assign, State.advance, State.goto, tabled.values], ?_⟩
    intro loop listed
    rcases List.mem_cons.mp listed with rfl | outer
    · exact bound
    · exact tabled.loops loop outer

theorem Tabled.nextElement (tabled : Tabled program before) {entry : Nat}
    (run : nextElement before entry = .ok after) : Tabled program after := by
  unfold Program.nextElement at run
  cases loops : before.loops with
  | nil =>
    rw [loops] at run
    cases run
  | cons loop outer =>
    have inner := tabled.loops loop (by rw [loops]; exact .head _)
    have others : ∀ other ∈ outer, other.scope < program.parents.size :=
      fun other listed => tabled.loops other (by rw [loops]; exact .tail _ listed)
    simp only [loops] at run
    cases remaining : loop.remaining with
    | nil =>
      simp only [remaining] at run
      cases run
      exact ⟨tabled.values, others⟩
    | cons item more =>
      simp only [remaining] at run
      cases run
      refine ⟨by simp [State.assign, State.goto, tabled.values], ?_⟩
      intro other listed
      rcases List.mem_cons.mp listed with rfl | further
      · exact inner
      · exact others other further

theorem Tabled.step (tabled : Tabled program before) {instruction : Instruction}
    (names : program.Names instruction)
    (run : program.step registry before instruction = .ok after) : Tabled program after := by
  cases instruction with
  | bind scope parent access =>
    cases run
    exact ⟨by simp [State.assign, State.advance, State.goto, tabled.values], tabled.loops⟩
  | enter scope parent access conditions point exit =>
    cases run
    exact tabled.enterLoop names.1 _ point exit
  | next entry => exact tabled.nextElement run
  | insert index =>
    unfold Program.step at run
    simp only at run
    split at run
    · cases run
    · rcases map_eq_ok.mp run with ⟨text, -, rfl⟩
      exact ⟨tabled.values, tabled.loops⟩
  | text literal point =>
    cases run
    exact ⟨tabled.values, tabled.loops⟩
  | separator literal point =>
    cases run
    split
    · exact ⟨tabled.values, tabled.loops⟩
    · exact ⟨tabled.values, tabled.loops⟩

theorem tabled_of_visits (names : ∀ instruction ∈ program.code, program.Names instruction)
    {payload : Value} {state : State} (visits : Visits program registry payload state) :
    Tabled program state := by
  induction visits with
  | initial =>
    refine ⟨by simp [Program.initial], ?_⟩
    intro loop impossible
    cases impossible
  | step visits fetched taken ih =>
    exact ih.step (names _ (Array.mem_of_getElem? fetched)) taken

/-- At every state of a run what the next instruction names is in the tables. -/
structure Tidy (program : Program) : Prop where
  names : ∀ instruction ∈ program.code, program.Names instruction
  tabled : ∀ registry payload state, Visits program registry payload state →
    Tabled program state

theorem CompiledFrom.tidy {escape : Escape}
    (compiled : CompiledFrom program outline outline.order layout escape)
    (coherent : Coherent outline) (hosted : Hosted outline layout) : Tidy program :=
  have names := compiled.names coherent hosted
  ⟨names, fun _ _ _ visits => tabled_of_visits names visits⟩

/-! ## Errors -/

theorem missing_of_chain {chain : Formatter.Chain} {error : Error}
    (run : chain.check registry = .error error) :
    ∃ name path suggestion, error = .missingFormatter name path suggestion := by
  unfold Formatter.Chain.check at run
  split at run
  · cases run
    exact ⟨_, _, _, rfl⟩
  · cases run

/-- All that a check can find is that a formatter does not exist. -/
theorem missing_of_check {error : Error} (run : program.check registry = .error error) :
    ∃ name path suggestion, error = .missingFormatter name path suggestion := by
  unfold check at run
  generalize program.insertions.toList = insertions at run
  induction insertions with
  | nil => cases run
  | cons insertion more ih =>
    rcases bind_eq_error.mp run with fails | ⟨_, -, later⟩
    · exact missing_of_chain fails
    · exact ih later

theorem inconsistent_of_place {placed : List ScopeId} {id : ScopeId} {error : Error}
    (run : place outline placed id = .error error) :
    ∃ scope fault, error = .inconsistentScope scope fault := by
  unfold place at run
  split at run
  · cases run
    exact ⟨_, _, rfl⟩
  · split at run
    · cases run
    · split at run
      · cases run
        exact ⟨_, _, rfl⟩
      · split at run
        · cases run
        · cases run
          exact ⟨_, _, rfl⟩

theorem inconsistent_of_checkOrder {order : List ScopeId} {error : Error}
    (run : checkOrder outline order = .error error) :
    ∃ scope fault, error = .inconsistentScope scope fault := by
  unfold checkOrder at run
  split at run
  · next fails =>
    cases run
    rcases foldlM_eq_error fails with ⟨-, id, -, placed, -, -, fails⟩
    exact inconsistent_of_place fails
  · split at run
    · cases run
      exact ⟨_, _, rfl⟩
    · cases run

theorem inconsistent_of_placeSlot {item : Slot × SlotId} {error : Error}
    (run : placeSlot outline layout item = .error error) :
    ∃ scope fault, error = .inconsistentScope scope fault := by
  unfold placeSlot at run
  simp only at run
  split at run
  · cases run
    exact ⟨_, _, rfl⟩
  · split at run
    · cases run
      exact ⟨_, _, rfl⟩
    · cases run

/-- An outline that is not compiled is refused with an error about a scope. -/
theorem inconsistent_of_compile {order : List ScopeId} {settings : Settings} {error : Error}
    (run : compile outline order layout settings = .error error) :
    ∃ scope fault, error = .inconsistentScope scope fault := by
  rcases bind_eq_error.mp run with fails | ⟨_, -, run⟩
  · exact inconsistent_of_checkOrder fails
  · rcases bind_eq_error.mp run with fails | ⟨placed, -, impossible⟩
    · rcases mapM_eq_error fails with ⟨item, -, fails⟩
      exact inconsistent_of_placeSlot fails
    · cases impossible

theorem reported_of_compile {order : List ScopeId} {settings : Settings} {error : Error}
    (run : compile outline order layout settings = .error error) : error.Reported := by
  rcases inconsistent_of_compile run with ⟨scope, fault, rfl⟩
  exact trivial

end Program

end Stencil
