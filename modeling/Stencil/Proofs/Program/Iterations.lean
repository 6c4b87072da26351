import Mathlib.Data.List.Lex
import Mathlib.Logic.Relation
import Stencil.Program.Machine
import Stencil.Proofs.Fallible
import Stencil.Proofs.Program.Bracketed

namespace Stencil

/-!
# Iterations of a run

A run comes to one instruction again and again, but each time in another iteration: some loop
around the instruction is then in another row.  For a run has a clock.  It shows where each
loop was entered and which row it is in, from the outermost loop on, and then the address.
Every step sets it forward, since going back to where a loop was entered takes a further row.
-/

namespace Block

variable {block : Block} {around inside : List Span} {address next : Nat} {line : Line}

/-! ## Where the code goes on -/

/-- At an address the code goes on inside some loops, unless the block ends there. -/
def GoesOn (block : Block) (around : List Span) (address : Nat) (inside : List Span)
    (next : Nat) : Prop :=
  (∃ instruction, ⟨next, inside, instruction⟩ ∈ block.lines around address) ∨
    next = address + block.size ∧ inside = around

/-- A block goes on where it begins. -/
theorem goesOn_start (block : Block) (around : List Span) (address : Nat) :
    block.GoesOn around address around address := by
  induction block using statements with
  | done => exact .inr ⟨rfl, rfl⟩
  | @plain block rest instruction begins =>
    refine .inl ⟨instruction, ?_⟩
    rw [begins.lines]
    exact .head _
  | loop => exact .inl ⟨_, mem_lines_loop.mpr (.inl rfl)⟩

theorem Begins.goesOn {rest : Block} {instruction : Instruction}
    (begins : block.Begins instruction rest)
    (onward : rest.GoesOn around (address + 1) inside next) :
    block.GoesOn around address inside next := by
  rcases onward with ⟨instruction, listed⟩ | ⟨rfl, rfl⟩
  · refine .inl ⟨instruction, ?_⟩
    rw [begins.lines]
    exact .tail _ listed
  · refine .inr ⟨?_, rfl⟩
    rw [begins.size]
    omega

section Loops

variable {scope parent : ScopeId} {access : Access} {conditions : List Condition} {point : Nat}
  {body rest : Block} {separator : Option (String × Nat)}

/-- Behind its body a loop has the separator or its end. -/
theorem goesOn_body
    (onward : body.GoesOn (⟨scope, address,
      address + 1 + body.size + (separatorCode separator).length⟩ :: around) (address + 1) inside
      next) :
    (loop scope parent access conditions point body separator rest).GoesOn around address inside
      next := by
  rcases onward with ⟨instruction, listed⟩ | ⟨rfl, rfl⟩
  · exact .inl ⟨instruction, mem_lines_loop.mpr (.inr (.inl listed))⟩
  · cases separator with
    | none => exact .inl ⟨_, mem_lines_loop.mpr (.inr (.inr (.inr (.inl rfl))))⟩
    | some separator =>
      exact .inl ⟨_, mem_lines_loop.mpr (.inr (.inr (.inl (List.mem_singleton.mpr rfl))))⟩

theorem goesOn_rest
    (onward : rest.GoesOn around
      (address + 1 + body.size + (separatorCode separator).length + 1) inside next) :
    (loop scope parent access conditions point body separator rest).GoesOn around address inside
      next := by
  rcases onward with ⟨instruction, listed⟩ | ⟨rfl, rfl⟩
  · exact .inl ⟨instruction, mem_lines_loop.mpr (.inr (.inr (.inr (.inr listed))))⟩
  · refine .inr ⟨?_, rfl⟩
    simp only [size]
    omega

end Loops

/-- Where a run may go on behind a line, and in which loops. -/
inductive Leads (line : Line) : List Span → Nat → Prop where
  | onward (isPlain : line.instruction.isPlain = true) :
      Leads line line.around (line.address + 1)
  | into {span : Span} (enters : line.Enters span) :
      Leads line (span :: line.around) (line.address + 1)
  | past {span : Span} (enters : line.Enters span) : Leads line line.around (span.exit + 1)
  | again {entry : Nat} (ends : line.instruction = .next entry) :
      Leads line line.around (entry + 1)
  | out {entry : Nat} {span : Span} {outer : List Span} (ends : line.instruction = .next entry)
      (around : line.around = span :: outer) : Leads line outer (line.address + 1)

/-- Where a run goes on, there is a line in just these loops, unless the block ends. -/
theorem goesOn_of_leads (block : Block) : ∀ {around : List Span} {address : Nat},
    line ∈ block.lines around address → Leads line inside next →
      block.GoesOn around address inside next := by
  induction block using statements with
  | done => intro around address impossible; cases impossible
  | @plain block rest instruction begins ih =>
    intro around address member leads
    rw [begins.lines] at member
    apply begins.goesOn
    rcases List.mem_cons.mp member with rfl | later
    · -- The first line neither enters nor ends a loop.
      cases leads with
      | onward => exact rest.goesOn_start around (address + 1)
      | into enters | past enters => exact absurd begins.isPlain enters.not_isPlain
      | again ends | out ends =>
        have isPlain := begins.isPlain
        rw [show instruction = .next _ from ends] at isPlain
        cases isPlain
    · exact ih later leads
  | @loop scope parent access conditions point body separator rest body_ih rest_ih =>
    intro around address member leads
    rcases mem_lines_loop.mp member with rfl | inBody | between | rfl | behind
    · cases leads with
      | onward isPlain => cases isPlain
      | into enters =>
        rw [enters.eq]
        exact goesOn_body (goesOn_start _ _ _)
      | past enters =>
        rw [enters.eq]
        exact goesOn_rest (goesOn_start _ _ _)
      | again ends | out ends => cases ends
    · exact goesOn_body (body_ih inBody leads)
    · cases separator with
      | none => cases between
      | some separator =>
        rcases List.mem_singleton.mp between with rfl
        cases leads with
        | onward => exact .inl ⟨_, mem_lines_loop.mpr (.inr (.inr (.inr (.inl rfl))))⟩
        | again ends | out ends => cases ends
        | into enters | past enters => exact absurd rfl enters.not_isPlain
    · cases leads with
      | onward isPlain => cases isPlain
      | again ends =>
        cases ends
        exact goesOn_body (goesOn_start _ _ _)
      | out _ around =>
        cases around
        exact goesOn_rest (goesOn_start _ _ _)
      | into enters | past enters => rcases enters.2 with ⟨_, _, _, _, ⟨⟩⟩
    · exact goesOn_rest (rest_ih behind leads)

end Block

namespace Program

variable {program : Program} {registry : Registry} {before after : State}

/-! ## The clock -/

/-- The time in a run: for each loop, from the outermost on, where it was entered and which
row it is in, then the address. -/
def clock : List Span → List Loop → Nat → List Nat
  | span :: outer, loop :: loops, address => clock outer loops span.entry ++ [loop.index, address]
  | _, _, address => [address]

/-- The address is what is read last. -/
theorem exists_clock (inside : List Span) (loops : List Loop) :
    ∃ front, ∀ address, clock inside loops address = front ++ [address] := by
  cases inside with
  | nil => exact ⟨[], fun _ => rfl⟩
  | cons span outer =>
    cases loops with
    | nil => exact ⟨[], fun _ => rfl⟩
    | cons loop loops => exact ⟨clock outer loops span.entry ++ [loop.index], fun _ => by simp [clock]⟩

theorem clock_lt_of_address_lt {inside : List Span} {loops : List Loop} {address next : Nat}
    (later : address < next) (rest : List Nat) :
    clock inside loops address ++ rest < clock inside loops next := by
  rcases exists_clock inside loops with ⟨front, read⟩
  rw [read, read, List.append_assoc]
  exact List.append_left_lt (.rel later)

theorem clock_congr {loops others : List Loop}
    (rows : loops.map Loop.index = others.map Loop.index) :
    ∀ (inside : List Span) (address : Nat), clock inside loops address = clock inside others address := by
  induction loops generalizing others with
  | nil =>
    intro inside address
    rw [List.map_eq_nil_iff.mp rows.symm]
  | cons loop loops ih =>
    intro inside address
    rcases List.map_eq_cons_iff.mp rows.symm with ⟨other, more, rfl, same, rowsMore⟩
    cases inside with
    | nil => rfl
    | cons span outer => simp only [clock, ih rowsMore.symm, same]

/-! ## Steps -/

/-- One step leads from a state to another. -/
def Steps (program : Program) (registry : Registry) (before after : State) : Prop :=
  ∃ instruction, program.code[before.address]? = some instruction ∧
    program.step registry before instruction = .ok after

/-- What a step does to the loops that are run and where it goes on. -/
inductive Moves (before after : State) : Instruction → Prop where
  | onward {instruction : Instruction} (isPlain : instruction.isPlain = true)
      (loops : after.loops = before.loops) (address : after.address = before.address + 1) :
      Moves before after instruction
  | into {scope parent : ScopeId} {access : Access} {conditions : List Condition}
      {point exit : Nat} (loop : Loop) (loops : after.loops = loop :: before.loops)
      (address : after.address = before.address + 1) :
      Moves before after (.enter scope parent access conditions point exit)
  | past {scope parent : ScopeId} {access : Access} {conditions : List Condition}
      {point exit : Nat} (loops : after.loops = before.loops) (address : after.address = exit + 1) :
      Moves before after (.enter scope parent access conditions point exit)
  | again {entry : Nat} (loop further : Loop) (outer : List Loop)
      (row : further.index = loop.index + 1) (loops : before.loops = loop :: outer)
      (turned : after.loops = further :: outer) (address : after.address = entry + 1) :
      Moves before after (.next entry)
  | out {entry : Nat} (loop : Loop) (loops : before.loops = loop :: after.loops)
      (address : after.address = before.address + 1) : Moves before after (.next entry)

theorem moves_of_step {instruction : Instruction}
    (run : program.step registry before instruction = .ok after) :
    Moves before after instruction := by
  cases instruction with
  | bind scope parent access =>
    cases run
    exact .onward rfl rfl rfl
  | insert index =>
    unfold step at run
    simp only at run
    split at run
    · cases run
    · rcases map_eq_ok.mp run with ⟨text, -, rfl⟩
      exact .onward rfl rfl rfl
  | text literal point =>
    cases run
    exact .onward rfl rfl rfl
  | separator literal point =>
    cases run
    refine .onward rfl ?_ ?_
    · split <;> rfl
    · split <;> rfl
  | enter scope parent access conditions point exit =>
    cases run
    cases Condition.keep conditions (Value.elements (access.reach (before.valueOf parent))) with
    | nil => exact .past rfl rfl
    | cons first remaining => exact .into _ rfl rfl
  | next entry =>
    unfold step nextElement at run
    cases loops : before.loops with
    | nil =>
      simp only [loops] at run
      cases run
    | cons loop outer =>
      simp only [loops] at run
      cases remaining : loop.remaining with
      | nil =>
        simp only [remaining] at run
        cases run
        exact .out loop loops rfl
      | cons item more =>
        simp only [remaining] at run
        cases run
        exact .again loop _ outer rfl loops rfl rfl

/-- Where a run stands in the code: a row is being run of each loop around. -/
structure Located (block : Block) (inside : List Span) (state : State) : Prop where
  goesOn : block.GoesOn [] 0 inside state.address
  rows : inside.length = state.loops.length

/-- The line at which a run stands lies in the loops that are run. -/
theorem Located.member {block : Block} (code : program.code = (block.instructions 0).toArray)
    {inside : List Span} {state : State} (located : Located block inside state)
    {instruction : Instruction} (fetched : program.code[state.address]? = some instruction) :
    ⟨state.address, inside, instruction⟩ ∈ block.lines [] 0 := by
  rcases (getElem?_code_eq_some code).mp fetched with ⟨around, member⟩
  rcases located.goesOn with ⟨_, listed⟩ | ⟨stop, -⟩
  · have same : around = inside :=
      congrArg Line.around (Block.eq_of_address_eq member listed rfl)
    rw [← same]
    exact member
  · have bounds := (Block.address_of_mem_lines member).2
    rw [stop] at bounds
    exact absurd bounds (Nat.lt_irrefl _)

/-- A step goes on in the code and sets the clock forward. -/
theorem Located.step {block : Block} (code : program.code = (block.instructions 0).toArray)
    {inside : List Span} (located : Located block inside before)
    (taken : Steps program registry before after) :
    ∃ further, Located block further after ∧
      clock inside before.loops before.address < clock further after.loops after.address := by
  rcases taken with ⟨instruction, fetched, run⟩
  have member := located.member code fetched
  have closer : ∀ {next : Nat}, before.address < next →
      clock inside before.loops before.address < clock inside before.loops next := by
    intro next later
    simpa using clock_lt_of_address_lt later []
  cases moves_of_step run with
  | onward isPlain loops address =>
    refine ⟨inside, ⟨?_, by rw [loops, located.rows]⟩, ?_⟩
    · rw [address]
      exact Block.goesOn_of_leads block member (.onward isPlain)
    · rw [loops, address]
      exact closer (Nat.lt_succ_self _)
  | @into scope parent access conditions point exit loop loops address =>
    refine ⟨⟨scope, before.address, exit⟩ :: inside, ⟨?_, by simp [loops, located.rows]⟩, ?_⟩
    · rw [address]
      exact Block.goesOn_of_leads block member (.into Line.enters)
    · rw [loops, clock]
      simpa using List.append_left_lt (List.nil_lt_cons loop.index [after.address])
  | @past scope parent access conditions point exit loops address =>
    have ordered := (Block.exists_exit block member Line.enters).1
    refine ⟨inside, ⟨?_, by rw [loops, located.rows]⟩, ?_⟩
    · rw [address]
      exact Block.goesOn_of_leads block member (.past Line.enters)
    · rw [loops, address]
      exact closer (Nat.lt_succ_of_lt ordered)
  | @again entry loop further outer row loops turned address =>
    refine ⟨inside, ⟨?_, by rw [located.rows, loops, turned]; rfl⟩, ?_⟩
    · rw [address]
      exact Block.goesOn_of_leads block member (.again rfl)
    · rcases Block.exists_entry block member with ⟨span, outside, rfl, -⟩
      rw [loops, turned, address, clock, clock, row]
      exact List.append_left_lt (.rel (Nat.lt_succ_self _))
  | @out entry loop loops address =>
    rcases Block.exists_entry block member with ⟨span, outside, rfl, rfl, -⟩
    refine ⟨outside, ⟨?_, ?_⟩, ?_⟩
    · rw [address]
      exact Block.goesOn_of_leads block member (.out rfl rfl)
    · have rows := located.rows
      rw [loops] at rows
      simpa using rows
    · rw [loops, address, clock]
      refine clock_lt_of_address_lt (Nat.lt_succ_of_lt ?_) _
      rcases Block.mem_around_cases block member (.head _) with impossible | ⟨between, -⟩
      · cases impossible
      · exact between.1

/-! ## Runs -/

/-- The row that each loop of a state is in, innermost first. -/
def State.iteration (state : State) : List Nat := state.loops.map Loop.index

/-- A state that a run comes to. -/
def Comes (program : Program) (registry : Registry) (payload : Value) : State → Prop :=
  Relation.ReflTransGen (Steps program registry) (program.initial payload)

/-- Wherever a run comes to, it stands in the code. -/
theorem located_of_comes {block : Block} (code : program.code = (block.instructions 0).toArray)
    {payload : Value} {state : State} (comes : Comes program registry payload state) :
    ∃ inside, Located block inside state := by
  induction comes with
  | refl => exact ⟨[], Block.goesOn_start _ _ _, rfl⟩
  | tail _ taken ih =>
    rcases ih with ⟨inside, located⟩
    rcases located.step code taken with ⟨further, behind, -⟩
    exact ⟨further, behind⟩

/-- Later the clock shows a later time. -/
theorem Located.later {block : Block} (code : program.code = (block.instructions 0).toArray)
    {inside : List Span} (located : Located block inside before)
    (later : Relation.TransGen (Steps program registry) before after) :
    ∃ further, Located block further after ∧
      clock inside before.loops before.address < clock further after.loops after.address := by
  induction later with
  | single taken => exact located.step code taken
  | tail _ taken ih =>
    rcases ih with ⟨between, behind, time⟩
    rcases behind.step code taken with ⟨further, ahead, next⟩
    exact ⟨further, ahead, time.trans next⟩

/-- A run does not come to one address twice in one iteration. -/
theorem iteration_ne_of_later {block : Block}
    (code : program.code = (block.instructions 0).toArray) {payload : Value}
    (comes : Comes program registry payload before)
    (later : Relation.TransGen (Steps program registry) before after)
    (same : before.address = after.address) : before.iteration ≠ after.iteration := by
  intro rows
  rcases located_of_comes code comes with ⟨inside, located⟩
  rcases located.later code later with ⟨further, ahead, time⟩
  have around : inside = further := by
    rcases located.goesOn with ⟨_, listed⟩ | ⟨stop, rfl⟩
    · rcases ahead.goesOn with ⟨_, otherListed⟩ | ⟨otherStop, rfl⟩
      · exact congrArg Line.around (Block.eq_of_address_eq listed otherListed same)
      · have bounds := (Block.address_of_mem_lines listed).2
        rw [same, otherStop] at bounds
        exact absurd bounds (Nat.lt_irrefl _)
    · have count := congrArg List.length rows
      rw [State.iteration, State.iteration, List.length_map, List.length_map] at count
      exact (List.eq_nil_of_length_eq_zero (ahead.rows.trans (count.symm.trans
        located.rows.symm))).symm
  rw [around, clock_congr rows, same] at time
  exact lt_irrefl _ time

end Program

end Stencil
