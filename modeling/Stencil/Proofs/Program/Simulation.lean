import Stencil.Proofs.Program.Steps
import Stencil.Proofs.Value.Weight

namespace Stencil.Program

open Meaning

/-!
# The machine runs blocks

Run from the address of a block, the machine emits what the block emits under
lexical bindings and ends up behind the block, with the loops it had and with the
values it had of all scopes visible there.  What the block itself left in the
table is not visible behind it and never read again.

A block takes no more steps than its size times the weight of what its row is
bound to: the rows of an inner loop share the weight of the array among them.
-/

variable {program : Program} {registry : Registry} {visible current : Set ScopeId}

/-- Where a state stands compared with an earlier one: at an address, inside some
loops, with more fragments emitted, and with the visible scopes as they were. -/
structure Behind (visible : Set ScopeId) (address : Nat) (loops : List Loop)
    (fragments : List Fragment) (before after : State) : Prop where
  address : after.address = address
  loops : after.loops = loops
  emitted : after.emitted = fragments.reverse ++ before.emitted
  size : after.values.size = before.values.size
  kept : ∀ id ∈ visible, after.valueOf id = before.valueOf id

/-- The run from a state gets behind something within a number of steps. -/
def Runs (program : Program) (registry : Registry) (visible : Set ScopeId) (bound address : Nat)
    (loops : List Loop) (fragments : List Fragment) (before : State) : Prop :=
  ∃ steps after, steps ≤ bound ∧ Reaches program registry steps before after ∧
    Behind visible address loops fragments before after

theorem Behind.trans {first second : Nat} {early late : List Loop} {front back : List Fragment}
    {before between after : State} (one : Behind visible first early front before between)
    (two : Behind visible second late back between after) :
    Behind visible second late (front ++ back) before after where
  address := two.address
  loops := two.loops
  emitted := by rw [two.emitted, one.emitted, List.reverse_append, List.append_assoc]
  size := two.size.trans one.size
  kept := fun id member => (two.kept id member).trans (one.kept id member)

theorem Behind.mono {fewer : Set ScopeId} (within : fewer ⊆ visible) {address : Nat}
    {loops : List Loop} {fragments : List Fragment} {before after : State}
    (behind : Behind visible address loops fragments before after) :
    Behind fewer address loops fragments before after :=
  { behind with kept := fun id member => behind.kept id (within member) }

theorem Behind.agrees {address : Nat} {loops : List Loop} {fragments : List Fragment}
    {before after : State} {bindings : Bindings}
    (behind : Behind visible address loops fragments before after)
    (agrees : Agrees visible bindings before) : Agrees visible bindings after :=
  fun id member => (behind.kept id member).trans (agrees id member)

theorem Behind.here {address : Nat} {fragments : List Fragment} {before after : State}
    (behind : Behind visible address before.loops fragments before after) :
    after.here = before.here := by
  unfold State.here
  rw [behind.loops]

theorem Runs.mono {fewer : Set ScopeId} (within : fewer ⊆ visible) {bound more address : Nat}
    {loops : List Loop} {fragments : List Fragment} {before : State}
    (runs : Runs program registry visible bound address loops fragments before)
    (less : bound ≤ more) : Runs program registry fewer more address loops fragments before := by
  obtain ⟨steps, after, few, reaches, behind⟩ := runs
  exact ⟨steps, after, few.trans less, reaches, behind.mono within⟩

/-- The same run with a greater bound, its end told in another way. -/
theorem Runs.upTo {bound more address stop : Nat} {loops : List Loop}
    {fragments : List Fragment} {before : State}
    (runs : Runs program registry visible bound address loops fragments before)
    (stops : address = stop) (less : bound ≤ more) :
    Runs program registry visible more stop loops fragments before :=
  stops ▸ runs.mono (Set.Subset.refl _) less

/-- Nothing to do. -/
theorem Runs.refl (before : State) :
    Runs program registry visible 0 before.address before.loops [] before :=
  ⟨0, before, Nat.le_refl 0, Reaches.refl before, rfl, rfl, rfl, rfl, fun _ _ => rfl⟩

/-- First one thing, then another from wherever the first one ended. -/
theorem Runs.append {first second start stop : Nat} {early late : List Loop}
    {front back : List Fragment} {before : State}
    (one : Runs program registry visible first start early front before)
    (two : ∀ between, Behind visible start early front before between →
      Runs program registry visible second stop late back between) :
    Runs program registry visible (first + second) stop late (front ++ back) before := by
  obtain ⟨steps, between, few, reaches, behind⟩ := one
  obtain ⟨more, after, alsoFew, onward, further⟩ := two between behind
  exact ⟨steps + more, after, Nat.add_le_add few alsoFew, reaches.trans onward,
    behind.trans further⟩

/-- One instruction. -/
theorem Runs.step {before after : State} {instruction : Instruction} {address : Nat}
    {loops : List Loop} {fragments : List Fragment}
    (fetched : program.code[before.address]? = some instruction)
    (taken : program.step registry before instruction = .ok after)
    (behind : Behind visible address loops fragments before after) :
    Runs program registry visible 1 address loops fragments before :=
  ⟨1, after, Nat.le_refl 1, reaches_of_step fetched taken, behind⟩

/-- One instruction, and then on from the state it leads to. -/
theorem Runs.cons {before after : State} {instruction : Instruction} {start second stop : Nat}
    {early late : List Loop} {front back : List Fragment}
    (fetched : program.code[before.address]? = some instruction)
    (taken : program.step registry before instruction = .ok after)
    (behind : Behind visible start early front before after)
    (onward : Runs program registry visible second stop late back after) :
    Runs program registry visible (1 + second) stop late (front ++ back) before := by
  obtain ⟨more, last, few, reaches, further⟩ := onward
  exact ⟨1 + more, last, Nat.add_le_add_left few 1, (reaches_of_step fetched taken).trans reaches,
    behind.trans further⟩

/-- One instruction that emits nothing, and then on. -/
theorem Runs.silent {before after : State} {instruction : Instruction} {start second stop : Nat}
    {early late : List Loop} {fragments : List Fragment}
    (fetched : program.code[before.address]? = some instruction)
    (taken : program.step registry before instruction = .ok after)
    (behind : Behind visible start early [] before after)
    (onward : Runs program registry visible second stop late fragments after) :
    Runs program registry visible (1 + second) stop late fragments before :=
  Runs.cons fetched taken behind onward

/-! ## Rows -/

/-- What a loop needs to know of a state in one of its rows. -/
structure InRow (visible : Set ScopeId) (bindings : Bindings) (scope : ScopeId)
    (item : Value) (loop : Loop) (outer : List Loop) (state : State) : Prop where
  loops : state.loops = loop :: outer
  agrees : Agrees (Insert.insert scope visible) (bindings.bind scope (some item)) state

/-- The position in a row is that of the loop with the point of the loop and the
number of the row. -/
theorem here_of_loops {state : State} {loop : Loop} {outer : List Loop}
    (loops : state.loops = loop :: outer) :
    state.here = (outer.reverse.flatMap fun loop => [loop.point, loop.index]) ++
      [loop.point, loop.index] := by
  simp [State.here, loops]

/-- The separator is emitted if there are rows to come. -/
theorem separator_runs {separator : Option (String × Nat)} {state : State} {loop : Loop}
    {outer : List Loop} (loops : state.loops = loop :: outer)
    (code : CodeAt program state.address (Block.separatorCode separator)) :
    Runs program registry visible (Block.separatorCode separator).length
      (state.address + (Block.separatorCode separator).length) state.loops
      (if loop.remaining.isEmpty then [] else Block.separatorFragments separator state.here)
      state := by
  cases separator with
  | none =>
    have nothing : (if loop.remaining.isEmpty then []
        else Block.separatorFragments none state.here) = [] := by
      split <;> rfl
    rw [nothing]
    exact Runs.refl state
  | some shown =>
    obtain ⟨literal, point⟩ := shown
    refine Runs.step code.fetch rfl ?_
    have more : hasMore state = !loop.remaining.isEmpty := by simp [hasMore, loops]
    rw [more]
    cases loop.remaining.isEmpty with
    | true =>
      exact ⟨rfl, rfl, rfl, rfl, fun _ _ => rfl⟩
    | false =>
      exact ⟨rfl, rfl, rfl, rfl, fun _ _ => rfl⟩

/-- A loop in the code whose body runs in every row. -/
structure LoopAt (program : Program) (registry : Registry) (visible : Set ScopeId)
    (bindings : Bindings) (scope : ScopeId) (size point address width : Nat)
    (separator : Option (String × Nat)) (body : Value → Nat → List Fragment)
    (outer : List Loop) : Prop where
  fresh : scope ∉ visible
  bound : scope < size
  separated : CodeAt program (address + 1 + width) (Block.separatorCode separator)
  ends : program.code[address + 1 + width + (Block.separatorCode separator).length]? =
    some (.next address)
  runs : ∀ item index remaining state, state.address = address + 1 →
    state.values.size = size →
    InRow visible bindings scope item ⟨scope, point, index, remaining⟩ outer state →
    Runs program registry (Insert.insert scope visible) (width * item.weight)
      (address + 1 + width) state.loops (body item index) state

variable {bindings : Bindings} {scope : ScopeId} {size point address width : Nat}
  {separator : Option (String × Nat)} {body : Value → Nat → List Fragment} {outer : List Loop}

/-- One row: the body, and the separator unless it is the last. -/
theorem row_runs
    (loop : LoopAt program registry visible bindings scope size point address width separator
      body outer)
    {item : Value} {index : Nat} {remaining : List Value} {state : State}
    (atBody : state.address = address + 1) (sized : state.values.size = size)
    (row : InRow visible bindings scope item ⟨scope, point, index, remaining⟩ outer state) :
    Runs program registry visible
      (width * item.weight + (Block.separatorCode separator).length)
      (address + 1 + width + (Block.separatorCode separator).length) state.loops
      (body item index ++ if remaining.isEmpty then []
        else Block.separatorFragments separator state.here) state := by
  have first := (loop.runs item index remaining state atBody sized row).mono
    (Set.subset_insert scope visible) (Nat.le_refl _)
  refine first.append fun between behind => ?_
  have code : CodeAt program between.address (Block.separatorCode separator) := by
    rw [behind.address]
    exact loop.separated
  have second : Runs program registry visible _ _ _ _ between :=
    separator_runs (behind.loops.trans row.loops) code
  rw [behind.address, behind.loops, behind.here] at second
  exact second

/-- Every row takes its part of the weight of the elements. -/
theorem row_bound (width apart : Nat) (item : Value) (remaining : List Value) :
    width * item.weight + apart + (1 + (width + apart + 1) * Value.weightItems remaining) ≤
      (width + apart + 1) * Value.weightItems (item :: remaining) := by
  have light := Value.weight_pos item
  have share : apart + 1 ≤ (apart + 1) * item.weight := Nat.le_mul_of_pos_right _ light
  rw [Value.weightItems, Nat.mul_add]
  have split : (width + apart + 1) * item.weight =
      width * item.weight + (apart + 1) * item.weight := by
    rw [Nat.add_assoc, Nat.add_mul]
  omega

/-- Behind the last row the loop is left. -/
theorem leave_runs
    (loop : LoopAt program registry visible bindings scope size point address width separator
      body outer)
    {index : Nat} {state : State}
    (atEnd : state.address = address + 1 + width + (Block.separatorCode separator).length)
    (last : state.loops = ⟨scope, point, index, []⟩ :: outer) :
    Runs program registry visible 1
      (address + 1 + width + (Block.separatorCode separator).length + 1) outer [] state := by
  have taken : program.step registry state (.next address) =
      .ok { state.advance with loops := outer } := by
    simp [step, nextElement, last]
  exact Runs.step (by rw [atEnd]; exact loop.ends) taken
    ⟨by simp [State.advance, State.goto, atEnd], rfl, rfl, rfl, fun _ _ => rfl⟩

/-- Behind any other row one step leads to the row after it. -/
theorem turn_runs
    (loop : LoopAt program registry visible bindings scope size point address width separator
      body outer)
    {item next : Value} {index stop : Nat} {remaining : List Value} {state between : State}
    {fragments : List Fragment} (sized : state.values.size = size)
    (row : InRow visible bindings scope item ⟨scope, point, index, next :: remaining⟩ outer state)
    (behind : Behind visible stop state.loops fragments state between) :
    ∃ turned, program.step registry between (.next address) = .ok turned ∧
      turned.address = address + 1 ∧ turned.values.size = size ∧
      InRow visible bindings scope next ⟨scope, point, index + 1, remaining⟩ outer turned ∧
      Behind visible (address + 1) (⟨scope, point, index + 1, remaining⟩ :: outer) []
        between turned := by
  have tableBound : scope < between.values.size := by
    rw [behind.size, sized]
    exact loop.bound
  have different : ∀ {id : ScopeId}, id ∈ visible → id ≠ scope :=
    fun member same => loop.fresh (same ▸ member)
  have old : Agrees visible bindings between := by
    refine behind.agrees fun id member => ?_
    rw [row.agrees id (Set.mem_insert_of_mem _ member)]
    simp [Bindings.bind, different member]
  refine ⟨{ (between.assign scope (some next)).goto (address + 1) with
    loops := ⟨scope, point, index + 1, remaining⟩ :: outer }, ?_, rfl, ?_, ?_, ?_⟩
  · simp [step, nextElement, behind.loops, row.loops]
  · simp [State.assign, State.goto, behind.size, sized]
  · exact ⟨rfl, old.bind (some next) tableBound⟩
  · exact ⟨rfl, rfl, rfl, by simp [State.assign, State.goto],
      fun id member => valueOf_assign_of_ne (different member)⟩

/-- The rows of a loop from one of them on, up to the end of the loop. -/
theorem rows_run
    (loop : LoopAt program registry visible bindings scope size point address width separator
      body outer)
    {here : Position}
    (position : here = outer.reverse.flatMap fun loop => [loop.point, loop.index])
    (remaining : List Value) :
    ∀ {item : Value} {index : Nat} {state : State}, state.address = address + 1 →
      state.values.size = size →
      InRow visible bindings scope item ⟨scope, point, index, remaining⟩ outer state →
      Runs program registry visible
        ((width + (Block.separatorCode separator).length + 1) *
          Value.weightItems (item :: remaining))
        (address + 1 + width + (Block.separatorCode separator).length + 1) outer
        (rows body (fun index => Block.separatorFragments separator (here ++ [point, index]))
          index (item :: remaining)) state := by
  induction remaining with
  | nil =>
    intro item index state atBody sized row
    have whole := (row_runs loop atBody sized row).append fun _ behind =>
      leave_runs loop behind.address (behind.loops.trans row.loops)
    have enough := row_bound width (Block.separatorCode separator).length item []
    rw [Value.weightItems, Nat.mul_zero, Nat.add_zero] at enough
    simpa [rows] using whole.mono (Set.Subset.refl _) enough
  | cons next remaining ih =>
    intro item index state atBody sized row
    have place : state.here = here ++ [point, index] := by
      rw [here_of_loops row.loops, position]
    have whole := (row_runs loop atBody sized row).append fun between behind => by
      rcases turn_runs loop sized row behind with
        ⟨turned, taken, atNext, nextSized, nextRow, turning⟩
      exact Runs.silent (by rw [behind.address]; exact loop.ends) taken turning
        (ih atNext nextSized nextRow)
    rw [place] at whole
    have enough := row_bound width (Block.separatorCode separator).length item (next :: remaining)
    rw [rows]
    exact whole.mono (Set.Subset.refl _) enough

/-! ## Blocks -/

theorem heft_bind_le {bindings : Bindings} {scope : ScopeId} {value : Option Value} {weight : Nat}
    (light : ∀ id ∈ current, Value.heft (bindings id) ≤ weight)
    (alsoLight : Value.heft value ≤ weight) :
    ∀ id ∈ Insert.insert scope current, Value.heft (bindings.bind scope value id) ≤ weight := by
  intro id member
  by_cases same : id = scope
  · simpa [Bindings.bind, same] using alsoLight
  · simpa [Bindings.bind, same] using light id (Set.mem_of_mem_insert_of_ne member same)

/-- A block standing in the code at the address of a state, with a table that
agrees with some bindings and a row of some weight. -/
structure Stands (program : Program) (block : Block) (visible current : Set ScopeId)
    (bindings : Bindings) (weight : Nat) (state : State) : Prop where
  proper : block.Scoped state.values.size (Reads program) visible current
  code : CodeAt program state.address (block.instructions state.address)
  agrees : Agrees visible bindings state
  light : ∀ id ∈ current, Value.heft (bindings id) ≤ weight

/-- A statement of one instruction takes one step, at most the weight of the
row. -/
theorem one_add_le (size : Nat) {weight : Nat} (positive : 0 < weight) :
    1 + size * weight ≤ (size + 1) * weight := by
  rw [Nat.add_mul, Nat.one_mul, Nat.add_comm]
  exact Nat.add_le_add_left positive _

/-- The bodies of a loop share what its array weighs. -/
theorem loop_bound (width apart rest : Nat) {weight : Nat} {items : List Value}
    (positive : 0 < weight) (light : Value.weightItems items ≤ weight - 1) :
    1 + (width + apart + 1) * Value.weightItems items + rest * weight ≤
      (width + apart + 2 + rest) * weight := by
  have shares := Nat.mul_le_mul_left (width + apart + 1) light
  obtain ⟨less, rfl⟩ : ∃ less, weight = less + 1 := ⟨weight - 1, by omega⟩
  rw [Nat.add_sub_cancel] at shares
  have split : (width + apart + 2 + rest) * (less + 1) =
      (width + apart + 1) * less + less + (width + apart + 2) + rest * (less + 1) := by
    rw [Nat.add_mul, show width + apart + 2 = (width + apart + 1) + 1 from rfl, Nat.add_mul]
    rw [Nat.mul_add (width + apart + 1), Nat.mul_one]
    omega
  omega

/-- Where the parts of a loop stand. -/
theorem codeAt_loop {scope parent : ScopeId} {access : Access} {conditions : List Condition}
    {point address : Nat} {body rest : Block} {separator : Option (String × Nat)}
    (code : CodeAt program address
      ((Block.loop scope parent access conditions point body separator rest).instructions
        address)) :
    let exit := address + 1 + body.size + (Block.separatorCode separator).length
    program.code[address]? = some (.enter scope parent access conditions point exit) ∧
      CodeAt program (address + 1) (body.instructions (address + 1)) ∧
      CodeAt program (address + 1 + body.size) (Block.separatorCode separator) ∧
      program.code[exit]? = some (.next address) ∧
      CodeAt program (exit + 1) (rest.instructions (exit + 1)) := by
  intro exit
  unfold Block.instructions at code
  have separated := code.left.right
  have ended := code.right
  have bodyLength : address + (body.size + 1) = address + 1 + body.size := by omega
  have exitLength : address + (body.size + 1 + (Block.separatorCode separator).length) = exit := by
    omega
  simp only [List.length_cons, List.length_append, Block.length_instructions] at separated ended
  rw [bodyLength] at separated
  rw [exitLength] at ended
  exact ⟨code.left.left.fetch, code.left.left.tail, separated, ended.fetch, ended.tail⟩

/-- The machine runs a block, wherever the block stands. -/
def BlockRuns (program : Program) (registry : Registry) (block : Block) : Prop :=
  ∀ ⦃visible current : Set ScopeId⦄ ⦃bindings : Bindings⦄ ⦃weight : Nat⦄ ⦃state : State⦄,
    0 < weight → Stands program block visible current bindings weight state →
    Runs program registry visible (block.size * weight) (state.address + block.size)
      state.loops (block.emit (program.inserts registry) bindings state.here) state

theorem blockRuns_done : BlockRuns program registry .done := by
  intro visible current bindings weight state _ _
  exact (Runs.refl state).upTo rfl (Nat.zero_le _)

theorem blockRuns_bind {parent : ScopeId} {access : Access} {rest : Block}
    (onward : BlockRuns program registry rest) :
    BlockRuns program registry (.bind scope parent access rest) := by
  intro visible current bindings weight state positive stands
  obtain ⟨⟨seen, ofRow, fresh, bound, proper⟩, code, agrees, light⟩ := stands
  let value := access.reach (bindings parent)
  let after := (state.assign scope value).advance
  have taken : program.step registry state (.bind scope parent access) = .ok after := by
    rw [step, agrees parent seen]
  have sizes : after.values.size = state.values.size := by
    simp [after, State.assign, State.advance, State.goto]
  have kept : ∀ id ∈ visible, after.valueOf id = state.valueOf id := fun id member =>
    valueOf_assign_of_ne fun same => fresh (same ▸ member)
  have stands : Stands program rest (Insert.insert scope visible) (Insert.insert scope current)
      (bindings.bind scope value) weight after :=
    ⟨by rw [sizes]; exact proper, code.tail, agrees.bind value bound,
      heft_bind_le light ((access.heft_reach _).trans (light parent ofRow))⟩
  have whole := Runs.silent code.fetch taken ⟨rfl, rfl, rfl, sizes, kept⟩
    ((onward positive stands).mono (Set.subset_insert scope visible) (Nat.le_refl _))
  exact whole.upTo (Nat.add_right_comm _ _ _) (one_add_le rest.size positive)

theorem blockRuns_text {literal : String} {point : Nat} {rest : Block}
    (onward : BlockRuns program registry rest) :
    BlockRuns program registry (.text literal point rest) := by
  intro visible current bindings weight state positive stands
  obtain ⟨proper, code, agrees, light⟩ := stands
  let after := (state.emit literal point).advance
  have stands : Stands program rest visible current bindings weight after :=
    ⟨proper, code.tail, agrees, light⟩
  have behind : Behind visible (state.address + 1) state.loops
      [⟨state.here ++ [point], literal⟩] state after :=
    ⟨rfl, rfl, rfl, rfl, fun _ _ => rfl⟩
  have whole := Runs.cons code.fetch
    (rfl : program.step registry state (.text literal point) = .ok after) behind
    (onward positive stands)
  exact whole.upTo (Nat.add_right_comm _ _ _) (one_add_le rest.size positive)

theorem blockRuns_insert (checked : program.check registry = .ok ()) {index : Nat} {rest : Block}
    (onward : BlockRuns program registry rest) :
    BlockRuns program registry (.insert index rest) := by
  intro visible current bindings weight state positive stands
  obtain ⟨⟨reads, proper⟩, code, agrees, light⟩ := stands
  have taken := step_insert checked reads agrees
  let after : State :=
    { state with
      address := state.address + 1
      emitted := (program.inserts registry index bindings state.here).reverse ++
        state.emitted }
  have stands : Stands program rest visible current bindings weight after :=
    ⟨proper, code.tail, agrees, light⟩
  have whole := Runs.cons code.fetch taken ⟨rfl, rfl, rfl, rfl, fun _ _ => rfl⟩
    (onward positive stands)
  exact whole.upTo (Nat.add_right_comm _ _ _) (one_add_le rest.size positive)

section Loops

variable {parent : ScopeId} {access : Access} {conditions : List Condition} {inner rest : Block}
  {weight : Nat} {state : State}

/-- The body of a loop that stands in the code runs in every row. -/
theorem loopAt_of_stands (runs : BlockRuns program registry inner)
    (stands : Stands program (.loop scope parent access conditions point inner separator rest)
      visible current bindings weight state) :
    LoopAt program registry visible bindings scope state.values.size point state.address
      inner.size separator
      (fun item index => inner.emit (program.inserts registry) (bindings.bind scope (some item))
        (state.here ++ [point, index])) state.loops := by
  obtain ⟨⟨-, -, fresh, bound, proper, -⟩, code, -, -⟩ := stands
  obtain ⟨-, body, separated, ends, -⟩ := codeAt_loop code
  refine ⟨fresh, bound, separated, ends, ?_⟩
  intro item index remaining before atBody sized row
  have place : before.here = state.here ++ [point, index] := here_of_loops row.loops
  have light : ∀ id ∈ ({scope} : Set ScopeId),
      Value.heft (bindings.bind scope (some item) id) ≤ item.weight := by
    intro id member
    rw [Set.mem_singleton_iff] at member
    simp [Bindings.bind, member, Value.heft]
  have stands : Stands program inner (Insert.insert scope visible) {scope}
      (bindings.bind scope (some item)) item.weight before :=
    ⟨by rw [sized]; exact proper, by rw [atBody]; exact body, row.agrees, light⟩
  have ran := runs (Value.weight_pos item) stands
  rw [atBody, place] at ran
  exact ran

/-- A loop is entered and left behind its last row, or passed where it has no rows. -/
theorem loop_runs {exit : Nat} {items : List Value}
    (loop : LoopAt program registry visible bindings scope state.values.size point state.address
      width separator body state.loops)
    (exits : exit = state.address + 1 + width + (Block.separatorCode separator).length)
    (entry : program.code[state.address]? =
      some (.enter scope parent access conditions point exit))
    (taken : program.step registry state (.enter scope parent access conditions point exit) =
      .ok (enterLoop state scope items point exit))
    (agrees : Agrees visible bindings state) :
    Runs program registry visible
      (1 + (width + (Block.separatorCode separator).length + 1) * Value.weightItems items)
      (exit + 1) state.loops
      (rows body (fun index => Block.separatorFragments separator (state.here ++ [point, index]))
        0 items) state := by
  subst exits
  cases items with
  | nil =>
    exact (Runs.step entry taken ⟨rfl, rfl, rfl, rfl, fun _ _ => rfl⟩).mono
      (Set.Subset.refl _) (Nat.le_add_right 1 _)
  | cons first remaining =>
    have sized : (enterLoop state scope (first :: remaining) point
        (state.address + 1 + width + (Block.separatorCode separator).length)).values.size =
          state.values.size := by
      simp [enterLoop, State.advance, State.goto, State.assign]
    have entering : Behind visible (state.address + 1)
        (⟨scope, point, 0, remaining⟩ :: state.loops) [] state
        (enterLoop state scope (first :: remaining) point
          (state.address + 1 + width + (Block.separatorCode separator).length)) :=
      ⟨rfl, rfl, rfl, sized, fun id member =>
        valueOf_assign_of_ne fun same => loop.fresh (same ▸ member)⟩
    exact Runs.silent entry taken entering
      (rows_run loop rfl remaining rfl sized ⟨rfl, agrees.bind (some first) loop.bound⟩)

theorem blockRuns_loop (runs : BlockRuns program registry inner)
    (onward : BlockRuns program registry rest) :
    BlockRuns program registry
      (.loop scope parent access conditions point inner separator rest) := by
  intro visible current bindings weight state positive stands
  have loop := loopAt_of_stands runs stands
  obtain ⟨⟨seen, ofRow, -, -, -, proper⟩, code, agrees, light⟩ := stands
  obtain ⟨entry, -, -, -, behindLoop⟩ := codeAt_loop code
  let exit := state.address + 1 + inner.size + (Block.separatorCode separator).length
  let items := Condition.keep conditions (Value.elements (access.reach (bindings parent)))
  have taken : program.step registry state
      (.enter scope parent access conditions point exit) =
        .ok (enterLoop state scope items point exit) := by
    rw [step, agrees parent seen]
  have lightItems : Value.weightItems items ≤ weight - 1 :=
    (Condition.weightItems_keep conditions _).trans
      (Nat.sub_le_sub_right ((access.heft_reach _).trans (light parent ofRow)) 1)
  have whole := (loop_runs loop rfl entry taken agrees).append fun between behind => by
    have stands : Stands program rest visible current bindings weight between :=
      ⟨by rw [behind.size]; exact proper, by rw [behind.address]; exact behindLoop,
        behind.agrees agrees, light⟩
    have last := onward positive stands
    rw [behind.address, behind.loops, behind.here] at last
    exact last
  refine whole.upTo ?_ (loop_bound inner.size _ rest.size positive lightItems)
  simp only [Block.size]
  omega

end Loops

/-- The machine runs every block. -/
theorem block_runs (checked : program.check registry = .ok ()) (block : Block) :
    BlockRuns program registry block := by
  induction block with
  | done => exact blockRuns_done
  | bind _ _ _ _ onward => exact blockRuns_bind onward
  | text _ _ _ onward => exact blockRuns_text onward
  | insert _ _ onward => exact blockRuns_insert checked onward
  | loop _ _ _ _ _ _ _ _ runs onward => exact blockRuns_loop runs onward

/-! ## Whole programs -/

theorem runFor_at_end {state : State} (atEnd : program.code.size ≤ state.address) (fuel : Nat) :
    program.runFor registry fuel state = some (.ok state) := by
  have nothing : program.code[state.address]? = none := Array.getElem?_eq_none atEnd
  unfold runFor
  rw [nothing]

theorem agrees_initial (unbound : Bindings) (payload : Value)
    (occupied : 0 < program.parents.size) :
    Agrees {Outline.root} (unbound.start payload) (program.initial payload) := by
  intro id member
  rw [Set.mem_singleton_iff] at member
  subst member
  simp [State.valueOf, initial, Outline.root, occupied, Bindings.start, Bindings.bind]

/-- A program made of a block that needs the payload only is run to its end and
emits what the block emits.  What scopes hold that the block has not bound plays
no part. -/
theorem run_of_block {block : Block} (checked : program.check registry = .ok ())
    (occupied : 0 < program.parents.size) (code : program.code = (block.instructions 0).toArray)
    (proper : block.Scoped program.parents.size (Reads program) {Outline.root} {Outline.root})
    (unbound : Bindings) (data : Value) :
    program.run data registry =
      .ok (Rendering.literal [] 0 program.before ++
        block.emit (program.inserts registry) (unbound.start (payloadOf data)) [] ++
        Rendering.literal [] program.afterPoint program.after) := by
  let payload := payloadOf data
  let first := program.initial payload
  have stands : Stands program block {Outline.root} {Outline.root} (unbound.start payload)
      payload.weight first := by
    refine ⟨?_, ?_, agrees_initial unbound payload occupied, ?_⟩
    · simpa [first, initial] using proper
    · exact ⟨[], by simp [first, initial, code]⟩
    · intro id member
      rw [Set.mem_singleton_iff] at member
      simp [Bindings.start, Bindings.bind, member, Value.heft]
  obtain ⟨steps, last, few, reaches, behind⟩ :=
    block_runs checked block (Value.weight_pos payload) stands
  have size : program.code.size = block.size := by simp [code]
  have enough : program.fuelFor payload = program.fuelFor payload - steps + steps := by
    have : steps ≤ program.fuelFor payload := by rw [fuelFor, size]; exact few
    omega
  have atEnd : program.code.size ≤ last.address := by
    rw [behind.address, size]
    exact Nat.le_add_left _ _
  have ran : program.runFor registry (program.fuelFor payload) (program.initial payload) =
      some (.ok last) := by
    rw [enough, reaches, runFor_at_end atEnd]
  have place : first.here = [] := rfl
  have ahead : (first.emitted).reverse = Rendering.literal [] 0 program.before := by
    unfold Rendering.literal
    simp only [first, initial]
    split <;> rfl
  have behindAll : (if program.after.isEmpty then [] else
      [(⟨[program.afterPoint], program.after⟩ : Fragment)]) =
        Rendering.literal [] program.afterPoint program.after := rfl
  unfold run
  rw [checked]
  simp only
  rw [ran]
  simp only [Except.map, collect, behind.emitted, List.reverse_append, List.reverse_reverse, place,
    behindAll]
  rw [ahead]

end Stencil.Program
