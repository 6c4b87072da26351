import Stencil.Fragment
import Stencil.Program
import Stencil.Text.Xml

namespace Stencil.Program

/-!
# Running a program

The machine holds the address of the next instruction, a table with the value of
every scope, and the loops being run.  The table is never cleared: a value stays
in its place until it is replaced.

A run ends.  A loop goes on only to a further element of its array, and two turns
of one loop never stand at the same place of the payload, so no instruction is
executed more often than the payload has places.
-/

/-- A loop being run. -/
structure Loop where
  scope : ScopeId
  point : Nat
  /-- The number of the row, from zero on. -/
  index : Nat
  /-- The elements still to come. -/
  remaining : List Value

/-- The state of a run. -/
structure State where
  address : Nat
  /-- The value of each scope; an absent one has none. -/
  values : Array (Option Value)
  /-- The loops being run, innermost first. -/
  loops : List Loop
  /-- What was emitted so far, the latest first. -/
  emitted : List Fragment

namespace State

/-- The value of a scope. -/
def valueOf (state : State) (scope : ScopeId) : Option Value := (state.values[scope]?).join

/-- Give a scope a value. -/
def assign (state : State) (scope : ScopeId) (value : Option Value) : State :=
  { state with values := state.values.setIfInBounds scope value }

/-- Go on at an address. -/
def goto (state : State) (address : Nat) : State := { state with address := address }

/-- Go on with the instruction behind this one. -/
def advance (state : State) : State := state.goto (state.address + 1)

/-- The position of something at a point inside the loops being run. -/
def position (state : State) (point : Nat) : Position :=
  (state.loops.reverse.flatMap fun loop => [loop.point, loop.index]) ++ [point]

/-- Emit a text at a point inside the loops being run. -/
def emit (state : State) (text : String) (point : Nat) : State :=
  { state with emitted := ⟨state.position point, text⟩ :: state.emitted }

end State

/-! ## Values -/

/-- The scope so many levels above another. -/
def ancestor? (program : Program) : Nat → ScopeId → Option ScopeId
  | 0, scope => some scope
  | up + 1, scope => (program.parents[scope]?).join.bind (program.ancestor? up)

/-- The field of a scope so many levels above the one of an insertion. -/
def fieldAbove (program : Program) (state : State) (scope : ScopeId) (up : Nat) (name : String) :
    Option Value :=
  (program.ancestor? up scope).bind fun above =>
    (state.valueOf above).bind fun value => value.field? name

/-- Encode the text of a value. -/
def encode (escape : Escape) (text : String) : String :=
  match escape with
  | .none => text
  | .xml => Text.Xml.encode text

/-- The text of an insertion.  A value that is absent or null has none, and its
formatters are not asked. -/
def insertedText (program : Program) (registry : Registry) (state : State)
    (insertion : Insertion) : Except Error String :=
  match (state.valueOf insertion.scope).bind fun value => value.field? insertion.field with
  | none | some .null => .ok ""
  | some found =>
    (insertion.chain.apply registry (program.fieldAbove state insertion.scope) found).map
      fun value => encode program.escape value.text

/-! ## Instructions -/

/-- Begin a loop, or go on behind it. -/
def enterLoop (state : State) (scope : ScopeId) (items : List Value) (point exit : Nat) : State :=
  match items with
  | [] => state.goto (exit + 1)
  | first :: remaining =>
    let bound := (state.assign scope (some first)).advance
    { bound with loops := ⟨scope, point, 0, remaining⟩ :: state.loops }

/-- Go on with the next element, or leave the loop. -/
def nextElement (state : State) (entry : Nat) : Except Error State :=
  match state.loops with
  | [] => .error (.inconsistentScope Outline.root (.unopenedLoop state.address))
  | loop :: outer =>
    match loop.remaining with
    | [] => .ok { state.advance with loops := outer }
    | item :: remaining =>
      let bound := (state.assign loop.scope (some item)).goto (entry + 1)
      .ok { bound with
        loops := { loop with index := loop.index + 1, remaining := remaining } :: outer }

/-- Whether the innermost loop has elements to come. -/
def hasMore (state : State) : Bool :=
  match state.loops with
  | [] => false
  | loop :: _ => !loop.remaining.isEmpty

/-- Execute one instruction. -/
def step (program : Program) (registry : Registry) (state : State) :
    Instruction → Except Error State
  | .bind scope parent access =>
    .ok (state.assign scope (access.reach (state.valueOf parent))).advance
  | .enter scope parent access conditions point exit =>
    let items := Condition.keep conditions (Value.elements (access.reach (state.valueOf parent)))
    .ok (enterLoop state scope items point exit)
  | .next entry => nextElement state entry
  | .insert index =>
    match program.insertions[index]? with
    | none => .error (.inconsistentScope Outline.root (.unknownInsertion state.address index))
    | some insertion =>
      (program.insertedText registry state insertion).map fun text =>
        (state.emit (insertion.leading ++ text) insertion.point).advance
  | .text text point => .ok (state.emit text point).advance
  | .separator text point =>
    .ok (if hasMore state then state.emit text point else state).advance

/-! ## Runs -/

/-- Execute instructions until the code ends, if that takes no more steps than
there is fuel. -/
def runFor (program : Program) (registry : Registry) :
    Nat → State → Option (Except Error State)
  | fuel, state =>
    match program.code[state.address]? with
    | none => some (.ok state)
    | some instruction =>
      match fuel with
      | 0 => none
      | fuel + 1 =>
        match program.step registry state instruction with
        | .error error => some (.error error)
        | .ok after => runFor program registry fuel after

/-- A payload of null counts as an empty object. -/
def payloadOf : Value → Value
  | .null => .object []
  | data => data

/-- Enough steps for any run on a payload. -/
def fuelFor (program : Program) (payload : Value) : Nat :=
  program.code.size * payload.weight

/-- The state before the first instruction: only the payload has a value. -/
def initial (program : Program) (payload : Value) : State where
  address := 0
  values := (Array.replicate program.parents.size none).setIfInBounds Outline.root (some payload)
  loops := []
  emitted := if program.before.isEmpty then [] else [⟨[0], program.before⟩]

/-- What a run emitted, and the text after it. -/
def collect (program : Program) (state : State) : List Fragment :=
  state.emitted.reverse ++
    if program.after.isEmpty then [] else [⟨[program.afterPoint], program.after⟩]

/-- Run a program on a payload.  The formatters are checked first. -/
def run (program : Program) (data : Value) (registry : Registry) : Except Error (List Fragment) :=
  match program.check registry with
  | .error error => .error error
  | .ok () =>
    let payload := payloadOf data
    match program.runFor registry (program.fuelFor payload) (program.initial payload) with
    | none => .error (.inconsistentScope Outline.root .endlessRun)
    | some result => result.map program.collect

end Stencil.Program
