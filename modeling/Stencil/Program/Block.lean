import Stencil.Program

namespace Stencil

/-!
# Nested blocks

Before it is a flat list of instructions, a program is a tree: a block is a
sequence of statements, and a loop has a block of its own.  As instructions the
statements stand one after the other from a given address on, a loop as its entry,
its body, its separator and its end.
-/

/-- A sequence of statements. -/
inductive Block where
  | done
  | bind (scope parent : ScopeId) (access : Access) (rest : Block)
  | text (text : String) (point : Nat) (rest : Block)
  | insert (index : Nat) (rest : Block)
  /-- A loop with its body and, if its rows are separated, the separator with
  its point. -/
  | loop (scope parent : ScopeId) (access : Access) (conditions : List Condition) (point : Nat)
      (body : Block) (separator : Option (String × Nat)) (rest : Block)
  deriving Repr

namespace Block

/-- The instruction between the rows of a loop. -/
def separatorCode : Option (String × Nat) → List Instruction
  | none => []
  | some (literal, point) => [.separator literal point]

/-- The number of instructions of a block. -/
def size : Block → Nat
  | done => 0
  | bind _ _ _ rest => size rest + 1
  | text _ _ rest => size rest + 1
  | insert _ rest => size rest + 1
  | loop _ _ _ _ _ body separator rest =>
    size body + (separatorCode separator).length + 2 + size rest

/-- The instructions of a block, the first at `address`. -/
def instructions (address : Nat) : Block → List Instruction
  | done => []
  | bind scope parent access rest =>
    .bind scope parent access :: instructions (address + 1) rest
  | text literal point rest => .text literal point :: instructions (address + 1) rest
  | insert index rest => .insert index :: instructions (address + 1) rest
  | loop scope parent access conditions point body separator rest =>
    let exit := address + 1 + size body + (separatorCode separator).length
    .enter scope parent access conditions point exit
      :: instructions (address + 1) body ++ separatorCode separator
      ++ .next address :: instructions (exit + 1) rest

@[simp]
theorem length_instructions (block : Block) (address : Nat) :
    (block.instructions address).length = block.size := by
  induction block generalizing address with
  | done => rfl
  | bind scope parent access rest ih => simp [instructions, size, ih]
  | text literal point rest ih => simp [instructions, size, ih]
  | insert index rest ih => simp [instructions, size, ih]
  | loop scope parent access conditions point body separator rest body_ih rest_ih =>
    simp only [instructions, size, List.length_append, List.length_cons, body_ih, rest_ih]
    omega

end Block

end Stencil
