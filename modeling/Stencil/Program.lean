import Stencil.Formatter.Chain
import Stencil.Outline
import Stencil.Settings

namespace Stencil

/-!
# Programs

A template is compiled once and rendered many times.  What is rendered is a flat
list of instructions that does not depend on any payload: bindings of objects,
loops over arrays, and the text and values to emit.  Loops are marked by their
ends, each knowing where the other stands.
-/

/-- One instruction.  Points are those of the markers. -/
inductive Instruction where
  /-- Bind an object scope. -/
  | bind (scope parent : ScopeId) (access : Access)
  /-- Begin a loop over the elements that satisfy the conditions, or go on
  behind `exit` if there are none. -/
  | enter (scope parent : ScopeId) (access : Access) (conditions : List Condition)
      (point exit : Nat)
  /-- Go on with the next element behind `entry`, or leave the loop. -/
  | next (entry : Nat)
  /-- Emit a value. -/
  | insert (index : Nat)
  /-- Emit text. -/
  | text (text : String) (point : Nat)
  /-- Emit text unless this is the last element. -/
  | separator (text : String) (point : Nat)
  deriving Repr

/-- A value to emit. -/
structure Insertion where
  scope : ScopeId
  field : String
  /-- The literal text before the value. -/
  leading : String
  chain : Formatter.Chain
  point : Nat
  deriving Repr

/-- A compiled template. -/
structure Program where
  code : Array Instruction
  insertions : Array Insertion
  /-- The parent of each scope. -/
  parents : Array (Option ScopeId)
  before : String
  after : String
  /-- The point behind the last marker. -/
  afterPoint : Nat
  escape : Escape
  deriving Repr

/-- Check that every formatter of the program exists. -/
def Program.check (program : Program) (registry : Registry) : Except Error Unit :=
  program.insertions.toList.forM fun insertion => insertion.chain.check registry

end Stencil
