import Stencil.Error
import Stencil.Formatter.Call
import Stencil.Formatter.Reader
import Stencil.Formatter.Registry

namespace Stencil.Formatter

/-!
# Chains of calls

A chain is the expression a marker stands for: a base, named by the path of the
marker, and calls applied to it one after the other.  Its text shows the calls
as nested applications, the first one innermost.

The only thing that can go wrong is a formatter that does not exist, and that
can be told without a value.
-/

/-- A base and the calls applied to it, innermost first. -/
structure Chain where
  base : String
  calls : List Call
  deriving Repr

namespace Chain

/-- Whether the value is passed on as it is. -/
def passesThrough (chain : Chain) : Bool := chain.calls.isEmpty

/-- Write the name of a call in front of its first argument. -/
def openCall (made : String) (call : Call) : String := made ++ call.name ++ "("

/-- Write a further argument. -/
def addArgument (made : String) (argument : Argument) : String := made ++ ", " ++ argument.text

/-- Write the further arguments of a call and its end. -/
def closeCall (made : String) (call : Call) : String :=
  call.arguments.foldl addArgument made ++ ")"

/-- The chain as nested applications: the names of the calls, the last one first, then the
base, and then call after call what stands behind its first argument. -/
def text (chain : Chain) : String :=
  chain.calls.foldl closeCall (chain.calls.reverse.foldl openCall "" ++ chain.base)

/-- A call wrapped around the text of its first argument. -/
def wrap (inner : String) (call : Call) : String :=
  call.name ++ "(" ++ inner ++ call.arguments.foldl addArgument "" ++ ")"

/-- The error for a call of a formatter that does not exist. -/
def missing (chain : Chain) (registry : Registry) (call : Call) : Error :=
  .missingFormatter call.name chain.base (registry.suggest? call.name)

/-- Check that every formatter exists; the first that does not is reported. -/
def check (chain : Chain) (registry : Registry) : Except Error Unit :=
  match chain.calls.find? fun call => !registry.contains call.name with
  | some call => .error (chain.missing registry call)
  | none => .ok ()

/-- The value of an argument; a field that is absent counts as null. -/
def argumentValue (lookup : Nat → String → Option Value) : Argument → Value
  | .literal value => value
  | .field up name => (lookup up name).getD .null

/-- Apply one call. -/
def applyCall (chain : Chain) (registry : Registry) (lookup : Nat → String → Option Value)
    (value : Value) (call : Call) : Except Error Value :=
  match registry.find? call.name with
  | some function => .ok (function value (call.arguments.map (argumentValue lookup)))
  | none => .error (chain.missing registry call)

/-- Apply the calls to a value, fields of other scopes being looked up. -/
def apply (chain : Chain) (registry : Registry) (lookup : Nat → String → Option Value)
    (value : Value) : Except Error Value :=
  chain.calls.foldlM (chain.applyCall registry lookup) value

/-- The chain with calls written one by one, as they stand in a marker. -/
def ofTexts (base : String) (calls : List String) : Except Error Chain :=
  match calls.mapM Call.ofText with
  | .ok calls => .ok ⟨base, calls⟩
  | .error fault => .error (.invalidMarker base 0 fault)

end Chain

end Stencil.Formatter
