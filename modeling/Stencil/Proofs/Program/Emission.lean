import Mathlib.Data.Set.Insert
import Stencil.Proofs.Meaning.Nested
import Stencil.Program.Block

namespace Stencil.Block

open Meaning

/-!
# What a block emits

A block can be read with lexical bindings: a statement passes what it binds on to
the statements behind it and into the loops, and a row is left with the bindings
it was entered with.  `Scoped` says that a block can also be read with one table
that is never cleared: it binds nothing that is visible where it stands, and
everything it reads is visible.
-/

/-- What is emitted for an insertion. -/
abbrev Inserts := Nat → Bindings → Position → List Fragment

/-- The fragments of the separator between two rows. -/
def separatorFragments (separator : Option (String × Nat)) (here : Position) : List Fragment :=
  match separator with
  | some (literal, point) => [⟨here ++ [point], literal⟩]
  | none => []

/-- What a block emits at a position. -/
def emit (inserts : Inserts) : Block → Bindings → Position → List Fragment
  | done, _, _ => []
  | bind scope parent access rest, bindings, here =>
    emit inserts rest (bindings.bind scope (access.reach (bindings parent))) here
  | text literal point rest, bindings, here =>
    ⟨here ++ [point], literal⟩ :: emit inserts rest bindings here
  | insert index rest, bindings, here =>
    inserts index bindings here ++ emit inserts rest bindings here
  | loop scope parent access conditions point body separator rest, bindings, here =>
    rows (fun item index =>
        emit inserts body (bindings.bind scope (some item)) (here ++ [point, index]))
      (fun index => separatorFragments separator (here ++ [point, index]))
      0 (Condition.keep conditions (Value.elements (access.reach (bindings parent)))) ++
      emit inserts rest bindings here

/-- A block that may stand where some scopes are visible, some of them of the
current row: it reads visible scopes only, what it binds is not visible yet, and
what it reads to bind or to repeat is of the current row. -/
def Scoped (size : Nat) (reads : Nat → Set ScopeId → Prop) :
    Block → Set ScopeId → Set ScopeId → Prop
  | done, _, _ => True
  | bind scope parent _ rest, visible, current =>
    parent ∈ visible ∧ parent ∈ current ∧ scope ∉ visible ∧ scope < size ∧
      Scoped size reads rest (Insert.insert scope visible) (Insert.insert scope current)
  | text _ _ rest, visible, current => Scoped size reads rest visible current
  | insert index rest, visible, current =>
    reads index visible ∧ Scoped size reads rest visible current
  | loop scope parent _ _ _ body _ rest, visible, current =>
    parent ∈ visible ∧ parent ∈ current ∧ scope ∉ visible ∧ scope < size ∧
      Scoped size reads body (Insert.insert scope visible) {scope} ∧
      Scoped size reads rest visible current

end Stencil.Block
