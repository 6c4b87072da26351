import Stencil.Named
import Stencil.Text.Casing
import Stencil.Text.EditDistance
import Stencil.Text.Quoted
import Stencil.Value

namespace Stencil

/-!
# Registries of formatters

A formatter is a function of the value so far and the further arguments.  A
registry knows formatters by name and lists them in order of their names.  Since
a name is typed by hand, a registry can also tell which of its names was
probably meant.
-/

/-- What a formatter does. -/
abbrev Formatter.Function := Value → List Value → Value

/-- Formatters by name, in ascending order, each name once. -/
structure Registry where
  entries : List (String × Formatter.Function)
  ascending : Ascending entries

namespace Registry

/-- No formatters at all. -/
def empty : Registry := ⟨[], List.Pairwise.nil⟩

/-- Add a formatter, replacing one of the same name. -/
def register (registry : Registry) (name : String) (function : Formatter.Function) :
    Registry :=
  ⟨insertNamed name function registry.entries, registry.ascending.insertNamed name function⟩

/-- Add several formatters, one after the other. -/
def registerAll (registry : Registry) (named : List (String × Formatter.Function)) : Registry :=
  named.foldl (fun made item => made.register item.1 item.2) registry

/-- The formatter of a name. -/
def find? (registry : Registry) (name : String) : Option Formatter.Function :=
  registry.entries.lookup name

/-- Whether there is a formatter of this name. -/
def contains (registry : Registry) (name : String) : Bool := (registry.find? name).isSome

/-- The names in ascending order. -/
def names (registry : Registry) : List String := registry.entries.map (·.1)

/-- The number of formatters. -/
def size (registry : Registry) : Nat := registry.entries.length

@[simp]
theorem find?_register_self (registry : Registry) (name : String)
    (function : Formatter.Function) :
    (registry.register name function).find? name = some function :=
  lookup_insertNamed_self name function registry.entries

theorem find?_register_of_ne (registry : Registry) {name other : String}
    (different : other ≠ name) (function : Formatter.Function) :
    (registry.register name function).find? other = registry.find? other :=
  lookup_insertNamed_of_ne different function registry.entries

/-! ## Suggestions -/

/-- The first of the least distances. -/
def nearest? : List (Nat × String) → Option (Nat × String)
  | [] => none
  | item :: rest =>
    match nearest? rest with
    | none => some item
    | some best => if best.1 < item.1 then some best else some item

/-- A third of the length of the wanted name, but at least two edits. -/
def tolerance (wanted : List Char) : Nat := max (wanted.length / 3) 2

/-- The registered name nearest to the wanted one, if it is near enough to be a
misspelling.  Case makes no difference. -/
def suggest? (registry : Registry) (name : String) : Option String :=
  let wanted := Text.lowerCase name.toList
  let measured := registry.names.map fun candidate =>
    (Text.editDistance wanted (Text.lowerCase candidate.toList), candidate)
  (nearest? (measured.filter fun item => item.1 ≤ tolerance wanted)).map (·.2)

/-- A one-line summary: the names between quotes. -/
def summary (registry : Registry) : String :=
  "Formatters \x7b names: [" ++ String.intercalate ", " (registry.names.map Text.quoted)
    ++ "] \x7d"

end Registry

end Stencil
