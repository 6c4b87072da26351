import Stencil.Settings
import Stencil.Toml.Reader

namespace Stencil.Settings

/-!
# Reading settings

A settings file is a TOML document with two entries that count; others are
ignored, and one that is missing keeps its default.  An entry that counts has to
name one of its choices exactly.  A choice is named by a text or, since TOML has
no names, by a table whose only key it is and which holds nothing under it.
-/

/-- The names of the policies on repetitions without end. -/
def unterminatedNames : List (String × Unterminated) :=
  [("permissive", .permissive), ("strict", .strict)]

/-- The names of the encodings. -/
def escapeNames : List (String × Escape) := [("none", .none), ("xml", .xml)]

/-- Whether nothing stands under a key. -/
def isVoid : Toml → Bool
  | .array items => items.isEmpty
  | .table _ entries => entries.isEmpty
  | _ => false

/-- The choice that an entry names. -/
def choice? {α : Type} (names : List (String × α)) : Toml → Option α
  | .string s => names.lookup s
  | .table _ [(name, inner)] => if isVoid inner then names.lookup name else none
  | _ => none

/-- The choice of an entry, or the default if there is no such entry. -/
def entry? {α : Type} (names : List (String × α)) (default : α) (key : String)
    (entries : Toml.Entries) : Option α :=
  match entries.lookup key with
  | none => some default
  | some entry => choice? names entry

/-- The settings of a document. -/
def ofEntries? (entries : Toml.Entries) : Option Settings := do
  let unterminated ← entry? unterminatedNames .permissive "unterminated" entries
  let escape ← entry? escapeNames .none "escape" entries
  some ⟨unterminated, escape⟩

/-- The settings written in a file, unless it is invalid. -/
def read? (text : String) : Option Settings := (Toml.read? text).bind ofEntries?

end Stencil.Settings
