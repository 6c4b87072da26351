namespace Stencil

/-!
# TOML documents

A settings file is a TOML document: a table of named entries, some of them
tables in turn.  Settings are texts, so numbers, truth values and dates are kept
as they are written.

A document may define a table in pieces, but no entry twice.  What counts as
twice depends on how a table came about, so every table remembers its origin.
-/

namespace Toml

/-- How a table came about. -/
inductive Origin where
  /-- Written between braces, and complete. -/
  | inline
  /-- Mentioned in the header of a table inside it. -/
  | implied
  /-- Defined by a header of its own. -/
  | headed
  /-- Made or extended by a key with points. -/
  | dotted
  deriving DecidableEq, Repr

end Toml

/-- An entry of a document. -/
inductive Toml where
  | string (s : String)
  /-- A number, truth value or date, as it is written. -/
  | plain (spelling : String)
  | array (items : List Toml)
  | table (origin : Toml.Origin) (entries : List (String × Toml))
  /-- Tables defined one after the other under one header. -/
  | tables (items : List (List (String × Toml)))
  deriving Repr

namespace Toml

/-- The entries of a table. -/
abbrev Entries := List (String × Toml)

/-- Put an entry under a key that has one. -/
def replace (key : String) (entry : Toml) (entries : Entries) : Entries :=
  entries.map fun item => if item.1 = key then (key, entry) else item

/-- Change the last of some tables. -/
def changeLast (change : Entries → Option Entries) :
    List Entries → Option (List Entries)
  | [] => none
  | [last] => (change last).map fun made => [made]
  | first :: rest => (changeLast change rest).map (first :: ·)

/-- Add a value under a key with points.  The tables on the way are made by such
keys, or were only implied and count as made by such keys from then on.  A table
with a header of its own gets no entry; of tables under one header the last may
be passed, but gets none either. -/
def assign (value : Toml) : List String → Entries → Option Entries
  | [], _ => none
  | [key], entries =>
    if (entries.lookup key).isSome then none else some (entries ++ [(key, value)])
  | key :: path, entries =>
    match entries.lookup key with
    | none => (assign value path []).map fun inner => entries ++ [(key, .table .dotted inner)]
    | some (.table .dotted held) =>
      (assign value path held).map fun inner => replace key (.table .dotted inner) entries
    | some (.table .implied held) =>
      (assign value path held).map fun inner => replace key (.table .dotted inner) entries
    | some (.tables items) =>
      if path.length < 2 then none
      else
        (changeLast (assign value path) items).map fun made => replace key (.tables made) entries
    | some _ => none

/-- Change the table at the end of a path of headers, of tables under one header
the last.  What is missing on the way is implied. -/
def changeAt (finish : String → Entries → Option Entries) :
    List String → Entries → Option Entries
  | [], _ => none
  | [key], entries => finish key entries
  | key :: path, entries =>
    match entries.lookup key with
    | none => (changeAt finish path []).map fun inner => entries ++ [(key, .table .implied inner)]
    | some (.table .inline _) => none
    | some (.table origin held) =>
      (changeAt finish path held).map fun inner => replace key (.table origin inner) entries
    | some (.tables items) =>
      (changeLast (changeAt finish path) items).map fun made =>
        replace key (.tables made) entries
    | some _ => none

/-- Define a table by its header.  One that was only implied may be defined. -/
def declareTable (key : String) (entries : Entries) : Option Entries :=
  match entries.lookup key with
  | none => some (entries ++ [(key, .table .headed [])])
  | some (.table .implied held) => some (replace key (.table .headed held) entries)
  | some _ => none

/-- Begin one more of the tables under a header. -/
def declareItem (key : String) (entries : Entries) : Option Entries :=
  match entries.lookup key with
  | none => some (entries ++ [(key, .tables [[]])])
  | some (.tables items) => some (replace key (.tables (items ++ [[]])) entries)
  | some _ => none

/-- Change the table under a key, or the last of the tables under it. -/
def changeTable (change : Entries → Option Entries) (key : String) (entries : Entries) :
    Option Entries :=
  match entries.lookup key with
  | some (.table origin held) =>
    (change held).map fun inner => replace key (.table origin inner) entries
  | some (.tables items) =>
    (changeLast change items).map fun made => replace key (.tables made) entries
  | _ => none

/-- Change the table that was declared last under a path of headers; the empty
path is the document itself. -/
def changeSection (change : Entries → Option Entries) (path : List String) (entries : Entries) :
    Option Entries :=
  if path.isEmpty then change entries else changeAt (changeTable change) path entries

end Toml

end Stencil
