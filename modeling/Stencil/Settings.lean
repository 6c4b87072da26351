namespace Stencil

/-!
# Settings of a compilation

Two choices, each with a default: what happens to a repetition without end, and
how inserted text is encoded.
-/

/-- What to do with a repetition that no marker ends. -/
inductive Unterminated where
  /-- Repeat it without boundaries in the document. -/
  | permissive
  /-- Refuse the template. -/
  | strict
  deriving DecidableEq, Repr, Inhabited

/-- How inserted text is encoded. -/
inductive Escape where
  /-- It is inserted as it is. -/
  | none
  /-- As character data of a markup document. -/
  | xml
  deriving DecidableEq, Repr, Inhabited

/-- All choices. -/
structure Settings where
  unterminated : Unterminated := .permissive
  escape : Escape := .none
  deriving DecidableEq, Repr, Inhabited

end Stencil
