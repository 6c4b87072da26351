import Stencil.Text.Splitting

namespace Stencil.Settings

/-!
# Paths as they are written

A path is kept as it was written, because it is shown that way.  Between its
slashes stand parts.  A name leads into what is called so, two points lead back to
the directory around, and a part that is empty or a single point leads nowhere
else.

What stands around a path is read off the writing alone: the last part is left
out, whatever it leads to.  Parts that lead nowhere else do not count, but for a
single point that a relative path begins with.
-/

/-- The parts between the slashes of a path. -/
structure Path where
  /-- Whether it starts from the root; other paths start where one works. -/
  absolute : Bool
  parts : List String
  deriving DecidableEq, Repr

/-- Whether a part leads nowhere else. -/
def isIdle (part : String) : Bool := part == "" || part == "."

namespace Path

/-- The path of a text. -/
def ofText (text : String) : Path :=
  match text.toList with
  | '/' :: rest => ⟨true, (Text.splitAll '/' rest).map String.ofList⟩
  | cs => ⟨false, (Text.splitAll '/' cs).map String.ofList⟩

/-- The text of a path. -/
def text (path : Path) : String :=
  (if path.absolute then "/" else "") ++ String.intercalate "/" path.parts

/-- Whether nothing is written. -/
def isEmpty (path : Path) : Bool :=
  !path.absolute && (path.parts == [] || path.parts == [""])

/-- A path seen from a directory.  A slash at the end of the directory is not
doubled, and a path from the root stays what it is. -/
def join (directory path : Path) : Path :=
  if path.absolute then path
  else
    let front :=
      if directory.parts.getLast? = some "" then directory.parts.dropLast else directory.parts
    { directory with parts := front ++ path.parts }

/-- A name, or names below each other, in a directory. -/
def descend (directory : Path) (names : List String) : Path := directory.join ⟨false, names⟩

/-- What is left of some parts, given from the last to the first, when one after
the other is left out with the idle ones before it. -/
def enclosing : List String → List (List String)
  | [] => []
  | part :: before =>
    if isIdle part then enclosing before
    else (before.dropWhile isIdle).reverse :: enclosing before

/-- Whether a relative path begins with a single point. -/
def isPointed (path : Path) : Bool := !path.absolute && path.parts.head? == some "."

/-- The parts of what stands around a path, from the inside out. -/
def outerParts (path : Path) : List (List String) :=
  if path.isPointed then
    (enclosing path.parts.tail.reverse).map (fun parts => "." :: parts) ++ [[]]
  else enclosing path.parts.reverse

/-- A path and what stands around it, the path itself first. -/
def ancestors (path : Path) : List Path :=
  path :: path.outerParts.map fun parts => { path with parts := parts }

/-- A path seen from a directory it is written with, without idle parts in front. -/
def within? (directory path : Path) : Option Path :=
  if path.absolute == directory.absolute && directory.parts.isPrefixOf path.parts then
    some ⟨false, (path.parts.drop directory.parts.length).dropWhile isIdle⟩
  else none

end Path

end Stencil.Settings
