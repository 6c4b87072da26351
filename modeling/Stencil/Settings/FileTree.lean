import Stencil.Settings.Path

namespace Stencil.Settings

/-!
# Trees of files

Settings are looked for among files that are given as a tree; nothing here reads a
disk.  A file or directory has one location, the names from the root down to it,
while many paths may lead there.

A path is followed part by part.  Every part but the last has to lead to a
directory, even where the next one leads back out of it.
-/

/-- The names from the root down to a file or directory. -/
abbrev Location := List String

/-- Why a file cannot be read. -/
inductive ReadFault where
  /-- There is nothing of that name. -/
  | absent
  /-- The path goes on behind a file. -/
  | behindFile
  /-- There is a directory instead of a file. -/
  | directory
  /-- A name exceeds the length that names may have. -/
  | longName
  /-- A name contains the null character, which no name may. -/
  | nullInName
  /-- The file may not be opened. -/
  | denied
  /-- The file does not hold text. -/
  | notText
  deriving DecidableEq, Repr

/-- What a file holds for one who opens it. -/
inductive Content where
  | text (written : String)
  /-- Bytes that are no text. -/
  | bytes
  /-- Nothing, since it may not be opened. -/
  | locked
  deriving DecidableEq, Repr

/-- The text of a file. -/
def Content.read : Content → Except ReadFault String
  | .text written => .ok written
  | .bytes => .error .notText
  | .locked => .error .denied

/-- Files with what they hold, directories that need hold none, and the directory
where one works. -/
structure FileTree where
  files : List (Location × Content)
  directories : List Location
  workingDirectory : Location

namespace FileTree

/-- Whether there is a directory at a location: the root, the one where one works,
one that is listed, or one around any of these or around a file. -/
def isDirectory (tree : FileTree) (place : Location) : Bool :=
  place.isEmpty || (tree.workingDirectory :: tree.directories).any place.isPrefixOf
    || tree.files.any fun file => place.isPrefixOf file.1 && place != file.1

/-- What the file at a location holds.  Where a directory is, there is no file. -/
def content? (tree : FileTree) (place : Location) : Option Content :=
  if tree.isDirectory place then none else tree.files.lookup place

/-- The greatest length of a name in bytes. -/
def nameLimit : Nat := 255

/-- Go from a location on into a name. -/
def enter (tree : FileTree) (place : Location) (name : String) : Except ReadFault Location :=
  let inner := place ++ [name]
  if nameLimit < name.utf8ByteSize then .error .longName
  else if (tree.content? inner).isSome || tree.isDirectory inner then .ok inner
  else .error .absent

/-- Where parts lead from a location.  The root is around itself. -/
def follow (tree : FileTree) (place : Location) : List String → Except ReadFault Location
  | [] => .ok place
  | part :: rest =>
    if (tree.content? place).isSome then .error .behindFile
    else if isIdle part then follow tree place rest
    else if part = ".." then follow tree place.dropLast rest
    else
      match enter tree place part with
      | .error fault => .error fault
      | .ok inner => follow tree inner rest

/-- Where a path leads.  An empty one leads nowhere. -/
def locate (tree : FileTree) (path : Path) : Except ReadFault Location :=
  if path.isEmpty then .error .absent
  else if path.parts.any fun part => part.toList.contains (Char.ofNat 0) then .error .nullInName
  else follow tree (if path.absolute then [] else tree.workingDirectory) path.parts

/-- The text of the file that a path leads to. -/
def read (tree : FileTree) (path : Path) : Except ReadFault String :=
  match tree.locate path with
  | .error fault => .error fault
  | .ok place =>
    match tree.content? place with
    | some content => content.read
    | none => .error .directory

/-- Whether a path leads to a file.  It need not be one that can be read. -/
def isFile (tree : FileTree) (path : Path) : Bool :=
  match tree.locate path with
  | .error _ => false
  | .ok place => (tree.content? place).isSome

end FileTree

end Stencil.Settings
