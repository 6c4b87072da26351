import Stencil.Settings.FileTree
import Stencil.Settings.Reader

namespace Stencil.Settings

/-!
# Finding the settings

Settings come from a file named explicitly, or else from a file found for the
directory one works in: the nearest one in that directory or one around it, then
the one of the user.  Only the first of each is looked at.  An explicit file has
to be valid; one that was found is passed over if it is not.

Where to look does not depend on how settings are written down, so loading is told
for any way to read them.
-/

/-! ## Places -/

/-- Where the user keeps settings of programs. -/
structure Environment where
  /-- The home directory. -/
  home : Option Path
  /-- The directory for settings, if it was chosen. -/
  settingsHome : Option Path

/-- The names of a settings file, the first one preferred. -/
def fileNames : List String := [".tessera.toml", "tessera.toml"]

/-- The place of the user's settings file in a directory for settings. -/
def inSettingsHome (directory : Path) : Path := directory.descend ["tessera", "config.toml"]

/-- The directory for settings, as the platform has it: the one chosen, if its
path is absolute, or else a hidden one at home. -/
def Environment.platformHome (environment : Environment) : Option Path :=
  match environment.settingsHome.filter Path.absolute with
  | some directory => some directory
  | none => environment.home.map fun home => home.descend [".config"]

/-- The places of a settings file in a directory and those around it, the nearest
first. -/
def around (start : Path) : List Path :=
  start.ancestors.flatMap fun directory => fileNames.map fun name => directory.descend [name]

/-- The nearest settings file around a directory. -/
def nearest? (tree : FileTree) (start : Path) : Option Path := (around start).find? tree.isFile

/-- The places of the settings file of the user. -/
def Environment.places (environment : Environment) : List Path :=
  (environment.settingsHome.toList ++ environment.platformHome.toList).map inSettingsHome

/-- The settings file of the user. -/
def ofUser? (tree : FileTree) (environment : Environment) : Option Path :=
  environment.places.find? tree.isFile

/-! ## Loading -/

/-- Why the settings of a file are not to be had. -/
inductive LoadError where
  | unreadable (fault : ReadFault)
  /-- The file is no document, or names no valid choice. -/
  | invalid (path : Path)
  deriving DecidableEq, Repr

/-- Load the settings of one file, whose text is handed to a reader. -/
def loadFile (reader : String → Option Settings) (tree : FileTree) (path : Path) :
    Except LoadError Settings :=
  match tree.read path with
  | .error fault => .error (.unreadable fault)
  | .ok text =>
    match reader text with
    | some settings => .ok settings
    | none => .error (.invalid path)

/-- The first file that can be loaded, with its settings. -/
def firstValid? (reader : String → Option Settings) (tree : FileTree) (paths : List Path) :
    Option (Settings × Path) :=
  paths.findSome? fun path =>
    match loadFile reader tree path with
    | .ok settings => some (settings, path)
    | .error _ => none

/-- What comes of trying files one after the other: the settings of the first that can
be loaded, and that file, or else the defaults. -/
def tryEach (reader : String → Option Settings) (tree : FileTree) (paths : List Path) :
    Settings × Option Path :=
  match firstValid? reader tree paths with
  | some (settings, path) => (settings, some path)
  | none => ({}, none)

/-- The settings for a directory, and the file they come from. -/
def loadBy (reader : String → Option Settings) (tree : FileTree) (environment : Environment)
    (explicit : Option Path) (start : Path) : Except LoadError (Settings × Option Path) :=
  match explicit with
  | some path => (loadFile reader tree path).map fun settings => (settings, some path)
  | none =>
    .ok (tryEach reader tree ((nearest? tree start).toList ++ (ofUser? tree environment).toList))

/-- Loading where settings files are TOML documents. -/
def load : FileTree → Environment → Option Path → Path →
    Except LoadError (Settings × Option Path) :=
  loadBy read?

end Stencil.Settings
