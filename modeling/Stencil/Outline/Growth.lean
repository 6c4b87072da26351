import Stencil.Formatter.Reader
import Stencil.Marker.Reader
import Stencil.Marker.Step
import Stencil.Outline
import Stencil.Settings
import Stencil.Sorting

namespace Stencil.Outline

open Marker (Step GroupUse)

/-!
# Building an outline

Markers are taken in the order of their offsets, those at one offset as they
were given.  Each walks the steps of its path through the outline made so far.
A step that was taken before leads to the same scope; a new one adds a scope.

Three things are refused: an attribute used both as an object and as an array, a
terminator that ends nothing, and, under the strict policy, a repetition that is
never ended.  After a terminator a path only looks scopes up, and where one does
not exist the rest of the path has no effect.
-/

/-- An outline with the keys of its scopes. -/
structure Growth where
  outline : Outline
  /-- The scope reached by the steps of a key. -/
  keys : List (String × ScopeId)
  /-- The keys of attributes that were used as arrays. -/
  arrayKeys : List String

/-- How far a marker has walked. -/
structure Progress where
  marker : Marker
  point : Nat
  scope : ScopeId
  key : String
  /-- A terminator was passed. -/
  closing : Bool
  /-- A scope looked for after a terminator does not exist. -/
  lost : Bool
  opens : List ScopeId
  closes : List ScopeId

namespace Growth

/-- Nothing but the payload. -/
def start : Growth := ⟨Outline.start, [], []⟩

/-- The scope of a key. -/
def find? (growth : Growth) (key : String) : Option ScopeId := growth.keys.lookup key

/-- Change one scope. -/
def modifyScope (growth : Growth) (id : ScopeId) (change : Scope → Scope) : Growth :=
  { growth with
    outline := { growth.outline with scopes := growth.outline.scopes.modify id change } }

/-- Change one dimension. -/
def modifyDimension (growth : Growth) (id : ScopeId) (change : Dimension → Dimension) : Growth :=
  growth.modifyScope id fun scope =>
    match scope.kind with
    | .object => scope
    | .array dimension => { scope with kind := .array (change dimension) }

/-- Add a scope under a key.  A group that follows an attribute also marks the
attribute as an array. -/
def addScope (growth : Growth) (key : String) (scope : Scope) (arrayKey : Option String) : Growth :=
  { outline := { growth.outline with scopes := growth.outline.scopes.push scope }
    keys := (key, growth.outline.scopes.size) :: growth.keys
    arrayKeys := arrayKey.toList ++ growth.arrayKeys }

end Growth

/-- The conditions of a dimension with more of them; one that is there already
is not repeated. -/
def addConditions (held added : List Condition) : List Condition :=
  added.foldl (fun made condition =>
    if made.any fun other => other.same condition then made else made ++ [condition]) held

namespace Progress

/-- The marker as a place. -/
def place (progress : Progress) : Place := ⟨progress.marker.offset, progress.point⟩

/-- Go on from an existing scope. -/
def enter (progress : Progress) (key : String) (scope : ScopeId) : Progress :=
  { progress with scope := scope, key := key }

/-- Give up looking for scopes. -/
def lose (progress : Progress) : Progress := { progress with lost := true }

/-- The error for an attribute used in two ways. -/
def mixedUse (progress : Progress) (name : String) : Error :=
  .conflictingUse progress.marker.path name

/-- A new scope at this marker, inside the scope reached. -/
def newScope (progress : Progress) (name : String) (kind : Kind) (access : Access) (depth : Nat) :
    Scope where
  name := name
  kind := kind
  parent := some progress.scope
  access := access
  depth := depth
  opened := progress.place
  slots := []

end Progress

/-- Where a walk stands. -/
abbrev Walk := Growth × Progress

/-! ## Steps -/

/-- Step to an attribute as an object. -/
def walkObject (walk : Walk) (name key : String) : Except Error Walk :=
  let (growth, progress) := walk
  match growth.find? key with
  | some id => .ok (growth, progress.enter key id)
  | none =>
    if progress.closing then .ok (growth, progress.lose)
    else if growth.arrayKeys.contains key then .error (progress.mixedUse name)
    else
      let scope := progress.newScope name .object (.field name)
        (growth.outline.depthOf progress.scope)
      .ok (growth.addScope key scope none, progress.enter key growth.outline.scopes.size)

/-- Step to the element that a search finds. -/
def walkSearch (walk : Walk) (name : String) (follows : Bool) (objectKey key : String)
    (conditions : List Condition) : Except Error Walk :=
  let (growth, progress) := walk
  match growth.find? key with
  | some id => .ok (growth, progress.enter key id)
  | none =>
    if progress.closing then .ok (growth, progress.lose)
    else if follows && (growth.find? objectKey).isSome then .error (progress.mixedUse name)
    else
      let field := if follows then some name else none
      let scope := progress.newScope name .object (.search field conditions)
        (growth.outline.depthOf progress.scope)
      .ok (growth.addScope key scope (if follows then some objectKey else none),
        progress.enter key growth.outline.scopes.size)

/-- Step into a dimension. -/
def walkLoop (walk : Walk) (name : String) (follows : Bool) (objectKey key : String)
    (iterator : String) (conditions : List Condition) : Except Error Walk :=
  let (growth, progress) := walk
  match growth.find? key with
  | some id =>
    let merged :=
      if progress.closing then growth
      else growth.modifyDimension id fun dimension =>
        { dimension with conditions := addConditions dimension.conditions conditions }
    .ok (merged, progress.enter key id)
  | none =>
    if progress.closing then .ok (growth, progress.lose)
    else if follows && (growth.find? objectKey).isSome then .error (progress.mixedUse name)
    else
      let id := growth.outline.scopes.size
      let scope := progress.newScope name (.array ⟨iterator, none, none, conditions⟩)
        (if follows then .field name else .whole) (growth.outline.depthOf progress.scope + 1)
      .ok (growth.addScope key scope (if follows then some objectKey else none),
        { progress.enter key id with opens := progress.opens ++ [id] })

/-- The dimension a terminator ends, which has to have the same iterator. -/
def findTerminated (walk : Walk) (key iterator : String) : Except Error ScopeId :=
  let (growth, progress) := walk
  match growth.find? key with
  | none =>
    .error (.brokenRepetition progress.marker.path progress.marker.offset
      (.notOpened iterator) none)
  | some id =>
    let opened := (growth.outline.scopes[id]?.bind Scope.dimension?).map Dimension.iterator
    if opened = some iterator then .ok id
    else
      .error (.brokenRepetition progress.marker.path progress.marker.offset
        (.otherIterator iterator (opened.getD "")) (growth.outline.mentionOf? id))

/-- Step through a terminator. -/
def walkTerminator (walk : Walk) (key iterator : String) : Except Error Walk := do
  let (growth, progress) := walk
  let id ← findTerminated walk key iterator
  let first := !growth.outline.scopeIs Scope.hasEnd id
  .ok (growth.modifyDimension id (Dimension.terminate progress.place),
    { progress.enter key id with
      closing := true
      closes := if first then progress.closes ++ [id] else progress.closes })

/-- Take one step. -/
def walkStep (walk : Walk) (step : Step) : Except Error Walk :=
  let objectKey := walk.2.key ++ step.attributeKey
  let key := objectKey ++ step.groupKey
  if walk.2.lost then .ok walk
  else
    match step with
    | .object name => walkObject walk name key
    | .group name follows (.search conditions) =>
      walkSearch walk name follows objectKey key conditions
    | .group name follows (.loop iterator conditions) =>
      walkLoop walk name follows objectKey key iterator conditions
    | .group _ _ (.terminate iterator) => walkTerminator walk key iterator

/-! ## Markers -/

/-- A marker with its path and its formatters read. -/
structure ReadMarker where
  marker : Marker
  path : Marker.Path
  calls : List Formatter.Call

/-- Read a marker; faults of the path are reported before those of the
formatters. -/
def readMarker (marker : Marker) : Except Error ReadMarker :=
  match Marker.readPath marker.path.toList with
  | .error fault => .error (.invalidMarker marker.path marker.offset fault)
  | .ok path =>
    match path.chain with
    | none => .ok ⟨marker, path, []⟩
    | some chain =>
      match Formatter.readChain chain with
      | .error fault => .error (.invalidMarker marker.path marker.offset fault)
      | .ok calls => .ok ⟨marker, path, calls⟩

/-- Add a slot to an outline and to the scope it is bound to. -/
def addSlot (outline : Outline) (slot : Slot) : Outline :=
  { outline with
    scopes := outline.scopes.modify slot.scope fun scope =>
      { scope with slots := scope.slots ++ [outline.slots.size] }
    slots := outline.slots.push slot }

/-- The progress at the payload. -/
def beginWalk (growth : Growth) (marker : Marker) : Progress where
  marker := marker
  point := growth.outline.occurrences.size + 1
  scope := root
  key := ""
  closing := false
  lost := false
  opens := []
  closes := []

/-- Record a marker whose path was walked; one that ends no repetition also has
a slot. -/
def record (walk : Walk) (read : ReadMarker) (field : String) : Growth :=
  let (growth, progress) := walk
  let outline := growth.outline
  let terminates := read.path.terminates
  let slot : Slot :=
    { scope := progress.scope, field := field, calls := read.calls
      place := progress.place, path := read.marker.path }
  let occurrence : Occurrence :=
    { offset := read.marker.offset, path := read.marker.path
      opens := progress.opens, closes := progress.closes
      slot := if terminates then none else some outline.slots.size
      terminates := terminates }
  let filled := if terminates then outline else addSlot outline slot
  { growth with
    outline := { filled with occurrences := filled.occurrences.push occurrence } }

/-- Add one marker. -/
def grow (growth : Growth) (marker : Marker) : Except Error Growth := do
  let read ← readMarker marker
  let (steps, field) := read.path.steps
  let walk ← steps.foldlM walkStep (growth, beginWalk growth marker)
  .ok (record walk read field)

/-! ## Whole documents -/

/-- The error for a repetition that is never ended.  The marker named beside it
is the first terminator behind its opening. -/
def neverClosed (outline : Outline) (id : ScopeId) (scope : Scope) (dimension : Dimension) :
    Error :=
  let opening := (outline.mentionOf? id).getD (scope.name, scope.opened.offset)
  let counterpart := outline.occurrences.find? fun occurrence =>
    occurrence.terminates && scope.opened.offset < occurrence.offset
  .brokenRepetition opening.1 opening.2 (.neverClosed dimension.iterator)
    (counterpart.map fun occurrence => (occurrence.path, occurrence.offset))

/-- The error for a scope, if it is a repetition without end. -/
def unterminated? (outline : Outline) (item : Scope × ScopeId) : Option Error :=
  match item.1.dimension? with
  | some dimension =>
    if dimension.closing.isNone then some (neverClosed outline item.2 item.1 dimension) else none
  | none => none

/-- Apply the policy on repetitions without end. -/
def settle (policy : Unterminated) (outline : Outline) : Except Error Outline :=
  match policy with
  | .permissive => .ok outline
  | .strict =>
    match outline.scopes.toList.zipIdx.findSome? (unterminated? outline) with
    | some error => .error error
    | none => .ok outline

/-- Markers in the order of the document. -/
def inDocumentOrder (markers : List Marker) : List Marker :=
  orderBy (fun left right => left.offset ≤ right.offset) markers

/-- The outline of a list of markers, in whatever order they are given. -/
def ofMarkers (markers : List Marker) (policy : Unterminated) : Except Error Outline := do
  let growth ← (inDocumentOrder markers).foldlM grow Growth.start
  settle policy growth.outline

end Stencil.Outline
