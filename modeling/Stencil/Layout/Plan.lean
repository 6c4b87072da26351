import Stencil.Error
import Stencil.Outline

namespace Stencil.Layout

/-!
# Which literal text belongs where

The text between markers belongs to what is emitted next to it.  A plan assigns
it: pieces of the document, each a range of offsets with the role it plays.  The
text itself is not needed to make a plan, only its length.

A repetition is written as two rows.  The first holds the markers with the
iterator and is the model for every element.  The second begins with the first
terminator; the text between the rows becomes the separator, and the second row
is skipped up to its last terminator.  A marker in the skipped row has no effect,
nor has one where the second row would repeat the last value of the first.

Repetitions have to be nested like the dimensions they belong to, and a value of
a repetition has to stand inside it.  Everything else is refused.
-/

/-! ## Pieces -/

/-- What a piece of literal text is for. -/
inductive Role where
  /-- It precedes the first row of a repetition. -/
  | opening (scope : ScopeId)
  /-- It stands between two rows. -/
  | separator (scope : ScopeId)
  /-- It precedes an inserted value. -/
  | leading (slot : SlotId)
  /-- It is a whole document without markers. -/
  | before
  /-- It follows the last marker. -/
  | after
  deriving DecidableEq, Repr

/-- A range of byte offsets and its role. -/
structure Piece where
  role : Role
  start : Nat
  stop : Nat
  deriving DecidableEq, Repr

/-- The pieces in the order of the document; the repetition from which each slot
is emitted, none being the top level; and the slots in skipped rows. -/
structure Plan where
  pieces : List Piece
  hosts : List (SlotId × Option ScopeId)
  dropped : List SlotId
  deriving Repr

/-- The range that plays a role. -/
def Plan.piece? (plan : Plan) (role : Role) : Option Piece :=
  plan.pieces.find? fun piece => piece.role == role

/-- The repetition from which a slot is emitted. -/
def Plan.host (plan : Plan) (slot : SlotId) : Option ScopeId := (plan.hosts.lookup slot).join

/-! ## The sweep -/

/-- A repetition whose first row is being read. -/
structure OpenRow where
  scope : ScopeId
  /-- Where the row began. -/
  start : Nat
  /-- Where the skipped row will end. -/
  skipEnd : Nat
  /-- Where the last value of the row stood. -/
  tail : Nat
  deriving Repr

/-- How far the document has been read.  All text before `position` is assigned
or skipped. -/
structure Sweep where
  position : Nat
  /-- Where the skipped row would repeat the last value of the row just closed,
  if that lies behind its last terminator. -/
  echo : Option Nat
  /-- The repetitions being read, innermost first. -/
  rows : List OpenRow
  plan : Plan
  deriving Repr

namespace Sweep

/-- Before the first character. -/
def start : Sweep := ⟨0, none, [], ⟨[], [], []⟩⟩

/-- The repetitions being read, outermost first. -/
def reading (sweep : Sweep) : List ScopeId := (sweep.rows.map OpenRow.scope).reverse

/-- Assign a range and go on behind it. -/
def assign (sweep : Sweep) (role : Role) (start stop : Nat) : Sweep :=
  { sweep with
    position := stop
    plan := { sweep.plan with pieces := sweep.plan.pieces ++ [⟨role, start, stop⟩] } }

/-- Assign the text from here up to a place.  If the place lies further back there
is no such text, and the program stops. -/
def take (sweep : Sweep) (role : Role) (stop : Nat) : Except Error Sweep :=
  if sweep.position ≤ stop then .ok (sweep.assign role sweep.position stop)
  else .error (.stopped sweep.position stop)

/-- The error for a marker at the wrong place, with the marker that opened some
scope beside it. -/
def misplaced (outline : Outline) (occurrence : Occurrence) (fault : RepetitionFault)
    (other : Option ScopeId) : Error :=
  .brokenRepetition occurrence.path occurrence.offset fault
    (other.bind outline.mentionOf?)

/-! ### Skipping -/

/-- Pass a marker in a skipped row.  It may neither end a repetition nor begin
one that has an end. -/
def skip (outline : Outline) (occurrence : Occurrence) (sweep : Sweep) : Except Error Sweep :=
  match occurrence.closes with
  | scope :: _ =>
    .error (misplaced outline occurrence (.closedInSkippedRow (outline.nameOf scope)) (some scope))
  | [] =>
    match occurrence.opens.find? (outline.scopeIs Scope.hasEnd) with
    | some scope =>
      .error (misplaced outline occurrence (.startsInSkippedRow (outline.nameOf scope)) none)
    | none =>
      .ok { sweep with
        plan := { sweep.plan with dropped := occurrence.slot.toList ++ sweep.plan.dropped } }

/-! ### Ending a repetition -/

/-- Why a repetition that is not the innermost cannot be ended. -/
def closingFault (outline : Outline) (sweep : Sweep) (scope : ScopeId) : RepetitionFault :=
  match sweep.rows with
  | [] => .closedOutside (outline.nameOf scope)
  | inner :: _ =>
    if sweep.reading.contains scope then
      .closedAroundInner (outline.nameOf scope) (outline.nameOf inner.scope)
    else .closedOutside (outline.nameOf scope)

/-- End the innermost repetition.  The text since the last marker separates its
rows, and reading goes on at its last terminator. -/
def close (outline : Outline) (occurrence : Occurrence) (sweep : Sweep) (scope : ScopeId) :
    Except Error Sweep :=
  match sweep.rows with
  | [] =>
    .error (misplaced outline occurrence (closingFault outline sweep scope) (some scope))
  | row :: rest =>
    if row.scope = scope then
      let place := occurrence.offset
      let resume := max row.skipEnd place
      let echo := place + (row.tail - row.start)
      let assigned := sweep.assign (.separator scope) (min sweep.position place) place
      .ok { assigned with
        position := resume
        echo := if resume < echo then some echo else none
        rows := rest }
    else
      .error (misplaced outline occurrence (closingFault outline sweep scope) (some row.scope))

/-! ### Beginning a repetition -/

/-- Why a repetition cannot begin here. -/
def openingFault (outline : Outline) (sweep : Sweep) (name : String) : RepetitionFault :=
  match sweep.rows with
  | row :: _ => .startsInside name (outline.nameOf row.scope)
  | [] => .startsOutside name

/-- The row of a repetition with both ends. -/
def rowOf? (scope : Scope) (id : ScopeId) (place : Nat) : Option OpenRow :=
  match scope.dimension? with
  | some dimension =>
    dimension.closing.map fun closing =>
      ⟨id, scope.opened.offset, dimension.skipEnd.getD closing.offset, place⟩
  | none => none

/-- Begin a repetition.  The ones around it that have both ends have to be just
those being read. -/
def openRow (outline : Outline) (occurrence : Occurrence) (sweep : Sweep) (id : ScopeId) :
    Except Error Sweep :=
  match outline.scopes[id]? with
  | none => .error (.inconsistentScope id (.openedUnknown occurrence.path))
  | some scope =>
    let around := (scope.parent.map outline.repetitionsAround).getD []
    if around = sweep.reading then
      (sweep.take (.opening id) occurrence.offset).map fun assigned =>
        { assigned with
          echo := none
          rows := (rowOf? scope id occurrence.offset).toList ++ sweep.rows }
    else
      .error (misplaced outline occurrence (openingFault outline sweep scope.name)
        (sweep.rows.head?.map OpenRow.scope))

/-! ### Inserting a value -/

/-- The repetition from which a slot is emitted: its own innermost dimension if
just its own repetitions are being read, the one being read if it stands deeper
than its own scope.  Anything else is out of place. -/
def hostOf? (chain bounded reading : List ScopeId) : Option (Option ScopeId) :=
  if bounded = reading then some chain.getLast?
  else if chain.length < reading.length ∧ chain = reading.take chain.length then
    some reading.getLast?
  else none

/-- The error for a value out of place. -/
def outOfPlace (outline : Outline) (occurrence : Occurrence) (bounded reading : List ScopeId) :
    Error :=
  match bounded.find? fun scope => !reading.contains scope with
  | some scope =>
    misplaced outline occurrence (.usedOutside occurrence.path (outline.nameOf scope))
      (some scope)
  | none => misplaced outline occurrence (.usedInForeign occurrence.path) reading.getLast?

/-- Remember where the last value of the innermost row stood. -/
def extendTail (place : Nat) : List OpenRow → List OpenRow
  | [] => []
  | row :: rest => { row with tail := max row.tail place } :: rest

/-- Insert a value.  The text since the last marker precedes it. -/
def insert (outline : Outline) (occurrence : Occurrence) (sweep : Sweep) (id : SlotId) :
    Except Error Sweep :=
  match outline.slots[id]? with
  | none => .error (.inconsistentScope id (.missingSlot occurrence.path))
  | some slot =>
    let bounded := outline.repetitionsAround slot.scope
    match hostOf? (outline.dimensionsAround slot.scope) bounded sweep.reading with
    | none => .error (outOfPlace outline occurrence bounded sweep.reading)
    | some host =>
      (sweep.take (.leading id) occurrence.offset).map fun assigned =>
        { assigned with
          echo := none
          rows := extendTail occurrence.offset sweep.rows
          plan := { assigned.plan with hosts := (id, host) :: assigned.plan.hosts } }

/-! ### All markers -/

/-- Read a marker that is not skipped: what it ends, what it begins, and the
value it inserts. -/
def read (outline : Outline) (occurrence : Occurrence) (sweep : Sweep) : Except Error Sweep := do
  let closed ← occurrence.closes.reverse.foldlM (close outline occurrence) sweep
  let opened ← occurrence.opens.foldlM (openRow outline occurrence) closed
  occurrence.slot.toList.foldlM (insert outline occurrence) opened

/-- Pass one marker. -/
def pass (outline : Outline) (sweep : Sweep) (occurrence : Occurrence) : Except Error Sweep :=
  if occurrence.offset < sweep.position then skip outline occurrence sweep
  else if sweep.echo = some occurrence.offset then
    skip outline occurrence { sweep with position := occurrence.offset }
  else read outline occurrence sweep

/-- End the document.  What is left follows the last marker. -/
def finish (outline : Outline) (length : Nat) (sweep : Sweep) : Except Error Plan :=
  match sweep.rows with
  | row :: _ =>
    .error (.brokenRepetition (outline.nameOf row.scope) row.start .openAtEnd
      (outline.mentionOf? row.scope))
  | [] =>
    let role : Role := if outline.occurrences.isEmpty then .before else .after
    (sweep.take role length).map Sweep.plan

end Sweep

/-- The plan of a document of so many bytes. -/
def Plan.make (outline : Outline) (length : Nat) : Except Error Plan := do
  let sweep ← outline.occurrences.toList.foldlM (Sweep.pass outline) Sweep.start
  Sweep.finish outline length sweep

end Stencil.Layout
