import Stencil.Layout
import Stencil.Program.Block
import Stencil.Text.Classes

namespace Stencil.Program

/-!
# Compiling an outline

Every scope belongs to the body of the innermost dimension around its parent,
every slot to the body it is emitted from.  A body binds its objects first, then
runs its loops, then emits its values, so that everything a loop or a value needs
is bound when it is reached.

The scopes may be given in any order in which parents come first.  A scope given
twice is compiled twice; its second loop has no body, since the body belongs to
the first.
-/

/-! ## Checking the order -/

/-- Check that the next scope exists and that its parent came before it. -/
def place (outline : Outline) (placed : List ScopeId) (id : ScopeId) :
    Except Error (List ScopeId) :=
  match outline.scopes[id]? with
  | none => .error (.inconsistentScope id .orderedUnknown)
  | some scope =>
    if id = Outline.root then .ok (id :: placed)
    else
      match scope.parent with
      | none => .error (.inconsistentScope id (.orderedRoot scope.name))
      | some parent =>
        if placed.contains parent then .ok (id :: placed)
        else .error (.inconsistentScope id (.orderedBeforeParent scope.name parent))

/-- Check that every scope comes, and after its parent. -/
def checkOrder (outline : Outline) (order : List ScopeId) : Except Error Unit :=
  match order.foldlM (place outline) [] with
  | .error error => .error error
  | .ok placed =>
    match (List.range outline.scopes.size).find? fun id => !placed.contains id with
    | some missing => .error (.inconsistentScope missing .neverOrdered)
    | none => .ok ()

/-! ## Insertions -/

/-- An insertion with the body it is emitted from. -/
structure Placed where
  host : Option ScopeId
  insertion : Insertion

/-- What a path is called in messages and listings: all before its first colon. -/
def baseText (path : String) : String :=
  String.ofList (Text.trim (path.toList.takeWhile (· != ':')))

/-- The insertion of a slot, if it is emitted from an array or the top level. -/
def placeSlot (outline : Outline) (layout : Layout) (item : Slot × SlotId) :
    Except Error Placed :=
  let (slot, id) := item
  if outline.scopes.size ≤ slot.scope then
    .error (.inconsistentScope slot.scope (.slotOfUnknown slot.path))
  else
    let host := layout.host outline id
    match host.filter fun array => !outline.scopeIs Scope.isArray array with
    | some array => .error (.inconsistentScope array (.emittedOutsideArray slot.path))
    | none =>
      .ok ⟨host, slot.scope, slot.field, layout.leading id,
        ⟨baseText slot.path, slot.calls⟩, slot.place.point⟩

/-- The insertions of all slots that are emitted, in their order. -/
def placeSlots (outline : Outline) (layout : Layout) : Except Error (List Placed) :=
  (outline.slots.toList.zipIdx.filter fun item => !layout.omits item.2).mapM
    (placeSlot outline layout)

/-! ## Bodies -/

/-- A scope with its number and that of its parent. -/
structure Member where
  id : ScopeId
  scope : Scope
  parent : ScopeId

/-- A scope as a member of some body; the payload's own scope is in none. -/
def member? (outline : Outline) (id : ScopeId) : Option Member :=
  outline.scopes[id]?.bind fun scope => scope.parent.map fun parent => ⟨id, scope, parent⟩

/-- The members of a body, in the order given. -/
def members (outline : Outline) (order : List ScopeId) (body : Option ScopeId) : List Member :=
  (order.filterMap (member? outline)).filter fun member =>
    outline.dimensionAround? member.parent == body

/-- The bindings of the objects among some members, before a block. -/
def bindings (rest : Block) : List Member → Block
  | [] => rest
  | member :: more =>
    if member.scope.isArray then bindings rest more
    else .bind member.id member.parent member.scope.access (bindings rest more)

/-- The separator of a repetition with both ends, unless it is empty. -/
def separatorOf (layout : Layout) (member : Member) : Option (String × Nat) :=
  match member.scope.closing?, layout.row? member.id with
  | some closing, some row =>
    if row.separator.isEmpty then none else some (row.separator, closing.point)
  | _, _ => none

/-- The text that opens a repetition, unless it is empty, before a block. -/
def opening (layout : Layout) (member : Member) (rest : Block) : Block :=
  match layout.row? member.id with
  | some row =>
    if row.opening.isEmpty then rest
    else .text row.opening member.scope.opened.point rest
  | none => rest

/-- A loop over an array, before a block. -/
def loopOf (layout : Layout) (member : Member) (body rest : Block) : Block :=
  opening layout member
    (.loop member.id member.parent member.scope.access member.scope.conditions
      member.scope.opened.point body (separatorOf layout member) rest)

/-- The loops of the arrays among some members, before a block.  A scope that was
seen before has its body already. -/
def loops (layout : Layout) (bodyOf : ScopeId → Block) (rest : Block) :
    List ScopeId → List Member → Block
  | _, [] => rest
  | seen, member :: more =>
    let after := loops layout bodyOf rest (member.id :: seen) more
    if member.scope.isArray then
      loopOf layout member (if seen.contains member.id then .done else bodyOf member.id) after
    else after

/-- The insertions that are emitted from a body. -/
def insertionsOf (body : Option ScopeId) : List (Placed × Nat) → Block
  | [] => .done
  | (placed, index) :: more =>
    if placed.host = body then .insert index (insertionsOf body more)
    else insertionsOf body more

/-- The block of a body.  Loops nest no deeper than there are scopes. -/
def block (outline : Outline) (order : List ScopeId) (layout : Layout)
    (insertions : List (Placed × Nat)) : Nat → Option ScopeId → Block
  | 0, _ => .done
  | fuel + 1, body =>
    let inside := members outline order body
    let bodyOf (id : ScopeId) : Block :=
      block outline order layout insertions fuel (some id)
    bindings (loops layout bodyOf (insertionsOf body insertions) [] inside) inside

/-- Compile an outline with its text, scope by scope in the order given. -/
def compile (outline : Outline) (order : List ScopeId) (layout : Layout) (settings : Settings) :
    Except Error Program := do
  checkOrder outline order
  let placed ← placeSlots outline layout
  let top := block outline order layout placed.zipIdx outline.scopes.size none
  .ok
    { code := (top.instructions 0).toArray
      insertions := (placed.map Placed.insertion).toArray
      parents := outline.scopes.map Scope.parent
      before := layout.before
      after := layout.after
      afterPoint := outline.lastPoint + 1
      escape := settings.escape }

end Stencil.Program
