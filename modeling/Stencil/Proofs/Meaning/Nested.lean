import Stencil.Proofs.Outline.Ancestry
import Stencil.Program.Compile
import Stencil.Program.Machine

namespace Stencil.Meaning

/-!
# What a template means

The meaning of a template is told along its scopes and not along its program.
There are bodies, that of the document and one for each dimension.  A body binds
its objects, then repeats the body of each of its dimensions for every element
that is kept, and then inserts its values.  Bindings are lexical: what is bound in
a row is forgotten behind it.
-/

/-! ## Payloads and elements -/

/-- The payload that data stand for: an empty object if there are none. -/
def payload (data : Value) : Value :=
  match data with
  | .null => .object []
  | _ => data

/-- The machine starts with this payload. -/
theorem payloadOf_eq (data : Value) : Program.payloadOf data = payload data := by
  cases data <;> rfl

/-- The elements of an array for which all conditions hold, in order.  The number of an
element is that in the whole array. -/
def kept (conditions : List Condition) (elements : List Value) : List Value :=
  elements.zipIdx.filterMap fun item =>
    if ∀ condition ∈ conditions, condition.holds item.1 item.2 elements.length = true then
      some item.1
    else none

/-- The machine keeps these elements. -/
theorem keep_eq_kept (conditions : List Condition) (elements : List Value) :
    Condition.keep conditions elements = kept conditions elements := by
  unfold Condition.keep kept
  simp only [← List.filterMap_eq_filter, List.map_filterMap]
  refine List.filterMap_congr fun item _ => ?_
  have hold := List.all_eq_true (l := conditions) (p := fun condition =>
    condition.holds item.1 item.2 elements.length)
  simp only [Condition.allHold, Option.guard, hold, Option.map_if]

/-! ## Bindings -/

/-- The values of the scopes; a scope bound to nothing has none. -/
abbrev Bindings := ScopeId → Option Value

/-- One more scope bound. -/
def Bindings.bind (bindings : Bindings) (scope : ScopeId) (value : Option Value) : Bindings :=
  fun other => if other = scope then value else bindings other

/-- The payload bound, and everything else left as it was. -/
def Bindings.start (unbound : Bindings) (payload : Value) : Bindings :=
  unbound.bind Outline.root (some payload)

/-! ## Rows -/

/-- What the rows of a repetition emit, from a row number on, and the separators
between them. -/
def rows {α : Type} (row : Value → Nat → List α) (separator : Nat → List α) :
    Nat → List Value → List α
  | _, [] => []
  | index, item :: more =>
    row item index ++ (if more.isEmpty then [] else separator index) ++
      rows row separator (index + 1) more

/-- The rows depend on what single rows and separators emit only. -/
theorem rows_congr {α : Type} {row other : Value → Nat → List α}
    {separator : Nat → List α} {items : List Value} :
    ∀ {index : Nat}, (∀ item ∈ items, ∀ index, row item index = other item index) →
      rows row separator index items = rows other separator index items := by
  induction items with
  | nil => intro index _; rfl
  | cons item more ih =>
    intro index same
    rw [rows, rows, same item (.head _) index, ih fun item member => same item (.tail _ member)]

/-! ## Inserted values -/

/-- The scope so many levels above another. -/
def above (parentOf : ScopeId → Option ScopeId) : Nat → ScopeId → Option ScopeId
  | 0, scope => some scope
  | up + 1, scope => (parentOf scope).bind (above parentOf up)

/-- The field of a scope so many levels above one. -/
def fieldAbove (parentOf : ScopeId → Option ScopeId) (bindings : Bindings) (scope : ScopeId)
    (up : Nat) (name : String) : Option Value :=
  (above parentOf up scope).bind fun outer =>
    (bindings outer).bind fun value => value.field? name

/-- A value handed through formatters; one that does not exist changes
nothing. -/
def format (registry : Registry) (lookup : Nat → String → Option Value)
    (calls : List Formatter.Call) (value : Value) : Value :=
  calls.foldl (fun made call =>
    match registry.find? call.name with
    | some function => function made (call.arguments.map (Formatter.Chain.argumentValue lookup))
    | none => made) value

/-- What rendering is done with. -/
structure Setting where
  registry : Registry
  escape : Escape
  parentOf : ScopeId → Option ScopeId

/-- The text of a value: none if it is absent or null, otherwise that of the
formatted value, encoded. -/
def insertedText (setting : Setting) (bindings : Bindings) (scope : ScopeId) (field : String)
    (calls : List Formatter.Call) : String :=
  match (bindings scope).bind fun value => value.field? field with
  | none | some .null => ""
  | some found =>
    Program.encode setting.escape
      (format setting.registry (fieldAbove setting.parentOf bindings scope) calls found).text

/-! ## Bodies -/

/-- A laid out outline with what it is rendered with. -/
structure Rendering where
  outline : Outline
  layout : Layout
  registry : Registry
  escape : Escape

namespace Rendering

variable (rendering : Rendering)

/-- The setting of a rendering: parents are those of the outline. -/
def setting : Setting :=
  ⟨rendering.registry, rendering.escape,
    fun id => rendering.outline.scopes[id]?.bind Scope.parent⟩

/-- The scopes of a body, in the order in which they were mentioned. -/
def scopesIn (body : Option ScopeId) : List Program.Member :=
  Program.members rendering.outline (List.range rendering.outline.scopes.size) body

def objectsIn (body : Option ScopeId) : List Program.Member :=
  (rendering.scopesIn body).filter fun member => !member.scope.isArray

def arraysIn (body : Option ScopeId) : List Program.Member :=
  (rendering.scopesIn body).filter fun member => member.scope.isArray

/-- The slots emitted from a body, in the order of the document. -/
def slotsIn (body : Option ScopeId) : List (Slot × SlotId) :=
  rendering.outline.slots.toList.zipIdx.filter fun item =>
    !rendering.layout.omits item.2 && rendering.layout.host rendering.outline item.2 == body

/-- Bind an object scope to what its access leads to from its parent. -/
def bindObject (bindings : Bindings) (object : Program.Member) : Bindings :=
  bindings.bind object.id (object.scope.access.reach (bindings object.parent))

/-- The bindings in a body: those around it and those of its objects. -/
def bindObjects (body : Option ScopeId) (outer : Bindings) : Bindings :=
  (rendering.objectsIn body).foldl bindObject outer

/-- The elements a repetition runs over: those of its array that satisfy its
conditions. -/
def elementsOf (array : Program.Member) (bindings : Bindings) : List Value :=
  kept array.scope.conditions
    (Value.elements (array.scope.access.reach (bindings array.parent)))

/-- The text of a slot: the literal text before it and its value. -/
def slotText (bindings : Bindings) (item : Slot × SlotId) : String :=
  rendering.layout.leading item.2 ++
    insertedText rendering.setting bindings item.1.scope item.1.field item.1.calls

/-- The literal text before a repetition; empty if there is none. -/
def openingOf (array : Program.Member) : String :=
  ((rendering.layout.row? array.id).map Layout.RowText.opening).getD ""

/-- The fragment of a text at a point, unless the text is empty. -/
def literal (here : Position) (point : Nat) (text : String) : List Fragment :=
  if text.isEmpty then [] else [⟨here ++ [point], text⟩]

/-- The separator behind a row. -/
def separatorAt (array : Program.Member) (here : Position) : List Fragment :=
  match Program.separatorOf rendering.layout array with
  | some (text, point) => [⟨here ++ [point], text⟩]
  | none => []

/-- What is emitted for a body standing at a position.  There are no more levels
of bodies than scopes. -/
def emitBody : Nat → Option ScopeId → Bindings → Position → List Fragment
  | 0, _, _, _ => []
  | levels + 1, body, outer, here =>
    let inside := rendering.bindObjects body outer
    let repeated := (rendering.arraysIn body).flatMap fun array =>
      literal here array.scope.opened.point (rendering.openingOf array) ++
        rows (fun item index =>
            emitBody levels (some array.id) (inside.bind array.id (some item))
              (here ++ [array.scope.opened.point, index]))
          (fun index =>
            rendering.separatorAt array (here ++ [array.scope.opened.point, index]))
          0 (elementsOf array inside)
    repeated ++ (rendering.slotsIn body).map fun item =>
      ⟨here ++ [item.1.place.point], rendering.slotText inside item⟩

/-- What is emitted for a body, whatever it is in. -/
def emitted : Option ScopeId → Bindings → Position → List Fragment :=
  rendering.emitBody rendering.outline.scopes.size

/-- What is emitted for a document: the text before it, its body, and the text
after it.  What scopes hold that are not bound plays no part. -/
def fragments (unbound : Bindings) (data : Value) : List Fragment :=
  literal [] 0 rendering.layout.before ++
    rendering.emitted none (unbound.start (payload data)) [] ++
    literal [] (rendering.outline.lastPoint + 1) rendering.layout.after

end Rendering

end Stencil.Meaning
