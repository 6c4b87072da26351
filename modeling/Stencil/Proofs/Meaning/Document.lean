import Stencil.Proofs.Meaning.Nested
import Stencil.Proofs.Sorting

namespace Stencil.Meaning

open Program (Member)

/-!
# The document that a template stands for

A body is written down item by item, in the order of the points of the document:
the text that opens a repetition, the values, the separator, and the repetitions.
Told this way no positions are needed, nor is anything emitted out of order.
-/

/-- A text at a point of a document. -/
structure Item where
  point : Nat
  text : String

/-- Items in the order of their points, those at one point as they come. -/
def inOrder (items : List Item) : String :=
  String.join ((orderBy (keyAtMost Item.point) items).map Item.text)

/-- The rows of a repetition one after the other; the last one is told so. -/
def rowTexts (row : Value → Bool → String) : List Value → String
  | [] => ""
  | item :: more => row item more.isEmpty ++ rowTexts row more

namespace Rendering

variable (rendering : Rendering)

/-- The texts that open the repetitions of a body. -/
def openingItems (body : Option ScopeId) : List Item :=
  (rendering.arraysIn body).map fun array =>
    ⟨array.scope.opened.point, rendering.openingOf array⟩

/-- The values of a body. -/
def valueItems (body : Option ScopeId) (inside : Bindings) : List Item :=
  (rendering.slotsIn body).map fun item => ⟨item.1.place.point, rendering.slotText inside item⟩

/-- The separator in a row of a repetition: at the point where the repetition ends,
and not in the last row. -/
def separatorItems (array : Member) (last : Bool) : List Item :=
  if last then []
  else
    match Program.separatorOf rendering.layout array with
    | some (text, point) => [⟨point, text⟩]
    | none => []

/-- The document of a body with some separators in it. -/
def expandBody : Nat → Option ScopeId → Bindings → List Item → String
  | 0, _, _, _ => ""
  | levels + 1, body, outer, separators =>
    let inside := rendering.bindObjects body outer
    let arrayItems := (rendering.arraysIn body).map fun array : Member =>
      (⟨array.scope.opened.point, rowTexts (fun item last =>
        expandBody levels (some array.id) (inside.bind array.id (some item))
          (rendering.separatorItems array last)) (elementsOf array inside)⟩ : Item)
    inOrder (rendering.openingItems body ++ rendering.valueItems body inside ++ separators ++
      arrayItems)

/-- The whole document: the text before it, its body, and the text after it. -/
def expansion (unbound : Bindings) (data : Value) : String :=
  rendering.layout.before ++
    rendering.expandBody rendering.outline.scopes.size none
      (unbound.start (payload data)) [] ++
    rendering.layout.after

end Rendering

end Stencil.Meaning
