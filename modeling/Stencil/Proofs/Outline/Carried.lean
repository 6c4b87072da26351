import Mathlib.Logic.Function.Basic
import Stencil.Proofs.Outline.Ancestry

namespace Stencil.Outline

/-!
# An outline carried into another

An outline is carried into another when each of its scopes has one there, under another
number perhaps, that is reached in the same way from the same scopes.  Around a scope and
the one it is carried to lie the same scopes then.
-/

/-- A scope and the one it is carried to. -/
structure CarriedTo (move : ScopeId → ScopeId) (scope image : Scope) : Prop where
  parent : image.parent = scope.parent.map move
  access : image.access = scope.access
  repeated : image.isArray = scope.isArray

/-- Each scope of a part has an image in the whole. -/
structure Images (move : ScopeId → ScopeId) (part whole : Outline) : Prop where
  payload : move root = root
  scopes : ∀ (id : Nat) scope, part.scopes[id]? = some scope →
    ∃ image, whole.scopes[move id]? = some image ∧ CarriedTo move scope image

/-- Each scope of a part has an image of its own. -/
structure Carries (move : ScopeId → ScopeId) (part whole : Outline) : Prop
    extends Images move part whole where
  injective : Function.Injective move

variable {move : ScopeId → ScopeId} {part whole : Outline}

theorem Images.lt_size (images : Images move part whole) {id : Nat}
    (bound : id < part.scopes.size) : move id < whole.scopes.size := by
  rcases images.scopes id _ (Array.getElem?_eq_getElem bound) with ⟨image, found, -⟩
  exact lt_size_of_getElem? found

namespace Carries

theorem scopeIs_isArray (carries : Carries move part whole) {id : Nat}
    (bound : id < part.scopes.size) :
    whole.scopeIs Scope.isArray (move id) = part.scopeIs Scope.isArray id := by
  have found := Array.getElem?_eq_getElem bound
  rcases carries.scopes id _ found with ⟨image, foundImage, same⟩
  rw [scopeIs_eq found, scopeIs_eq foundImage, same.repeated]

/-- Around a scope lie the same scopes. -/
theorem ancestry (carries : Carries move part whole) (rooted : Rooted part)
    (wholeRooted : Rooted whole) {id : Nat} (bound : id < part.scopes.size) :
    whole.ancestry (move id) = (part.ancestry id).map move := by
  refine rooted.induction (motive := fun id => whole.ancestry (move id) = (part.ancestry id).map move)
    ?_ ?_ id bound
  · rw [carries.payload, ancestry_root rooted, ancestry_root wholeRooted, List.map_singleton,
      carries.payload]
  · intro id scope parent found link _ ih
    rcases carries.scopes id scope found with ⟨image, foundImage, same⟩
    have imageLink : image.parent = some (move parent) := by
      rw [same.parent, link]
      rfl
    rw [ancestry_inside rooted found link, ancestry_inside wholeRooted foundImage imageLink, ih,
      List.map_append, List.map_singleton]

theorem filter_ancestry (carries : Carries move part whole) (rooted : Rooted part)
    (wholeRooted : Rooted whole) {property : Scope → Bool}
    (keeps : ∀ {id : Nat}, id < part.scopes.size →
      whole.scopeIs property (move id) = part.scopeIs property id)
    {id : Nat} (bound : id < part.scopes.size) :
    (whole.ancestry (move id)).filter (whole.scopeIs property) =
      ((part.ancestry id).filter (part.scopeIs property)).map move := by
  rw [carries.ancestry rooted wholeRooted bound, List.filter_map]
  congr 1
  apply List.filter_congr
  intro other member
  exact keeps (Nat.lt_of_le_of_lt (le_of_mem_ancestry rooted bound member) bound)

theorem dimensionsAround (carries : Carries move part whole) (rooted : Rooted part)
    (wholeRooted : Rooted whole) {id : Nat} (bound : id < part.scopes.size) :
    whole.dimensionsAround (move id) = (part.dimensionsAround id).map move :=
  carries.filter_ancestry rooted wholeRooted carries.scopeIs_isArray bound

theorem dimensionAround? (carries : Carries move part whole) (rooted : Rooted part)
    (wholeRooted : Rooted whole) {id : Nat} (bound : id < part.scopes.size) :
    whole.dimensionAround? (move id) = (part.dimensionAround? id).map move := by
  unfold Outline.dimensionAround?
  rw [carries.dimensionsAround rooted wholeRooted bound, List.getLast?_map]

end Carries

end Stencil.Outline
