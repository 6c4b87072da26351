import Stencil.Proofs.Meaning.Agreement
import Stencil.Proofs.Meaning.Followed
import Stencil.Proofs.Outline.Alongside
import Stencil.Proofs.Outline.Origins

namespace Stencil.Meaning

open Marker (Step reached)
open Outline (Coherent PlainMarkers Registered Rooted Walkable accessMade root trail)

/-!
# Values along the steps of a path

In an outline without dimensions every scope is bound to what the steps to it reach from
the payload, and the scopes around it to what the first of these steps reach.  This is
where searches have to be told apart: a scope is found again by the text of its
conditions, and is bound by the conditions that made it.
-/

/-! ## Outlines without dimensions -/

/-- No path of the markers has an iterator. -/
def UnrepeatedMarkers (markers : List Marker) : Prop :=
  ∀ marker ∈ markers, ∀ path, Marker.readPath marker.path.toList = .ok path → path.Unrepeated

instance (markers : List Marker) : Decidable (UnrepeatedMarkers markers) :=
  inferInstanceAs (Decidable (∀ marker ∈ markers, ∀ path,
    Marker.readPath marker.path.toList = .ok path → path.Unrepeated))

/-- An outline of objects whose searches are told apart. -/
structure Direct (outline : Outline) : Prop where
  rooted : Rooted outline
  objects : ∀ (id : Nat) scope, outline.scopes[id]? = some scope → scope.isArray = false
  searches : ∀ (id : Nat) scope, outline.scopes[id]? = some scope →
    ∀ field conditions, scope.access = .search field conditions →
      conditions ≠ [] ∧ Condition.Legible conditions
  attributes : ∀ (id : Nat) scope, outline.scopes[id]? = some scope → id ≠ root →
    scope.access ≠ .whole

variable {outline : Outline} {markers : List Marker} {policy : Unterminated}

theorem direct_of_ofMarkers (accepted : Outline.ofMarkers markers policy = .ok outline)
    (plain : PlainMarkers markers) (unrepeated : UnrepeatedMarkers markers) : Direct outline := by
  rcases Outline.ofMarkers_eq_ok accepted with ⟨growth, grown, rfl⟩
  have keyed := Outline.keyed_growth Outline.keyed_start plain.ordered grown
  have objects : ∀ (id : Nat) scope, growth.outline.scopes[id]? = some scope →
      scope.isArray = false := by
    intro id scope found
    by_cases payload : id = root
    · rcases keyed.rooted.payload with ⟨whole, foundWhole, -, kind, -⟩
      rw [payload, foundWhole] at found
      cases found
      exact kind
    · rcases Outline.made_of_growth grown id scope found payload with
        ⟨marker, member, read, reading, step, listed, -, kind, -⟩
      have paths := unrepeated marker (Outline.mem_inDocumentOrder.mp member) read.path
        (Outline.readMarker_eq_ok reading).2
      rw [kind]
      exact (paths.direct step listed).2
  refine ⟨keyed.rooted, objects, keyed.searches, fun id scope found elsewhere whole => ?_⟩
  have array := keyed.arrays id scope found elsewhere whole
  rw [objects id scope found] at array
  cases array

theorem Direct.not_isArray (direct : Direct outline) (id : ScopeId) :
    ¬ outline.scopeIs Scope.isArray id = true := by
  intro array
  rcases Outline.scopeIs_eq_true.mp array with ⟨scope, found, kind⟩
  rw [direct.objects id scope found] at kind
  cases kind

theorem Direct.dimensionsAround (direct : Direct outline) (id : ScopeId) :
    outline.dimensionsAround id = [] :=
  List.filter_eq_nil_iff.mpr fun other _ => direct.not_isArray other

theorem Direct.repetitionsAround (direct : Direct outline) (id : ScopeId) :
    outline.repetitionsAround id = [] :=
  List.filter_eq_nil_iff.mpr fun other _ ends =>
    direct.not_isArray other (Outline.isArray_of_hasEnd ends)

/-! ## Scopes and steps -/

/-- Only the payload has an empty address. -/
theorem Direct.eq_root (direct : Direct outline) {id : Nat} (bound : id < outline.scopes.size)
    (address : outline.address id = trail []) : id = root := by
  by_contra elsewhere
  rcases direct.rooted.inside id _ (Array.getElem?_eq_getElem bound) elsewhere with
    ⟨parent, link, -⟩
  rw [Outline.address_inside direct.rooted (Array.getElem?_eq_getElem bound) link] at address
  simp [trail] at address

/-- The last step to a scope says how it is reached, and the others lead to its parent. -/
theorem Direct.last (direct : Direct outline) {id : Nat} (bound : id < outline.scopes.size)
    {front : List Step} {step : Step} (walkable : Walkable (front ++ [step]))
    (direction : step.Direct) (address : outline.address id = trail (front ++ [step])) :
    ∃ scope parent, outline.scopes[id]? = some scope ∧ scope.parent = some parent ∧
      parent < id ∧ outline.address parent = trail front ∧ scope.access = accessMade step := by
  have found := Array.getElem?_eq_getElem bound
  have elsewhere : id ≠ root := by
    rintro rfl
    rw [Outline.address_root direct.rooted] at address
    simp [trail] at address
  rcases direct.rooted.inside id _ found elsewhere with ⟨parent, link, smaller, -⟩
  rw [Outline.address_inside direct.rooted found link, trail, List.map_append] at address
  rcases List.append_inj' address rfl with ⟨outer, own⟩
  have access := Outline.access_of_footprint (walkable.written step (by simp))
    (walkable.plain step (by simp)) (direct.searches id _ found)
    (fun whole => absurd whole (direct.attributes id _ found elsewhere))
    (direct.objects id _ found) direction.1 (List.singleton_inj.mp own)
  exact ⟨_, parent, found, link, smaller, outer, access.2⟩

/-! ## Bindings -/

variable {rendering : Rendering}

/-- A scope is bound to what its steps reach. -/
theorem Direct.bound_eq_reached (direct : Direct rendering.outline) (unbound : Bindings)
    (payload : Value) (steps : List Step) :
    ∀ {id : Nat}, id < rendering.outline.scopes.size → Walkable steps →
      (∀ step ∈ steps, step.Direct) → rendering.outline.address id = trail steps →
      rendering.bindObjects none (unbound.start payload) id = reached (some payload) steps := by
  induction steps using List.reverseRecOn with
  | nil =>
    intro id bound _ _ address
    have payloadScope := direct.eq_root bound address
    rw [Rendering.bindObjects_of_ne fun object listed => ?_]
    · exact if_pos payloadScope
    · rcases Rendering.mem_objectsIn.mp listed with ⟨found, link, -⟩
      rw [payloadScope]
      exact Nat.ne_of_gt (Nat.lt_of_le_of_lt (Nat.zero_le _) (direct.rooted.parent_lt found link))
  | append_singleton front step ih =>
    intro id bound walkable directions address
    rcases direct.last bound walkable (directions step (by simp)) address with
      ⟨scope, parent, found, link, smaller, outer, access⟩
    have listed : (⟨id, scope, parent⟩ : Program.Member) ∈ rendering.objectsIn none := by
      refine Rendering.mem_objectsIn.mpr ⟨found, link, ?_, direct.objects id scope found⟩
      rw [Outline.dimensionAround?, direct.dimensionsAround]
      rfl
    have bindings : rendering.bindObjects none (unbound.start payload) id = _ :=
      Rendering.bindObjects_of_mem direct.rooted listed (unbound.start payload)
    rw [bindings, ih (smaller.trans bound) walkable.left
      (fun other member => directions other (List.mem_append_left _ member)) outer,
      Marker.reached_append, access]
    rfl

/-- The fields of the scopes around a scope, told along the steps that lead to it. -/
def fieldAlong (payload : Value) (steps : List Step) (up : Nat) (name : String) : Option Value :=
  if up ≤ steps.length then
    (reached (some payload) (steps.take (steps.length - up))).bind fun outer => outer.field? name
  else none

/-- Going up from a scope takes its steps back one by one. -/
theorem Direct.fieldAbove_eq (direct : Direct rendering.outline) (unbound : Bindings)
    (payload : Value) (steps : List Step) :
    ∀ {id : Nat}, id < rendering.outline.scopes.size → Walkable steps →
      (∀ step ∈ steps, step.Direct) → rendering.outline.address id = trail steps →
      ∀ up name, fieldAbove rendering.setting.parentOf
        (rendering.bindObjects none (unbound.start payload)) id up name =
          fieldAlong payload steps up name := by
  induction steps using List.reverseRecOn with
  | nil =>
    intro id bound walkable directions address up name
    cases up with
    | zero =>
      show (rendering.bindObjects none (unbound.start payload) id).bind _ = _
      rw [direct.bound_eq_reached unbound payload [] bound walkable directions address]
      rfl
    | succ up =>
      unfold fieldAbove above
      rw [direct.eq_root bound address, Rendering.setting_parentOf_root direct.rooted]
      rfl
  | append_singleton front step ih =>
    intro id bound walkable directions address up name
    cases up with
    | zero =>
      show (rendering.bindObjects none (unbound.start payload) id).bind _ = _
      rw [direct.bound_eq_reached unbound payload _ bound walkable directions address]
      unfold fieldAlong
      rw [if_pos (Nat.zero_le _), Nat.sub_zero, List.take_length]
    | succ up =>
      rcases direct.last bound walkable (directions step (by simp)) address with
        ⟨scope, parent, found, link, smaller, outer, -⟩
      have outside : rendering.setting.parentOf id = some parent :=
        (Rendering.setting_parentOf found).trans link
      have further := ih (smaller.trans bound) walkable.left
        (fun other member => directions other (List.mem_append_left _ member)) outer up name
      unfold fieldAbove at further ⊢
      rw [above, outside, Option.bind_some, further]
      unfold fieldAlong
      rw [List.length_append, List.length_singleton, Nat.add_sub_add_right]
      simp only [Nat.add_le_add_iff_right]
      rw [List.take_append_of_le_length (Nat.sub_le _ _)]

end Stencil.Meaning
