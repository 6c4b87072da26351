import Stencil.Proofs.Meaning.Nested
import Stencil.Proofs.Outline.Bodies

namespace Stencil.Meaning.Rendering

open Program (Member)
open Outline (Rooted IsBody Inside)

/-!
# Levels of bodies

The arrays of a body have greater numbers than the body, so bodies do not nest
for ever: with as many levels as there are scopes the meaning of a body is that
of its rows, separators and values, and more levels change nothing.
-/

variable {rendering : Rendering} {body : Option ScopeId} {array : Member}

/-- Parents are those of the outline. -/
theorem setting_parentOf {id : Nat} {scope : Scope}
    (found : rendering.outline.scopes[id]? = some scope) :
    rendering.setting.parentOf id = scope.parent := by
  show rendering.outline.scopes[id]?.bind Scope.parent = scope.parent
  rw [found]
  rfl

theorem setting_parentOf_root (rooted : Rooted rendering.outline) :
    rendering.setting.parentOf Outline.root = none := by
  rcases rooted.payload with ⟨payload, found, orphan, -⟩
  rw [setting_parentOf found, orphan]

theorem inside_of_mem_arraysIn (rooted : Rooted rendering.outline)
    (listed : array ∈ rendering.arraysIn body) :
    Inside rendering.outline body array ∧ array.scope.isArray = true := by
  obtain ⟨member, kind⟩ := List.mem_filter.mp listed
  exact ⟨Outline.inside_of_mem rooted member, kind⟩

/-- An array comes behind the array whose body it stands in. -/
theorem lt_of_mem_arraysIn (rooted : Rooted rendering.outline)
    (isBody : IsBody rendering.outline body) (listed : array ∈ rendering.arraysIn body) :
    body.getD Outline.root < array.id := by
  obtain ⟨inside, -⟩ := inside_of_mem_arraysIn rooted listed
  refine Nat.lt_of_le_of_lt ?_ inside.smaller
  cases body with
  | none => exact Nat.zero_le _
  | some id =>
    have outer : id ∈ rendering.outline.dimensionsAround array.parent := by
      rw [inside.around]
      exact List.mem_of_getLast? (isBody.getLast? rooted)
    exact Outline.le_of_mem_ancestry rooted (inside.smaller.trans inside.bound)
      (Outline.mem_dimensionsAround_iff.mp outer).1

/-- What levels are enough for a body. -/
def Enough (rendering : Rendering) (levels : Nat) (body : Option ScopeId) : Prop :=
  rendering.outline.scopes.size ≤ levels + body.getD Outline.root

theorem enough_size (rendering : Rendering) (body : Option ScopeId) :
    rendering.Enough rendering.outline.scopes.size body :=
  Nat.le_add_right _ _

theorem Enough.inner {levels : Nat} (rooted : Rooted rendering.outline)
    (isBody : IsBody rendering.outline body) (enough : rendering.Enough (levels + 1) body)
    (listed : array ∈ rendering.arraysIn body) : rendering.Enough levels (some array.id) := by
  have behind : body.getD Outline.root + 1 ≤ array.id :=
    lt_of_mem_arraysIn rooted isBody listed
  unfold Enough at enough ⊢
  refine Nat.le_trans enough ?_
  rw [Nat.add_assoc, Nat.add_comm 1]
  exact Nat.add_le_add_left behind levels

theorem not_enough_zero (rooted : Rooted rendering.outline)
    (isBody : IsBody rendering.outline body) : ¬ rendering.Enough 0 body := by
  intro enough
  unfold Enough at enough
  rw [Nat.zero_add] at enough
  cases body with
  | none => exact Nat.not_lt_of_le enough (Outline.size_pos rooted)
  | some id =>
    have array := isBody id rfl
    have unknown : rendering.outline.scopes[id]? = none := Array.getElem?_eq_none enough
    simp [Outline.scopeIs, unknown] at array

/-- With enough levels their number makes no difference. -/
theorem emitBody_eq_emitBody (rooted : Rooted rendering.outline) (levels : Nat) :
    ∀ {more : Nat} {body : Option ScopeId}, IsBody rendering.outline body →
      rendering.Enough levels body → rendering.Enough more body →
      ∀ (outer : Bindings) (here : Position),
        rendering.emitBody levels body outer here = rendering.emitBody more body outer here := by
  induction levels with
  | zero =>
    intro more body isBody enough _
    exact absurd enough (not_enough_zero rooted isBody)
  | succ levels ih =>
    intro more body isBody enough alsoEnough outer here
    cases more with
    | zero => exact absurd alsoEnough (not_enough_zero rooted isBody)
    | succ more =>
      rw [emitBody, emitBody]
      congr 1
      refine List.flatMap_congr fun array listed => ?_
      congr 1
      refine rows_congr fun item _ index => ?_
      have kind := (inside_of_mem_arraysIn rooted listed)
      exact ih (kind.1.isBody kind.2) (enough.inner rooted isBody listed)
        (alsoEnough.inner rooted isBody listed) _ _

/-- What is emitted for bodies as bodies stand in one another: a body binds its objects, then
repeats, for each of its arrays, the body of the array for every element that is kept, with
a separator behind every row but the last, and then inserts its values. -/
def Evaluates (rendering : Rendering)
    (evaluate : Option ScopeId → Bindings → Position → List Fragment) : Prop :=
  ∀ body, IsBody rendering.outline body → ∀ (outer : Bindings) (here : Position),
    evaluate body outer here =
      let inside := rendering.bindObjects body outer
      ((rendering.arraysIn body).flatMap fun array =>
        literal here array.scope.opened.point (rendering.openingOf array) ++
          rows (fun item index =>
              evaluate (some array.id) (inside.bind array.id (some item))
                (here ++ [array.scope.opened.point, index]))
            (fun index =>
              rendering.separatorAt array (here ++ [array.scope.opened.point, index]))
            0 (elementsOf array inside)) ++
        (rendering.slotsIn body).map fun item =>
          ⟨here ++ [item.1.place.point], rendering.slotText inside item⟩

/-- What is emitted is told without levels. -/
theorem evaluates_emitted (rooted : Rooted rendering.outline) :
    rendering.Evaluates rendering.emitted := by
  intro body isBody outer here
  have enough := rendering.enough_size body
  have more : rendering.Enough (rendering.outline.scopes.size + 1) body :=
    Nat.le_trans enough (Nat.add_le_add_right (Nat.le_succ _) _)
  unfold emitted
  rw [emitBody_eq_emitBody rooted _ isBody enough more]
  rfl

end Stencil.Meaning.Rendering
