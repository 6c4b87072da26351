import Mathlib.Data.List.Basic
import Mathlib.Data.List.Infix
import Stencil.Outline

namespace Stencil.Outline

/-!
# Scopes and those around them

An outline is a tree kept in an array: every scope names its parent, and parents
have smaller numbers.  `Rooted` says just that, together with the meaning of the
depth.  What follows are equations for the ancestry of a scope along the parent
link, so that nothing else has to look into the climb and its fuel.
-/

/-- The payload's own scope lies in no other and is no dimension; every other
scope lies in one with a smaller number and is as deep as that, one deeper if it
is a dimension. -/
structure Rooted (outline : Outline) : Prop where
  payload : ∃ scope, outline.scopes[root]? = some scope ∧ scope.parent = none ∧
    scope.isArray = false ∧ scope.depth = 0
  inside : ∀ (id : Nat) scope, outline.scopes[id]? = some scope → id ≠ root →
    ∃ parent : Nat, scope.parent = some parent ∧ parent < id ∧
      scope.depth = outline.depthOf parent + if scope.isArray then 1 else 0

variable {outline : Outline}

theorem size_pos (rooted : Rooted outline) : 0 < outline.scopes.size := by
  obtain ⟨scope, found, -⟩ := rooted.payload
  exact (Array.getElem?_eq_some_iff.mp found).1

/-- A number that has a scope is below the number of scopes. -/
theorem lt_size_of_getElem? {id : Nat} {scope : Scope}
    (found : outline.scopes[id]? = some scope) : id < outline.scopes.size :=
  (Array.getElem?_eq_some_iff.mp found).1

/-- A scope with a parent is not that of the payload, and its parent comes
before it. -/
theorem Rooted.parent_lt (rooted : Rooted outline) {id parent : Nat} {scope : Scope}
    (found : outline.scopes[id]? = some scope) (link : scope.parent = some parent) :
    parent < id := by
  by_cases atRoot : id = root
  · subst atRoot
    obtain ⟨payload, same, orphan, -⟩ := rooted.payload
    rw [found] at same
    cases same
    rw [orphan] at link
    cases link
  · obtain ⟨other, otherLink, smaller, -⟩ := rooted.inside id scope found atRoot
    rw [link] at otherLink
    cases otherLink
    exact smaller

/-- Induction along the parent links. -/
theorem Rooted.induction (rooted : Rooted outline) {motive : Nat → Prop}
    (payload : motive root)
    (inside : ∀ (id : Nat) scope (parent : Nat), outline.scopes[id]? = some scope →
      scope.parent = some parent → parent < id → motive parent → motive id) :
    ∀ id, id < outline.scopes.size → motive id := by
  intro id
  induction id using Nat.strongRecOn with
  | ind id ih =>
    intro bound
    by_cases atRoot : id = root
    · exact atRoot ▸ payload
    · have found := Array.getElem?_eq_getElem bound
      obtain ⟨parent, link, smaller, -⟩ := rooted.inside id _ found atRoot
      exact inside id _ parent found link smaller (ih parent smaller (by omega))

/-! ## The ancestry -/

/-- Once there is more fuel than the number of the scope, fuel makes no
difference. -/
theorem climb_eq_climb (rooted : Rooted outline) {id : Nat} :
    ∀ {fuel more : Nat}, id < fuel → id < more →
      outline.climb fuel id = outline.climb more id := by
  induction id using Nat.strongRecOn with
  | ind id ih =>
    intro fuel more enough alsoEnough
    obtain ⟨fuel, rfl⟩ : ∃ n, fuel = n + 1 := ⟨fuel - 1, by omega⟩
    obtain ⟨more, rfl⟩ : ∃ n, more = n + 1 := ⟨more - 1, by omega⟩
    unfold climb
    cases found : outline.scopes[id]? with
    | none => rfl
    | some scope =>
      cases link : scope.parent with
      | none => simp only [link]
      | some parent =>
        have smaller := rooted.parent_lt found link
        simp only [link]
        rw [ih parent smaller (smaller.trans_le (Nat.le_of_lt_succ enough))
          (smaller.trans_le (Nat.le_of_lt_succ alsoEnough))]

theorem ancestry_root (rooted : Rooted outline) : outline.ancestry root = [root] := by
  obtain ⟨scope, found, orphan, -⟩ := rooted.payload
  obtain ⟨fuel, size⟩ : ∃ n, outline.scopes.size = n + 1 :=
    ⟨outline.scopes.size - 1, by have := size_pos rooted; omega⟩
  simp [ancestry, size, climb, found, orphan]

/-- The ancestry of a scope is that of its parent and the scope itself. -/
theorem ancestry_inside (rooted : Rooted outline) {id parent : Nat} {scope : Scope}
    (found : outline.scopes[id]? = some scope) (link : scope.parent = some parent) :
    outline.ancestry id = outline.ancestry parent ++ [id] := by
  have bound := lt_size_of_getElem? found
  have smaller := rooted.parent_lt found link
  obtain ⟨fuel, size⟩ : ∃ n, outline.scopes.size = n + 1 := ⟨outline.scopes.size - 1, by omega⟩
  unfold ancestry
  rw [climb_eq_climb rooted (by omega : parent < outline.scopes.size)
    (by omega : parent < fuel)]
  simp [size, climb, found, link]

theorem mem_ancestry_self (rooted : Rooted outline) {id : Nat}
    (bound : id < outline.scopes.size) : id ∈ outline.ancestry id := by
  refine rooted.induction (motive := fun id => id ∈ outline.ancestry id) ?_ ?_ id bound
  · simp [ancestry_root rooted]
  · intro id scope parent found link _ _
    simp [ancestry_inside rooted found link]

/-- The ancestry of a scope in the ancestry of another begins that one. -/
theorem ancestry_isPrefix_of_mem (rooted : Rooted outline) {id other : Nat}
    (bound : id < outline.scopes.size) (member : other ∈ outline.ancestry id) :
    outline.ancestry other <+: outline.ancestry id := by
  refine rooted.induction (motive := fun id => other ∈ outline.ancestry id →
    outline.ancestry other <+: outline.ancestry id) ?_ ?_ id bound member
  · intro member
    rw [ancestry_root rooted, List.mem_singleton] at member
    rw [member]
  · intro id scope parent found link _ ih member
    rw [ancestry_inside rooted found link] at member ⊢
    rcases List.mem_append.mp member with outer | itself
    · exact (ih outer).trans (List.prefix_append _ _)
    · rw [List.mem_singleton] at itself
      rw [itself, ancestry_inside rooted found link]

/-- Scopes in an ancestry have numbers up to that of the scope. -/
theorem le_of_mem_ancestry (rooted : Rooted outline) {id other : Nat}
    (bound : id < outline.scopes.size) (member : other ∈ outline.ancestry id) : other ≤ id := by
  refine rooted.induction (motive := fun id => other ∈ outline.ancestry id → other ≤ id)
    ?_ ?_ id bound member
  · intro member
    rw [ancestry_root rooted, List.mem_singleton] at member
    exact le_of_eq member
  · intro id scope parent found link smaller ih member
    rw [ancestry_inside rooted found link] at member
    rcases List.mem_append.mp member with outer | itself
    · exact (ih outer).trans smaller.le
    · exact (List.mem_singleton.mp itself).le

theorem nodup_ancestry (rooted : Rooted outline) {id : Nat}
    (bound : id < outline.scopes.size) : (outline.ancestry id).Nodup := by
  refine rooted.induction (motive := fun id => id < outline.scopes.size →
    (outline.ancestry id).Nodup) ?_ ?_ id bound bound
  · intro _
    simp [ancestry_root rooted]
  · intro id scope parent found link smaller ih bound
    have outer : parent < outline.scopes.size := smaller.trans bound
    rw [ancestry_inside rooted found link, List.nodup_append]
    refine ⟨ih outer, by simp, ?_⟩
    intro other member another single same
    rw [List.mem_singleton] at single
    have notAbove := le_of_mem_ancestry rooted outer member
    rw [same, single] at notAbove
    exact Nat.not_le_of_lt smaller notAbove

/-! ## The dimensions around a scope -/

theorem scopeIs_eq {property : Scope → Bool} {id : Nat} {scope : Scope}
    (found : outline.scopes[id]? = some scope) :
    outline.scopeIs property id = property scope := by
  simp [scopeIs, found]

theorem scopeIs_eq_true {property : Scope → Bool} {id : Nat} :
    outline.scopeIs property id = true ↔
      ∃ scope, outline.scopes[id]? = some scope ∧ property scope = true := by
  unfold scopeIs
  cases outline.scopes[id]? <;> simp

theorem lt_size_of_scopeIs {property : Scope → Bool} {id : Nat}
    (holds : outline.scopeIs property id = true) : id < outline.scopes.size := by
  rcases scopeIs_eq_true.mp holds with ⟨scope, found, -⟩
  exact lt_size_of_getElem? found

theorem isArray_of_hasEnd {id : ScopeId} (ends : outline.scopeIs Scope.hasEnd id = true) :
    outline.scopeIs Scope.isArray id = true := by
  rcases scopeIs_eq_true.mp ends with ⟨scope, found, closed⟩
  rw [scopeIs_eq found, Scope.isArray]
  cases kind : scope.dimension? with
  | none => simp [Scope.hasEnd, Scope.closing?, kind] at closed
  | some dimension => rfl

theorem depthOf_eq {id : Nat} {scope : Scope}
    (found : outline.scopes[id]? = some scope) : outline.depthOf id = scope.depth := by
  simp [depthOf, found]

theorem dimensionsAround_root (rooted : Rooted outline) : outline.dimensionsAround root = [] := by
  obtain ⟨scope, found, -, object, -⟩ := rooted.payload
  simp [dimensionsAround, ancestry_root rooted, scopeIs_eq found, object]

/-- The scopes of one kind around a scope are those around its parent and perhaps itself. -/
theorem filter_ancestry_inside (rooted : Rooted outline) (property : Scope → Bool) {id parent : Nat}
    {scope : Scope} (found : outline.scopes[id]? = some scope) (link : scope.parent = some parent) :
    (outline.ancestry id).filter (outline.scopeIs property) =
      (outline.ancestry parent).filter (outline.scopeIs property) ++
        if property scope then [id] else [] := by
  rw [ancestry_inside rooted found link, List.filter_append, List.filter_singleton,
    scopeIs_eq found, cond_eq_ite]

theorem dimensionsAround_inside (rooted : Rooted outline) {id parent : Nat} {scope : Scope}
    (found : outline.scopes[id]? = some scope) (link : scope.parent = some parent) :
    outline.dimensionsAround id =
      outline.dimensionsAround parent ++ if scope.isArray then [id] else [] :=
  filter_ancestry_inside rooted Scope.isArray found link

/-- Depth counts dimensions. -/
theorem depthOf_eq_length (rooted : Rooted outline) {id : Nat}
    (bound : id < outline.scopes.size) :
    outline.depthOf id = (outline.dimensionsAround id).length := by
  refine rooted.induction (motive := fun id => outline.depthOf id =
    (outline.dimensionsAround id).length) ?_ ?_ id bound
  · obtain ⟨scope, found, -, -, flat⟩ := rooted.payload
    rw [depthOf_eq found, dimensionsAround_root rooted, flat]
    rfl
  · intro id scope parent found link smaller ih
    obtain ⟨other, otherLink, -, depth⟩ := rooted.inside id scope found (by
      intro atRoot; rw [atRoot] at smaller; exact Nat.not_lt_zero _ smaller)
    rw [link] at otherLink
    cases otherLink
    rw [depthOf_eq found, dimensionsAround_inside rooted found link, depth, ih]
    cases scope.isArray <;> simp

/-- What lies in the ancestry of a scope is in no more dimensions than it. -/
theorem dimensionsAround_isPrefix_of_mem (rooted : Rooted outline) {id other : Nat}
    (bound : id < outline.scopes.size) (member : other ∈ outline.ancestry id) :
    outline.dimensionsAround other <+: outline.dimensionsAround id :=
  (ancestry_isPrefix_of_mem rooted bound member).filter _

theorem mem_dimensionsAround_iff {id other : Nat} :
    other ∈ outline.dimensionsAround id ↔
      other ∈ outline.ancestry id ∧ outline.scopeIs Scope.isArray other = true := by
  simp [dimensionsAround]

/-- A dimension around a scope ends the list of its own dimensions. -/
theorem dimensionsAround_of_isArray (rooted : Rooted outline) {id : Nat}
    (array : outline.scopeIs Scope.isArray id = true) :
    ∃ outer, outline.dimensionsAround id = outer ++ [id] := by
  cases found : outline.scopes[id]? with
  | none => simp [scopeIs, found] at array
  | some scope =>
    rw [scopeIs_eq found] at array
    have elsewhere : id ≠ root := by
      intro atRoot
      obtain ⟨payload, same, -, object, -⟩ := rooted.payload
      rw [atRoot, same] at found
      cases found
      rw [array] at object
      cases object
    obtain ⟨parent, link, -⟩ := rooted.inside id scope found elsewhere
    exact ⟨_, by rw [dimensionsAround_inside rooted found link, array]; rfl⟩

/-- The dimensions around the innermost one are those around the scope. -/
theorem dimensionsAround_dimensionAround? (rooted : Rooted outline) {id inner : Nat}
    (bound : id < outline.scopes.size) (innermost : outline.dimensionAround? id = some inner) :
    outline.dimensionsAround inner = outline.dimensionsAround id := by
  have member : inner ∈ outline.dimensionsAround id := List.mem_of_getLast? innermost
  obtain ⟨within, array⟩ := mem_dimensionsAround_iff.mp member
  obtain ⟨outer, own⟩ := dimensionsAround_of_isArray rooted array
  have start := dimensionsAround_isPrefix_of_mem rooted bound within
  obtain ⟨rest, whole⟩ := start
  rw [own] at whole
  have distinct : (outline.dimensionsAround id).Nodup := (nodup_ancestry rooted bound).filter _
  cases rest with
  | nil => rw [own, ← whole, List.append_nil]
  | cons head tail =>
    exfalso
    unfold dimensionAround? at innermost
    rw [← whole, List.append_assoc, List.singleton_append, List.nodup_append] at distinct
    rw [← whole, List.getLast?_append] at innermost
    have later : inner ∈ head :: tail := by
      cases last : (head :: tail).getLast? with
      | none => simp at last
      | some found =>
        rw [last] at innermost
        cases innermost
        exact List.mem_of_getLast? last
    exact (List.nodup_cons.mp distinct.2.1).1 later

/-- The dimensions around a body: those of its own dimension, none at the top. -/
def dimensionsOf (outline : Outline) (body : Option ScopeId) : List ScopeId :=
  (body.map outline.dimensionsAround).getD []

/-- The innermost dimension around a scope is a body in the dimensions of the
scope. -/
theorem dimensionsOf_dimensionAround? (rooted : Rooted outline) {id : Nat}
    (bound : id < outline.scopes.size) :
    outline.dimensionsOf (outline.dimensionAround? id) = outline.dimensionsAround id := by
  cases innermost : outline.dimensionAround? id with
  | none =>
    unfold dimensionAround? at innermost
    rw [List.getLast?_eq_none_iff.mp innermost]
    rfl
  | some inner => exact dimensionsAround_dimensionAround? rooted bound innermost

/-- A scope without number has nothing around it. -/
theorem ancestry_of_size_le {id : Nat} (beyond : outline.scopes.size ≤ id) :
    outline.ancestry id = [] := by
  have unknown : outline.scopes[id]? = none := Array.getElem?_eq_none beyond
  unfold ancestry
  cases outline.scopes.size with
  | zero => rfl
  | succ fuel => simp [climb, unknown]

/-- What lies around a number is around a scope. -/
theorem bound_of_mem_ancestry {id other : Nat} (member : other ∈ outline.ancestry id) :
    id < outline.scopes.size := by
  by_contra beyond
  rw [ancestry_of_size_le (Nat.le_of_not_lt beyond)] at member
  cases member

/-! ## The repetitions around a scope -/

theorem repetitionsAround_inside (rooted : Rooted outline) {id parent : Nat} {scope : Scope}
    (found : outline.scopes[id]? = some scope) (link : scope.parent = some parent) :
    outline.repetitionsAround id =
      outline.repetitionsAround parent ++ if scope.hasEnd then [id] else [] :=
  filter_ancestry_inside rooted Scope.hasEnd found link

end Stencil.Outline
