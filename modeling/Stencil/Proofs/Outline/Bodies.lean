import Stencil.Program.Compile
import Stencil.Proofs.Outline.Ancestry
import Stencil.Proofs.Sorting

namespace Stencil.Outline

open Program (Member members member?)

/-!
# The scopes of a body

A body is that of the document or of a dimension.  Its scopes are those whose
parent lies in just the dimensions of the body, so its objects lie in them as well
and its arrays in one more.
-/

variable {outline : Outline}

/-- A body is at the top or belongs to a dimension. -/
def IsBody (outline : Outline) (body : Option ScopeId) : Prop :=
  ∀ id, body = some id → outline.scopeIs Scope.isArray id = true

theorem isBody_none (outline : Outline) : IsBody outline none :=
  fun _ impossible => nomatch impossible

theorem isBody_some {id : ScopeId} (array : outline.scopeIs Scope.isArray id = true) :
    IsBody outline (some id) := by
  rintro _ ⟨⟩
  exact array

/-- The innermost dimension around a scope is a body. -/
theorem isBody_dimensionAround? (outline : Outline) (id : ScopeId) :
    IsBody outline (outline.dimensionAround? id) :=
  fun _ around => (List.mem_filter.mp (List.mem_of_getLast? around)).2

/-- A body is the last of its dimensions. -/
theorem IsBody.getLast? (rooted : Rooted outline) {body : Option ScopeId}
    (isBody : IsBody outline body) : (outline.dimensionsOf body).getLast? = body := by
  cases body with
  | none => rfl
  | some id =>
    obtain ⟨outer, own⟩ := dimensionsAround_of_isArray rooted (isBody id rfl)
    simp [dimensionsOf, own]

/-- The innermost dimension around a scope is told by the dimensions around it. -/
theorem dimensionAround?_eq_iff (rooted : Rooted outline) {id : Nat} {body : Option ScopeId}
    (bound : id < outline.scopes.size) (isBody : IsBody outline body) :
    outline.dimensionAround? id = body ↔
      outline.dimensionsAround id = outline.dimensionsOf body := by
  constructor
  · rintro rfl
    exact (dimensionsOf_dimensionAround? rooted bound).symm
  · intro same
    unfold dimensionAround?
    rw [same]
    exact isBody.getLast? rooted

/-! ## Members -/

theorem member?_eq_some {id : ScopeId} {member : Member} :
    member? outline id = some member ↔ member.id = id ∧
      outline.scopes[id]? = some member.scope ∧ member.scope.parent = some member.parent := by
  unfold member?
  constructor
  · intro made
    obtain ⟨scope, found, made⟩ := Option.bind_eq_some_iff.mp made
    obtain ⟨parent, link, rfl⟩ := Option.map_eq_some_iff.mp made
    exact ⟨rfl, found, link⟩
  · rintro ⟨rfl, found, link⟩
    simp [found, link]

theorem mem_members {order : List ScopeId} {body : Option ScopeId} {member : Member} :
    member ∈ members outline order body ↔
      member.id ∈ order ∧ outline.scopes[member.id]? = some member.scope ∧
        member.scope.parent = some member.parent ∧
        outline.dimensionAround? member.parent = body := by
  unfold members
  rw [List.mem_filter, List.mem_filterMap, beq_iff_eq]
  constructor
  · rintro ⟨⟨id, ordered, made⟩, around⟩
    obtain ⟨rfl, found, link⟩ := member?_eq_some.mp made
    exact ⟨ordered, found, link, around⟩
  · rintro ⟨ordered, found, link, around⟩
    exact ⟨⟨member.id, ordered, member?_eq_some.mpr ⟨rfl, found, link⟩⟩, around⟩

variable {body : Option ScopeId} {member : Member}

/-- What is known of a scope of a body. -/
structure Inside (outline : Outline) (body : Option ScopeId) (member : Member) : Prop where
  found : outline.scopes[member.id]? = some member.scope
  link : member.scope.parent = some member.parent
  around : outline.dimensionsAround member.parent = outline.dimensionsOf body
  smaller : member.parent < member.id
  bound : member.id < outline.scopes.size

theorem inside_of_mem (rooted : Rooted outline) {order : List ScopeId}
    (listed : member ∈ members outline order body) : Inside outline body member := by
  obtain ⟨-, found, link, rfl⟩ := mem_members.mp listed
  have smaller := rooted.parent_lt found link
  have bound := lt_size_of_getElem? found
  exact ⟨found, link, (dimensionsOf_dimensionAround? rooted (smaller.trans bound)).symm,
    smaller, bound⟩

/-- A scope of a body is among its members if the order has it. -/
theorem Inside.mem_members (inside : Inside outline body member) (rooted : Rooted outline)
    (isBody : IsBody outline body) {order : List ScopeId} (ordered : member.id ∈ order) :
    member ∈ members outline order body := by
  refine Outline.mem_members.mpr ⟨ordered, inside.found, inside.link, ?_⟩
  rw [dimensionAround?_eq_iff rooted (inside.smaller.trans inside.bound) isBody]
  exact inside.around

/-- An object lies in the dimensions of its body. -/
theorem Inside.dimensionsAround_object (rooted : Rooted outline)
    (inside : Inside outline body member) (object : member.scope.isArray = false) :
    outline.dimensionsAround member.id = outline.dimensionsOf body := by
  rw [dimensionsAround_inside rooted inside.found inside.link, inside.around, object]
  simp

/-- An array lies in the dimensions of its body and is one more. -/
theorem Inside.dimensionsAround_array (rooted : Rooted outline)
    (inside : Inside outline body member) (array : member.scope.isArray = true) :
    outline.dimensionsAround member.id = outline.dimensionsOf body ++ [member.id] := by
  rw [dimensionsAround_inside rooted inside.found inside.link, inside.around, array]
  rfl

theorem Inside.isBody (inside : Inside outline body member)
    (array : member.scope.isArray = true) : IsBody outline (some member.id) := by
  intro id same
  cases same
  rw [scopeIs_eq inside.found, array]

/-- Every scope in the dimensions of a body is an object of it, except the one
the body is of. -/
theorem exists_object_of_dimensionsAround (rooted : Rooted outline) {id : Nat}
    (bound : id < outline.scopes.size) (isBody : IsBody outline body)
    (around : outline.dimensionsAround id = outline.dimensionsOf body)
    (elsewhere : id ≠ body.getD root) :
    ∃ member ∈ members outline (List.range outline.scopes.size) body,
      member.scope.isArray = false ∧ member.id = id := by
  have found := Array.getElem?_eq_getElem bound
  have notRoot : id ≠ root := by
    rintro rfl
    rw [dimensionsAround_root rooted] at around
    have top : body = none := by rw [← isBody.getLast? rooted, ← around]; rfl
    rw [top] at elsewhere
    exact elsewhere rfl
  obtain ⟨parent, link, smaller, -⟩ := rooted.inside id _ found notRoot
  cases array : (outline.scopes[id]).isArray with
  | true =>
    exfalso
    rw [dimensionsAround_inside rooted found link, array] at around
    have last := isBody.getLast? rooted
    rw [← around] at last
    rw [← last] at elsewhere
    simp at elsewhere
  | false =>
    rw [dimensionsAround_inside rooted found link, array] at around
    have inside : Inside outline body ⟨id, outline.scopes[id], parent⟩ :=
      ⟨found, link, by simpa using around, smaller, bound⟩
    exact ⟨_, inside.mem_members rooted isBody (List.mem_range.mpr bound), array, rfl⟩

/-- The members of a body have rising numbers. -/
theorem pairwise_members (outline : Outline) (body : Option ScopeId) :
    (members outline (List.range outline.scopes.size) body).Pairwise
      fun left right => left.id < right.id := by
  unfold members
  refine List.Pairwise.filter _ ?_
  rw [List.pairwise_filterMap]
  refine List.Pairwise.imp ?_ List.pairwise_lt_range
  intro left right less first firstMade second secondMade
  rw [(member?_eq_some.mp firstMade).1, (member?_eq_some.mp secondMade).1]
  exact less

/-- Members of which every one comes once and none behind one of its own children. -/
def InTurn (members : List Member) : Prop :=
  members.Pairwise fun earlier later => later.id ≠ earlier.id ∧ later.id ≠ earlier.parent

theorem inTurn_of_rising {members : List Member}
    (rising : members.Pairwise fun left right => left.id < right.id)
    (smaller : ∀ member ∈ members, member.parent < member.id) : InTurn members := by
  refine rising.imp_of_mem fun {earlier later} listed _ less => ?_
  exact ⟨Nat.ne_of_gt less, Nat.ne_of_gt ((smaller earlier listed).trans less)⟩

/-! ## The order of compilation -/

theorem nodup_order (outline : Outline) : outline.order.Nodup :=
  (perm_orderBy _ _).nodup_iff.mpr List.nodup_range

/-- Ordering by depth does not change the order of members of one body that are
of one kind. -/
theorem filter_members_order (rooted : Rooted outline) (body : Option ScopeId)
    (arrays : Bool) :
    (members outline outline.order body).filter (fun member => member.scope.isArray == arrays) =
      (members outline (List.range outline.scopes.size) body).filter
        fun member => member.scope.isArray == arrays := by
  have picked : ∀ order : List ScopeId,
      (members outline order body).filter (fun member => member.scope.isArray == arrays) =
        order.filterMap fun id => (member? outline id).filter fun member =>
          outline.dimensionAround? member.parent == body && member.scope.isArray == arrays := by
    intro order
    unfold members
    rw [List.filter_filter, List.filter_filterMap]
    simp only [Bool.and_comm]
  rw [picked, picked]
  unfold order
  refine filterMap_orderBy ?_
  have depth : ∀ id, ((member? outline id).filter fun member =>
      outline.dimensionAround? member.parent == body &&
        member.scope.isArray == arrays).isSome → outline.depthOf id =
          (outline.dimensionsOf body).length + if arrays then 1 else 0 := by
    intro id present
    obtain ⟨member, chosen⟩ := Option.isSome_iff_exists.mp present
    obtain ⟨made, fits⟩ := Option.filter_eq_some_iff.mp chosen
    obtain ⟨rfl, found, link⟩ := member?_eq_some.mp made
    simp only [Bool.and_eq_true, beq_iff_eq] at fits
    obtain ⟨rfl, rfl⟩ := fits
    have outer := (rooted.parent_lt found link).trans (lt_size_of_getElem? found)
    rw [depthOf_eq_length rooted (lt_size_of_getElem? found),
      dimensionsAround_inside rooted found link, List.length_append,
      dimensionsOf_dimensionAround? rooted outer]
    cases member.scope.isArray <;> rfl
  intro left _ right _ firstPicked secondPicked
  simp [depth left firstPicked, depth right secondPicked]

end Stencil.Outline
