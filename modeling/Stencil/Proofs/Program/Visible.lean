import Stencil.Proofs.Layout.Hosts
import Stencil.Proofs.Outline.Ordered
import Stencil.Proofs.Program.Compiled

namespace Stencil.Program

open Outline (Rooted IsBody Inside Coherent Orders)

/-!
# What is visible in a body

Inside a body, once its objects are bound, the scopes with a value are those that
lie in no other dimensions than the body.  All that a body reads is among them,
and what it binds when it is entered, or in its loops, is not.
-/

variable {outline : Outline} {body : Option ScopeId}

/-- The scopes with a value where the objects of a body are bound. -/
def seenIn (outline : Outline) (body : Option ScopeId) : Set ScopeId :=
  {id | id < outline.scopes.size ∧ outline.dimensionsAround id <+: outline.dimensionsOf body}

/-- The objects of a body. -/
def objectsOf (outline : Outline) (body : Option ScopeId) : List Member :=
  (members outline (List.range outline.scopes.size) body).filter
    fun member => !member.scope.isArray

/-- The scopes with a value where a body is entered. -/
def entered (outline : Outline) (body : Option ScopeId) : Set ScopeId :=
  {id | id ∈ seenIn outline body ∧ ¬ ∃ object ∈ objectsOf outline body, object.id = id}

/-- The scope whose value a row of a body is. -/
def rowScope (body : Option ScopeId) : ScopeId := body.getD Outline.root

theorem inside_of_mem_objectsOf (rooted : Rooted outline) {object : Member}
    (listed : object ∈ objectsOf outline body) :
    Inside outline body object ∧ object.scope.isArray = false := by
  obtain ⟨member, kind⟩ := List.mem_filter.mp listed
  exact ⟨Outline.inside_of_mem rooted member, by simpa using kind⟩

theorem rowScope_lt (rooted : Rooted outline) (isBody : IsBody outline body) :
    rowScope body < outline.scopes.size := by
  cases body with
  | none => exact Outline.size_pos rooted
  | some id =>
    have array := isBody id rfl
    by_contra beyond
    have unknown : outline.scopes[id]? = none := Array.getElem?_eq_none (Nat.le_of_not_lt beyond)
    simp [Outline.scopeIs, unknown] at array

theorem dimensionsAround_rowScope (rooted : Rooted outline) :
    outline.dimensionsAround (rowScope body) = outline.dimensionsOf body := by
  cases body with
  | none => exact Outline.dimensionsAround_root rooted
  | some id => rfl

/-- The scope of a row is bound before its body is entered. -/
theorem rowScope_mem_entered (rooted : Rooted outline) (isBody : IsBody outline body) :
    rowScope body ∈ entered outline body := by
  refine ⟨⟨rowScope_lt rooted isBody, ?_⟩, ?_⟩
  · rw [dimensionsAround_rowScope rooted]
  · rintro ⟨object, listed, same⟩
    obtain ⟨inside, kind⟩ := inside_of_mem_objectsOf rooted listed
    cases body with
    | none =>
      have smaller := inside.smaller
      rw [same] at smaller
      exact Nat.not_lt_zero _ smaller
    | some id =>
      have array := isBody id rfl
      have same : object.id = id := same
      have found := inside.found
      rw [same] at found
      rw [Outline.scopeIs_eq found, kind] at array
      cases array

/-- Everything in just the dimensions of a body is the scope of its row or one of
its objects. -/
theorem eq_rowScope_or_object (rooted : Rooted outline) (isBody : IsBody outline body) {id : Nat}
    (bound : id < outline.scopes.size)
    (around : outline.dimensionsAround id = outline.dimensionsOf body) :
    id = rowScope body ∨ ∃ object ∈ objectsOf outline body, object.id = id := by
  by_cases row : id = rowScope body
  · exact .inl row
  · obtain ⟨member, listed, object, same⟩ :=
      Outline.exists_object_of_dimensionsAround rooted bound isBody around row
    exact .inr ⟨member, List.mem_filter.mpr ⟨listed, by simp [object]⟩, same⟩

theorem entered_union_objects (rooted : Rooted outline) (body : Option ScopeId) :
    entered outline body ∪ {id | ∃ object ∈ objectsOf outline body, object.id = id} =
      seenIn outline body := by
  ext id
  constructor
  · rintro (⟨seen, -⟩ | ⟨object, listed, rfl⟩)
    · exact seen
    · obtain ⟨inside, kind⟩ := inside_of_mem_objectsOf rooted listed
      exact ⟨inside.bound, by rw [inside.dimensionsAround_object rooted kind]⟩
  · intro seen
    by_cases object : ∃ object ∈ objectsOf outline body, object.id = id
    · exact .inr object
    · exact .inl ⟨seen, object⟩

/-- Where a program begins, the payload has a value and nothing else. -/
theorem entered_none (rooted : Rooted outline) : entered outline none = {Outline.root} := by
  ext id
  constructor
  · rintro ⟨⟨bound, around⟩, free⟩
    have flat : outline.dimensionsAround id = outline.dimensionsOf none :=
      List.prefix_nil.mp around
    rcases eq_rowScope_or_object rooted (Outline.isBody_none outline) bound flat with row | object
    · exact row
    · exact absurd object free
  · intro row
    rw [Set.mem_singleton_iff] at row
    subst row
    exact rowScope_mem_entered rooted (Outline.isBody_none outline)

/-- Where the body of an array is entered, the element has a value besides what
is seen around the loop. -/
theorem entered_array (rooted : Rooted outline) {array : Member}
    (inside : Inside outline body array) (kind : array.scope.isArray = true) :
    entered outline (some array.id) = Insert.insert array.id (seenIn outline body) := by
  have own := inside.dimensionsAround_array rooted kind
  have isBody := inside.isBody kind
  ext id
  constructor
  · rintro ⟨⟨bound, around⟩, free⟩
    have around : outline.dimensionsAround id <+: outline.dimensionsAround array.id := around
    rw [own, List.prefix_concat_iff, ← own] at around
    rcases around with same | outer
    · rcases eq_rowScope_or_object rooted isBody bound same with row | object
      · exact .inl row
      · exact absurd object free
    · exact .inr ⟨bound, outer⟩
  · rintro (row | ⟨bound, around⟩)
    · rw [row]
      exact rowScope_mem_entered rooted isBody
    · have within : outline.dimensionsAround id <+: outline.dimensionsAround array.id := by
        rw [own]
        exact around.trans (List.prefix_append _ _)
      refine ⟨⟨bound, within⟩, ?_⟩
      rintro ⟨object, listed, rfl⟩
      obtain ⟨objectInside, objectKind⟩ := inside_of_mem_objectsOf rooted listed
      have deep := objectInside.dimensionsAround_object rooted objectKind
      have short := around.length_le
      rw [deep] at short
      have longer : (outline.dimensionsOf (some array.id)).length =
          (outline.dimensionsOf body).length + 1 := by
        show (outline.dimensionsAround array.id).length = _
        rw [own]
        simp
      omega

/-- An array is not seen in the body it is of. -/
theorem array_not_mem_seenIn (rooted : Rooted outline) {array : Member}
    (inside : Inside outline body array) (kind : array.scope.isArray = true) :
    array.id ∉ seenIn outline body := by
  rintro ⟨-, around⟩
  have short := around.length_le
  rw [inside.dimensionsAround_array rooted kind, List.length_append] at short
  exact Nat.not_succ_le_self _ short

/-! ## Insertions -/

/-- The scopes above a scope lie in no dimensions that it does not lie in. -/
theorem ancestor?_seen {program : Program} (rooted : Rooted outline)
    (parents : program.parents = outline.scopes.map Scope.parent) (up : Nat) :
    ∀ {scope other : Nat}, scope < outline.scopes.size →
      program.ancestor? up scope = some other →
      other < outline.scopes.size ∧
        outline.dimensionsAround other <+: outline.dimensionsAround scope := by
  induction up with
  | zero =>
    intro scope other bound itself
    cases itself
    exact ⟨bound, List.prefix_refl _⟩
  | succ up ih =>
    intro scope other bound above
    have found := Array.getElem?_eq_getElem bound
    unfold ancestor? at above
    rw [parents, Array.getElem?_map, found] at above
    obtain ⟨parent, link, above⟩ := Option.bind_eq_some_iff.mp above
    have link : (outline.scopes[scope]).parent = some parent := by simpa using link
    obtain ⟨otherBound, around⟩ := ih ((rooted.parent_lt found link).trans bound) above
    refine ⟨otherBound, around.trans ?_⟩
    rw [Outline.dimensionsAround_inside rooted found link]
    exact List.prefix_append _ _

/-- Every slot that is emitted sees its scope where it is emitted. -/
def Hosted (outline : Outline) (layout : Layout) : Prop :=
  ∀ (id : Nat), id < outline.slots.size → layout.omits id = false →
    Layout.Sees outline id (layout.host outline id)

theorem hosted_of_ofText (coherent : Coherent outline) {text : String} {layout : Layout}
    (laidOut : Layout.ofText outline text = .ok layout) : Hosted outline layout :=
  fun _ bound kept => Layout.sees_host_of_ofText coherent laidOut bound kept

theorem hosted_surrounding (coherent : Coherent outline) (before after : String) :
    Hosted outline (Layout.surrounding before after) :=
  fun _ _ _ => Layout.sees_host_surrounding coherent

/-- All an insertion reads is seen in the body it is emitted from. -/
theorem reads_of_hosted {program : Program} {order : List ScopeId} {layout : Layout}
    {escape : Escape} (compiled : CompiledFrom program outline order layout escape)
    (coherent : Coherent outline)
    (hosted : Hosted outline layout) {item : Placed × Nat}
    (listed : item ∈ ((keptSlots outline layout).map (placedOf outline layout)).zipIdx)
    (ofBody : item.1.host = body) : Reads program item.2 (seenIn outline body) := by
  refine ⟨item.1.insertion, compiled.numbered item listed, ?_⟩
  have member : item.1 ∈ (keptSlots outline layout).map (placedOf outline layout) :=
    List.fst_mem_of_mem_zipIdx listed
  obtain ⟨⟨slot, id⟩, kept, made⟩ := List.mem_map.mp member
  obtain ⟨numbered, shown⟩ := List.mem_filter.mp kept
  have found : outline.slots[id]? = some slot := by
    have := List.mk_mem_zipIdx_iff_getElem?.mp numbered
    simpa using this
  have bound := (Array.getElem?_eq_some_iff.mp found).1
  have sees := hosted id bound (by simpa using shown) slot found
  have host : layout.host outline id = body := by
    rw [← ofBody, ← made]
    rfl
  rw [host] at sees
  intro up scope above
  rw [← made] at above
  obtain ⟨scopeBound, around⟩ := ancestor?_seen coherent.rooted compiled.parents up
    (coherent.slotScope id slot found) above
  exact ⟨scopeBound, around.trans sees⟩

/-! ## Blocks -/

/-- The objects of a body are the same in every order. -/
theorem mem_objects {order : List ScopeId} (orders : Orders outline order) {member : Member} :
    member ∈ membersOf outline order body false ↔ member ∈ objectsOf outline body := by
  unfold objectsOf
  rw [mem_membersOf, List.mem_filter, Outline.mem_members, Outline.mem_members, orders.mem_iff,
    List.mem_range, Bool.not_eq_true']

/-- The block of a body is properly scoped where the body is entered. -/
theorem scoped_block {program : Program} {order : List ScopeId} {layout : Layout}
    {escape : Escape} (compiled : CompiledFrom program outline order layout escape)
    (orders : Orders outline order) (coherent : Coherent outline)
    (hosted : Hosted outline layout) (levels : Nat) :
    ∀ {body : Option ScopeId}, IsBody outline body →
      (block outline order layout
          (((keptSlots outline layout).map (placedOf outline layout)).zipIdx) levels body).Scoped
        outline.scopes.size (Reads program) (entered outline body) {rowScope body} := by
  induction levels with
  | zero => intro body _; exact trivial
  | succ levels ih =>
    intro body isBody
    have rooted := coherent.rooted
    rw [block_succ orders.nodup]
    refine scoped_bindings ?_ ?_ ?_ ?_
    · exact fun object listed => (mem_membersOf.mp listed).2
    · exact (orders.inTurn body).filter _
    · intro object listed
      rw [mem_objects orders] at listed
      obtain ⟨inside, kind⟩ := inside_of_mem_objectsOf rooted listed
      refine ⟨fun seen => seen.2 ⟨object, listed, rfl⟩, inside.bound, inside.smaller, ?_⟩
      rcases eq_rowScope_or_object rooted isBody (inside.smaller.trans inside.bound)
        inside.around with row | other
      · rw [row]
        exact .inl ⟨rowScope_mem_entered rooted isBody, rfl⟩
      · simp only [mem_objects orders]
        exact .inr other
    · simp only [mem_objects orders]
      rw [entered_union_objects rooted body]
      refine scoped_loopsOf ?_ (scoped_insertionsOf fun item listed ofBody =>
        reads_of_hosted compiled coherent hosted listed ofBody)
      intro array listed
      obtain ⟨member, kind⟩ := mem_membersOf.mp listed
      have inside := Outline.inside_of_mem rooted member
      have outer := inside.smaller.trans inside.bound
      refine ⟨⟨outer, by rw [inside.around]⟩, ?_, array_not_mem_seenIn rooted inside kind,
        inside.bound, ?_⟩
      · rcases eq_rowScope_or_object rooted isBody outer inside.around with row | object
        · exact .inl row
        · exact .inr object
      · rw [← entered_array rooted inside kind]
        exact ih (inside.isBody kind)

end Stencil.Program
