import Stencil.Proofs.Fallible
import Stencil.Proofs.Outline.Bodies

namespace Stencil.Outline

/-!
# Orders in which parents come first

A program can be compiled in any order that lists every scope, each behind its parent,
and the check of an order accepts it.  The order by depths is one of these: a scope is
never deeper than those inside it, and among scopes of one depth the numbers decide,
which are smaller for parents.
-/

variable {outline : Outline} {order : List ScopeId}

/-- Every scope of a list stands behind its parent. -/
def ParentsFirst (outline : Outline) (order : List ScopeId) : Prop :=
  ∀ front id back, order = front ++ id :: back → ∀ scope parent,
    outline.scopes[id]? = some scope → scope.parent = some parent → parent ∈ front

/-- An order of all scopes with parents first. -/
structure Orders (outline : Outline) (order : List ScopeId) : Prop where
  complete : order.Perm (List.range outline.scopes.size)
  parentsFirst : ParentsFirst outline order

theorem Orders.mem_iff (orders : Orders outline order) {id : ScopeId} :
    id ∈ order ↔ id < outline.scopes.size := by
  rw [orders.complete.mem_iff, List.mem_range]

theorem Orders.nodup (orders : Orders outline order) : order.Nodup :=
  orders.complete.nodup_iff.mpr List.nodup_range

/-- What stands behind a scope is another scope and not its parent. -/
theorem Orders.behind (orders : Orders outline order) :
    order.Pairwise fun earlier later => later ≠ earlier ∧ ∀ scope,
      outline.scopes[earlier]? = some scope → scope.parent ≠ some later := by
  rw [List.pairwise_iff_forall_sublist]
  intro earlier later sublist
  rcases List.cons_sublist_iff.mp sublist with ⟨first, second, rfl, member, inSecond⟩
  have later_mem : later ∈ second := List.singleton_sublist.mp inSecond
  rcases List.append_of_mem member with ⟨front, back, rfl⟩
  have once := orders.nodup
  rw [List.append_assoc, List.cons_append, List.nodup_append, List.nodup_cons] at once
  have behind : later ∈ back ++ second := List.mem_append_right back later_mem
  constructor
  · rintro rfl
    exact once.2.1.1 behind
  · intro scope found link
    have before := orders.parentsFirst front earlier (back ++ second) (by simp) scope later found
      link
    exact once.2.2 later before later (List.mem_cons_of_mem _ behind) rfl

/-- The members of a body come in turn. -/
theorem Orders.inTurn (orders : Orders outline order) (body : Option ScopeId) :
    InTurn (Program.members outline order body) := by
  refine List.Pairwise.filter _ (List.pairwise_filterMap.mpr (orders.behind.imp ?_))
  intro earlier later apart first firstMade second secondMade
  rcases member?_eq_some.mp firstMade with ⟨firstId, found, link⟩
  rw [firstId, (member?_eq_some.mp secondMade).1]
  refine ⟨apart.1, ?_⟩
  rintro rfl
  exact apart.2 first.scope found link

/-! ## The check of an order -/

/-- A scope can be placed behind its parent. -/
theorem place_of_parent (rooted : Rooted outline) {placed : List ScopeId} {id : Nat}
    (bound : id < outline.scopes.size)
    (behind : ∀ scope parent, outline.scopes[id]? = some scope → scope.parent = some parent →
      parent ∈ placed) :
    Program.place outline placed id = .ok (id :: placed) := by
  have found := Array.getElem?_eq_getElem bound
  unfold Program.place
  rw [found]
  by_cases atRoot : id = root
  · exact if_pos atRoot
  · rcases rooted.inside id _ found atRoot with ⟨parent, link, -⟩
    have before : placed.contains parent = true := by
      simpa using behind _ parent found link
    simp only [if_neg atRoot, link, before, if_true]

/-- The check of an order goes through, and has then met its scopes. -/
theorem foldlM_place (rooted : Rooted outline) (known : ∀ id ∈ order, id < outline.scopes.size)
    (parentsFirst : ParentsFirst outline order) :
    ∀ front, front <+: order →
      front.foldlM (Program.place outline) [] = .ok front.reverse := by
  intro front
  induction front using List.reverseRecOn with
  | nil => exact fun _ => rfl
  | append_singleton front id ih =>
    rintro ⟨back, whole⟩
    have before := ih ⟨id :: back, by simpa using whole⟩
    have split : order = front ++ id :: back := by simpa using whole.symm
    have bound : id < outline.scopes.size := by
      apply known
      rw [split]
      simp
    refine foldlM_concat_eq_ok.mpr ⟨front.reverse, before, ?_⟩
    rw [place_of_parent rooted bound, List.reverse_append]
    · rfl
    · intro scope parent found link
      exact List.mem_reverse.mpr (parentsFirst front id back split scope parent found link)

theorem eq_of_place {placed after : List ScopeId} {id : ScopeId}
    (placing : Program.place outline placed id = .ok after) : after = id :: placed := by
  unfold Program.place at placing
  split at placing
  · cases placing
  · split at placing
    · cases placing
      rfl
    · split at placing
      · cases placing
      · split at placing
        · cases placing
          rfl
        · cases placing

/-- What was placed is what the order lists so far. -/
theorem mem_of_foldlM_place {front : List ScopeId} :
    ∀ {placed : List ScopeId}, front.foldlM (Program.place outline) [] = .ok placed →
      ∀ id ∈ placed, id ∈ front := by
  induction front using List.reverseRecOn with
  | nil =>
    intro placed run
    rw [← foldlM_nil_eq_ok.mp run]
    exact fun _ impossible => impossible
  | append_singleton front last ih =>
    intro placed run id member
    rcases foldlM_concat_eq_ok.mp run with ⟨between, before, placing⟩
    rw [eq_of_place placing] at member
    rcases List.mem_cons.mp member with rfl | early
    · simp
    · exact List.mem_append_left _ (ih before id early)

/-- An order that is accepted was placed, and every scope in it. -/
theorem exists_placed_of_checkOrder (accepted : Program.checkOrder outline order = .ok ()) :
    ∃ placed, order.foldlM (Program.place outline) [] = .ok placed ∧
      ∀ id < outline.scopes.size, id ∈ placed := by
  unfold Program.checkOrder at accepted
  split at accepted
  · cases accepted
  · next placed run =>
    split at accepted
    · cases accepted
    · next met =>
      refine ⟨placed, run, fun id bound => ?_⟩
      simpa using List.find?_eq_none.mp met id (List.mem_range.mpr bound)

/-- Only what has parents first is accepted. -/
theorem parentsFirst_of_checkOrder (rooted : Rooted outline)
    (accepted : Program.checkOrder outline order = .ok ()) : ParentsFirst outline order := by
  rintro front id back rfl scope parent found link
  rcases exists_placed_of_checkOrder accepted with ⟨placed, run, -⟩
  rcases foldlM_append_eq_ok.mp run with ⟨between, before, later⟩
  rcases foldlM_cons_eq_ok.mp later with ⟨next, placing, -⟩
  apply mem_of_foldlM_place before
  have elsewhere : id ≠ root := by
    rintro rfl
    exact Nat.not_lt_zero _ (rooted.parent_lt found link)
  unfold Program.place at placing
  simp only [found, if_neg elsewhere, link] at placing
  split at placing
  · next listed => simpa using listed
  · cases placing

/-- Only what lists every scope is accepted. -/
theorem complete_of_checkOrder (accepted : Program.checkOrder outline order = .ok ()) :
    ∀ id < outline.scopes.size, id ∈ order := by
  intro id bound
  rcases exists_placed_of_checkOrder accepted with ⟨placed, run, complete⟩
  exact mem_of_foldlM_place run id (complete id bound)

/-- Only scopes are accepted. -/
theorem known_of_checkOrder (accepted : Program.checkOrder outline order = .ok ()) :
    ∀ id ∈ order, id < outline.scopes.size := by
  intro id listed
  rcases List.append_of_mem listed with ⟨front, back, rfl⟩
  rcases exists_placed_of_checkOrder accepted with ⟨placed, run, -⟩
  rcases foldlM_append_eq_ok.mp run with ⟨between, -, later⟩
  rcases foldlM_cons_eq_ok.mp later with ⟨next, placing, -⟩
  unfold Program.place at placing
  split at placing
  · cases placing
  · next scope found => exact lt_size_of_getElem? found

/-- An order is accepted if it lists the scopes and nothing else, with parents first. -/
theorem checkOrder_eq_ok_iff (rooted : Rooted outline) :
    Program.checkOrder outline order = .ok () ↔
      (∀ id, id ∈ order ↔ id < outline.scopes.size) ∧ ParentsFirst outline order := by
  constructor
  · intro accepted
    exact ⟨fun id => ⟨known_of_checkOrder accepted id, complete_of_checkOrder accepted id⟩,
      parentsFirst_of_checkOrder rooted accepted⟩
  · rintro ⟨listed, parentsFirst⟩
    have run := foldlM_place rooted (fun id => (listed id).mp) parentsFirst order
      (List.prefix_refl _)
    have met : (List.range outline.scopes.size).find?
        (fun id => !order.reverse.contains id) = none := by
      apply List.find?_eq_none.mpr
      intro id member
      simpa using (listed id).mpr (List.mem_range.mp member)
    unfold Program.checkOrder
    rw [run]
    simp only [met]

/-- An order of all scopes with parents first is accepted. -/
theorem Orders.checkOrder (orders : Orders outline order) (rooted : Rooted outline) :
    Program.checkOrder outline order = .ok () :=
  (checkOrder_eq_ok_iff rooted).mpr ⟨fun _ => orders.mem_iff, orders.parentsFirst⟩

theorem orders_of_checkOrder (rooted : Rooted outline)
    (complete : order.Perm (List.range outline.scopes.size))
    (accepted : Program.checkOrder outline order = .ok ()) : Orders outline order :=
  ⟨complete, parentsFirst_of_checkOrder rooted accepted⟩

/-! ## The order by depths -/

/-- Shallow scopes first, and those of one depth by their numbers. -/
def ByDepth (outline : Outline) (order : List ScopeId) : Prop :=
  order.Pairwise fun left right => outline.depthOf left < outline.depthOf right ∨
    outline.depthOf left = outline.depthOf right ∧ left < right

theorem byDepth_order (outline : Outline) : ByDepth outline outline.order :=
  pairwise_orderBy_stable outline.depthOf List.pairwise_lt_range

/-- A parent is not deeper than what it contains. -/
theorem depthOf_parent_le (rooted : Rooted outline) {id parent : Nat} {scope : Scope}
    (found : outline.scopes[id]? = some scope) (link : scope.parent = some parent) :
    outline.depthOf parent ≤ outline.depthOf id := by
  have elsewhere : id ≠ root := by
    rintro rfl
    exact Nat.not_lt_zero _ (rooted.parent_lt found link)
  rcases rooted.inside id scope found elsewhere with ⟨other, otherLink, -, depth⟩
  rw [link] at otherLink
  cases otherLink
  rw [depthOf_eq found, depth]
  exact Nat.le_add_right _ _

/-- By depth, parents come first. -/
theorem ByDepth.parentsFirst (sorted : ByDepth outline order) (rooted : Rooted outline)
    (complete : order.Perm (List.range outline.scopes.size)) : ParentsFirst outline order := by
  intro front id back split scope parent found link
  have smaller := rooted.parent_lt found link
  have listed : parent ∈ order := by
    apply complete.mem_iff.mpr
    exact List.mem_range.mpr (smaller.trans (lt_size_of_getElem? found))
  rw [split] at listed
  rcases List.mem_append.mp listed with before | behind
  · exact before
  · exfalso
    rcases List.mem_cons.mp behind with itself | later
    · exact Nat.ne_of_lt smaller itself
    · have shallow := depthOf_parent_le rooted found link
      rw [ByDepth, split] at sorted
      rcases List.rel_of_pairwise_cons (List.pairwise_append.mp sorted).2.1 later with
        deeper | ⟨-, greater⟩
      · exact Nat.not_lt_of_le shallow deeper
      · exact Nat.lt_asymm smaller greater

theorem orders_order (rooted : Rooted outline) : Orders outline outline.order :=
  have complete := perm_orderBy _ (List.range outline.scopes.size)
  ⟨complete, (byDepth_order outline).parentsFirst rooted complete⟩

end Stencil.Outline
