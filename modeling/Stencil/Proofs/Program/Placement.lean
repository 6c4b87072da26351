import Stencil.Proofs.Program.Consistency
import Stencil.Proofs.Program.Founded

namespace Stencil

open Outline (Rooted IsBody Inside ParentsFirst)

/-!
# Where statements stand

Apart from literal text, a program consists of bindings, loops and insertions.  Each body of
an outline is reached along one path of dimensions and made into code once, even if the order
names an array again, since only the first loop over an array has its body.  So a statement
stands in the code as often as its own body has it, and just in the loop of that body.
-/

/-- A statement of a body other than text. -/
inductive Item where
  | bound (scope : ScopeId)
  | looped (scope : ScopeId)
  | inserted (index : Nat)
  deriving DecidableEq, Repr

/-- The statement that an instruction begins. -/
def Instruction.item? : Instruction → Option Item
  | .bind scope _ _ => some (.bound scope)
  | .enter scope _ _ _ _ _ => some (.looped scope)
  | .insert index => some (.inserted index)
  | .next _ | .text _ _ | .separator _ _ => none

/-- The scope of the innermost loop around a line. -/
def Line.host (line : Line) : Option ScopeId := line.around.head?.map Span.scope

/-- The statement of a line with the loop it is in. -/
def Line.item? (line : Line) : Option (Option ScopeId × Item) :=
  line.instruction.item?.map (Prod.mk line.host)

namespace Block

/-- The statements of a block in a loop over `host`, each with the innermost loop around it. -/
def items (host : Option ScopeId) : Block → List (Option ScopeId × Item)
  | done => []
  | bind scope _ _ rest => (host, .bound scope) :: items host rest
  | text _ _ rest => items host rest
  | insert index rest => (host, .inserted index) :: items host rest
  | loop scope _ _ _ _ body _ rest =>
    (host, .looped scope) :: (items (some scope) body ++ items host rest)

/-- The statements of a block are those of its lines. -/
theorem filterMap_lines (block : Block) : ∀ (around : List Span) (address : Nat),
    (block.lines around address).filterMap Line.item? =
      block.items (around.head?.map Span.scope) := by
  have separated : ∀ (around : List Span) (address : Nat) (separator : Option (String × Nat)),
      (separatorLines around address separator).filterMap Line.item? = [] := by
    intro around address separator
    cases separator <;> rfl
  induction block with
  | done => exact fun _ _ => rfl
  | bind scope parent access rest ih =>
    intro around address
    simp [lines, items, Line.item?, Instruction.item?, Line.host, ih]
  | text literal point rest ih =>
    intro around address
    simp [lines, items, List.filterMap_cons, Line.item?, Instruction.item?, ih]
  | insert index rest ih =>
    intro around address
    simp [lines, items, Line.item?, Instruction.item?, Line.host, ih]
  | loop scope parent access conditions point body separator rest body_ih rest_ih =>
    intro around address
    simp [lines, items, List.filterMap_cons, Line.item?, Instruction.item?, Line.host, body_ih,
      rest_ih, separated]

/-! ## The statements of a compiled block -/

end Block

namespace Program

variable {outline : Outline} {order : List ScopeId} {layout : Layout} {body : Option ScopeId}
  {insertions : List (Placed × Nat)}

theorem items_bindings (rest : Block) (members : List Member) :
    (bindings rest members).items body =
      ((members.filter fun member => !member.scope.isArray).map fun member =>
        (body, Item.bound member.id)) ++ rest.items body := by
  induction members with
  | nil => rfl
  | cons member more ih =>
    rw [bindings]
    cases array : member.scope.isArray with
    | true => simp [array, ih]
    | false => simp [array, Block.items, ih]

theorem items_opening (member : Member) (rest : Block) :
    (opening layout member rest).items body = rest.items body := by
  unfold opening
  split
  · split
    · rfl
    · rfl
  · rfl

theorem items_insertionsOf (placed : List (Placed × Nat)) :
    (insertionsOf body placed).items body =
      (placed.filter fun item => item.1.host == body).map fun item =>
        (body, Item.inserted item.2) := by
  induction placed with
  | nil => rfl
  | cons item more ih =>
    rw [insertionsOf]
    by_cases hosted : item.1.host = body
    · simp [hosted, Block.items, ih]
    · simp [hosted, ih]

section Loops

variable {bodyOf : ScopeId → Block} {rest : Block} {place : Option ScopeId × Item}

/-- The loops of a body over the arrays among some members. -/
def loopedOf (body : Option ScopeId) (members : List Member) : List (Option ScopeId × Item) :=
  (members.filter fun member => member.scope.isArray).map fun member =>
    (body, Item.looped member.id)

theorem loopedOf_cons {member : Member} {more : List Member} :
    loopedOf body (member :: more) =
      (if member.scope.isArray then [(body, Item.looped member.id)] else []) ++
        loopedOf body more := by
  cases array : member.scope.isArray <;> simp [loopedOf, array]

theorem items_loopOf (member : Member) (inner after : Block) :
    (loopOf layout member inner after).items body =
      (body, .looped member.id) :: (inner.items (some member.id) ++ after.items body) := by
  rw [loopOf, items_opening, Block.items]

/-- A statement that none of the bodies has is counted beside them. -/
theorem count_items_loops_of_none {members : List Member} :
    ∀ {seen : List ScopeId},
      (∀ member ∈ members, member.scope.isArray = true → member.id ∉ seen →
        ((bodyOf member.id).items (some member.id)).count place = 0) →
      ((loops layout bodyOf rest seen members).items body).count place =
        (loopedOf body members).count place + (rest.items body).count place := by
  induction members with
  | nil =>
    intro seen _
    simp [loops, loopedOf]
  | cons member more ih =>
    intro seen none
    have onward : ((loops layout bodyOf rest (member.id :: seen) more).items body).count place =
        (loopedOf body more).count place + (rest.items body).count place :=
      ih fun other listed array unseen =>
        none other (.tail _ listed) array fun old => unseen (.tail _ old)
    rw [loops, loopedOf_cons, List.count_append]
    split
    · next array =>
      have absent : ((if seen.contains member.id then Block.done
          else bodyOf member.id).items (some member.id)).count place = 0 := by
        split
        · rfl
        · next unseen => exact none member (.head _) array (by simpa using unseen)
      rw [items_loopOf, List.count_cons, List.count_append, List.count_singleton, onward]
      omega
    · rw [onward, List.count_nil, Nat.zero_add]

/-- A statement that one of the bodies has is counted in it and beside the bodies. -/
theorem count_items_loops_of_one {members : List Member} {only : ScopeId}
    (kinds : ∀ member ∈ members, member.id = only → member.scope.isArray = true) :
    ∀ {seen : List ScopeId}, only ∉ seen → (∃ member ∈ members, member.id = only) →
      (∀ member ∈ members, member.scope.isArray = true → member.id ≠ only →
        ((bodyOf member.id).items (some member.id)).count place = 0) →
      ((loops layout bodyOf rest seen members).items body).count place =
        (loopedOf body members).count place + ((bodyOf only).items (some only)).count place +
          (rest.items body).count place := by
  induction members with
  | nil =>
    rintro seen - ⟨_, impossible, -⟩
    cases impossible
  | cons member more ih =>
    intro seen unseen present others
    have othersMore : ∀ other ∈ more, other.scope.isArray = true → other.id ≠ only →
        ((bodyOf other.id).items (some other.id)).count place = 0 :=
      fun other listed => others other (.tail _ listed)
    rw [loops, loopedOf_cons, List.count_append]
    by_cases own : member.id = only
    · subst own
      have array := kinds member (.head _) rfl
      have new : seen.contains member.id = false := by simpa using unseen
      -- Later loops over it have no body.
      have onward : ((loops layout bodyOf rest (member.id :: seen) more).items body).count place =
          (loopedOf body more).count place + (rest.items body).count place :=
        count_items_loops_of_none fun other listed kind later =>
          othersMore other listed kind fun same => later (same ▸ .head _)
      rw [if_pos array, if_pos array, new, if_neg Bool.false_ne_true, items_loopOf,
        List.count_cons, List.count_append, List.count_singleton, onward]
      omega
    · have further : only ∉ member.id :: seen := by
        simpa [Ne.symm own] using unseen
      have presentMore : ∃ other ∈ more, other.id = only := by
        rcases present with ⟨other, listed, same⟩
        rcases List.mem_cons.mp listed with rfl | later
        · exact absurd same own
        · exact ⟨other, later, same⟩
      have onward := ih (fun other listed => kinds other (.tail _ listed)) further presentMore
        othersMore
      split
      · next array =>
        have absent : ((if seen.contains member.id then Block.done
            else bodyOf member.id).items (some member.id)).count place = 0 := by
          split
          · rfl
          · exact others member (.head _) array own
        rw [items_loopOf, List.count_cons, List.count_append, List.count_singleton, onward]
        omega
      · rw [onward, List.count_nil, Nat.zero_add]

end Loops

/-! ## The dimensions on the way to a body -/

/-- The next dimension on the way to a body is an array of the body reached so far. -/
theorem exists_next (rooted : Rooted outline) {host : Option ScopeId} (isHost : IsBody outline host)
    {next : ScopeId} {more : List ScopeId}
    (way : outline.dimensionsOf host = outline.dimensionsOf body ++ next :: more) :
    ∃ member, Inside outline body member ∧ member.scope.isArray = true ∧ member.id = next := by
  cases host with
  | none => simp [Outline.dimensionsOf] at way
  | some id =>
    have bound : id < outline.scopes.size := rowScope_lt rooted isHost
    have around : outline.dimensionsAround id = outline.dimensionsOf body ++ next :: more := way
    have listed : next ∈ outline.dimensionsAround id := by
      rw [around]
      simp
    rcases Outline.mem_dimensionsAround_iff.mp listed with ⟨within, array⟩
    rcases Outline.dimensionsAround_of_isArray rooted array with ⟨outer, own⟩
    -- The way to the array is the front part of the way to the host that ends with it.
    have same : outline.dimensionsOf body = outer := by
      rcases Outline.dimensionsAround_isPrefix_of_mem rooted bound within with ⟨behind, whole⟩
      have once : (outline.dimensionsAround id).Nodup :=
        (Outline.nodup_ancestry rooted bound).filter _
      rw [around, List.nodup_append, List.nodup_cons] at once
      rw [own, around, List.append_assoc, List.singleton_append] at whole
      refine ((List.append_cons_inj_of_notMem ?_ once.2.1.1).mp whole.symm).1
      exact fun member => once.2.2 next member next (.head _) rfl
    rcases Outline.scopeIs_eq_true.mp array with ⟨scope, found, kind⟩
    have elsewhere : next ≠ Outline.root := by
      rintro rfl
      rw [Outline.dimensionsAround_root rooted] at own
      simp at own
    rcases rooted.inside next scope found elsewhere with ⟨parent, link, smaller, -⟩
    refine ⟨⟨next, scope, parent⟩, ⟨found, link, ?_, smaller, Outline.lt_size_of_getElem? found⟩,
      kind, rfl⟩
    rw [Outline.dimensionsAround_inside rooted found link, kind] at own
    rw [same]
    exact List.append_cancel_right own

/-- The arrays of a body have greater numbers than the scope of its row. -/
theorem rowScope_lt_of_inside (rooted : Rooted outline) (isBody : IsBody outline body)
    {member : Member} (inside : Inside outline body member) : rowScope body < member.id := by
  refine Nat.lt_of_le_of_lt ?_ inside.smaller
  cases body with
  | none => exact Nat.zero_le _
  | some id =>
    have outer : id ∈ outline.dimensionsAround member.parent := by
      rw [inside.around]
      exact List.mem_of_getLast? (isBody.getLast? rooted)
    exact Outline.le_of_mem_ancestry rooted (inside.smaller.trans inside.bound)
      (Outline.mem_dimensionsAround_iff.mp outer).1

/-! ## Counting statements -/

/-- The statements of a body itself. -/
def ownItems (outline : Outline) (order : List ScopeId) (insertions : List (Placed × Nat))
    (body : Option ScopeId) : List Item :=
  (((members outline order body).filter fun member => !member.scope.isArray).map
      Member.id).map .bound ++
    ((((members outline order body).filter fun member => member.scope.isArray).map
        Member.id).map .looped ++
      ((insertions.filter fun item => item.1.host == body).map Prod.snd).map .inserted)

/-- The kinds of statements are counted apart. -/
theorem count_kinds (objects arrays indices : List Nat) (id : Nat) :
    let all := objects.map Item.bound ++ (arrays.map Item.looped ++ indices.map Item.inserted)
    all.count (.bound id) = objects.count id ∧ all.count (.looped id) = arrays.count id ∧
      all.count (.inserted id) = indices.count id := by
  have bound : Function.Injective Item.bound := by
    rintro _ _ ⟨⟩
    rfl
  have looped : Function.Injective Item.looped := by
    rintro _ _ ⟨⟩
    rfl
  have inserted : Function.Injective Item.inserted := by
    rintro _ _ ⟨⟩
    rfl
  have apart : ∀ {make : Nat → Item} {item : Item} (list : List Nat), (∀ id, make id ≠ item) →
      (list.map make).count item = 0 := by
    intro make item list differ
    refine List.count_eq_zero.mpr fun listed => ?_
    rcases List.mem_map.mp listed with ⟨id, -, same⟩
    exact differ id same
  simp only [List.count_append, List.count_map_of_injective _ _ bound,
    List.count_map_of_injective _ _ looped, List.count_map_of_injective _ _ inserted]
  refine ⟨?_, ?_, ?_⟩
  · rw [apart arrays (by rintro _ ⟨⟩), apart indices (by rintro _ ⟨⟩), Nat.add_zero]
  · rw [apart objects (by rintro _ ⟨⟩), apart indices (by rintro _ ⟨⟩), Nat.zero_add, Nat.add_zero]
  · rw [apart objects (by rintro _ ⟨⟩), apart arrays (by rintro _ ⟨⟩), Nat.zero_add, Nat.zero_add]

theorem count_map_mk {host : Option ScopeId} {item : Item} (list : List Item) :
    (list.map (Prod.mk body)).count (host, item) = if host = body then list.count item else 0 := by
  split
  · next same =>
    subst same
    exact List.count_map_of_injective list (Prod.mk host) (Prod.mk_right_injective host) item
  · next differ =>
    apply List.count_eq_zero.mpr
    intro member
    rcases List.mem_map.mp member with ⟨_, -, same⟩
    exact differ (congrArg Prod.fst same).symm

/-- A statement of a body is a binding, a loop or an insertion. -/
theorem count_ownItems (place : Option ScopeId × Item) :
    ((ownItems outline order insertions body).map (Prod.mk body)).count place =
      (((members outline order body).filter fun member => !member.scope.isArray).map
          fun member => (body, Item.bound member.id)).count place +
        (loopedOf body (members outline order body)).count place +
        ((insertionsOf body insertions).items body).count place := by
  rw [ownItems, List.map_append, List.map_append, List.count_append, List.count_append,
    items_insertionsOf, Nat.add_assoc]
  simp only [List.map_map]
  rfl

theorem items_block_succ (levels : Nat) :
    (block outline order layout insertions (levels + 1) body).items body =
      ((members outline order body).filter fun member => !member.scope.isArray).map
          (fun member => (body, Item.bound member.id)) ++
        (loops layout (fun id => block outline order layout insertions levels (some id))
          (insertionsOf body insertions) [] (members outline order body)).items body := by
  rw [block, items_bindings]

/-- If none of the arrays of a body has a statement, it is counted in the body itself. -/
theorem count_items_block_of_none {host : Option ScopeId} {item : Item} {levels : Nat}
    (none : ∀ member ∈ members outline order body, member.scope.isArray = true →
      ((block outline order layout insertions levels (some member.id)).items
        (some member.id)).count (host, item) = 0) :
    ((block outline order layout insertions (levels + 1) body).items body).count (host, item) =
      if host = body then (ownItems outline order insertions body).count item else 0 := by
  rw [← count_map_mk, count_ownItems, items_block_succ, List.count_append,
    count_items_loops_of_none fun member listed array _ => none member listed array, Nat.add_assoc]

/-- If just one of the arrays of a body has a statement of another body, it is counted there. -/
theorem count_items_block_of_one (rooted : Rooted outline) {host : Option ScopeId} {item : Item}
    {levels : Nat} (elsewhere : host ≠ body) {array : Member}
    (listed : array ∈ members outline order body) (kind : array.scope.isArray = true)
    (others : ∀ member ∈ members outline order body, member.scope.isArray = true →
      member.id ≠ array.id → ((block outline order layout insertions levels (some member.id)).items
        (some member.id)).count (host, item) = 0) :
    ((block outline order layout insertions (levels + 1) body).items body).count (host, item) =
      ((block outline order layout insertions levels (some array.id)).items
        (some array.id)).count (host, item) := by
  have kinds : ∀ member ∈ members outline order body, member.id = array.id →
      member.scope.isArray = true := by
    intro member memberListed same
    have found := (Outline.inside_of_mem rooted memberListed).found
    rw [same, (Outline.inside_of_mem rooted listed).found] at found
    rw [← Option.some.inj found]
    exact kind
  have none : ((ownItems outline order insertions body).map (Prod.mk body)).count
      (host, item) = 0 := by
    rw [count_map_mk, if_neg elsewhere]
  rw [count_ownItems] at none
  rw [items_block_succ, List.count_append,
    count_items_loops_of_one kinds List.not_mem_nil ⟨array, listed, rfl⟩ others]
  omega

theorem dimensionsOf_member (rooted : Rooted outline) {member : Member}
    (listed : member ∈ members outline order body) (array : member.scope.isArray = true) :
    outline.dimensionsOf (some member.id) = outline.dimensionsOf body ++ [member.id] :=
  (Outline.inside_of_mem rooted listed).dimensionsAround_array rooted array

/-- Statements of bodies that are not reached from a body are not in its block. -/
theorem count_items_block_of_apart (rooted : Rooted outline) {host : Option ScopeId} (item : Item)
    (levels : Nat) : ∀ {body : Option ScopeId}, IsBody outline body →
      ¬ outline.dimensionsOf body <+: outline.dimensionsOf host →
      ((block outline order layout insertions levels body).items body).count (host, item) = 0 := by
  induction levels with
  | zero => exact fun _ _ => rfl
  | succ levels ih =>
    intro body isBody apart
    have elsewhere : host ≠ body := by
      rintro rfl
      exact apart (List.prefix_refl _)
    rw [count_items_block_of_none, if_neg elsewhere]
    intro member listed array
    refine ih ((Outline.inside_of_mem rooted listed).isBody array) fun further => apart ?_
    rw [dimensionsOf_member rooted listed array] at further
    exact (List.prefix_append _ _).trans further

/-- In the block of a body each statement of a body that is reached from it is counted as often
as its own body has it. -/
theorem count_items_block (rooted : Rooted outline)
    (complete : ∀ id < outline.scopes.size, id ∈ order) {host : Option ScopeId}
    (isHost : IsBody outline host) (item : Item) (levels : Nat) :
    ∀ {body : Option ScopeId}, IsBody outline body →
      outline.dimensionsOf body <+: outline.dimensionsOf host →
      outline.scopes.size ≤ levels + rowScope body →
      ((block outline order layout insertions levels body).items body).count (host, item) =
        (ownItems outline order insertions host).count item := by
  induction levels with
  | zero =>
    intro body isBody _ enough
    rw [Nat.zero_add] at enough
    exact absurd (rowScope_lt rooted isBody) (Nat.not_lt_of_le enough)
  | succ levels ih =>
    rintro body isBody ⟨way, reached⟩ enough
    have inside : ∀ {member}, member ∈ members outline order body → Inside outline body member :=
      fun listed => Outline.inside_of_mem rooted listed
    cases way with
    | nil =>
      rw [List.append_nil] at reached
      have here : host = body := by
        rw [← isHost.getLast? rooted, ← reached, isBody.getLast? rooted]
      rw [count_items_block_of_none, if_pos here, here]
      intro member listed array
      refine count_items_block_of_apart rooted item levels ((inside listed).isBody array) ?_
      rw [dimensionsOf_member rooted listed array, ← reached]
      intro further
      have short := further.length_le
      rw [List.length_append] at short
      exact Nat.not_succ_le_self _ short
    | cons next more =>
      have elsewhere : host ≠ body := by
        rintro rfl
        have lengths := congrArg List.length reached
        simp at lengths
      rcases exists_next rooted isHost reached.symm with ⟨array, known, kind, rfl⟩
      have listed := known.mem_members rooted isBody (complete _ known.bound)
      rw [count_items_block_of_one rooted elsewhere listed kind]
      · refine ih (known.isBody kind) ?_ ?_
        · rw [dimensionsOf_member rooted listed kind, ← reached]
          exact ⟨more, by simp⟩
        · have less : rowScope body + 1 ≤ array.id := rowScope_lt_of_inside rooted isBody known
          refine Nat.le_trans enough ?_
          rw [Nat.add_assoc, Nat.add_comm 1]
          exact Nat.add_le_add_left less levels
      · -- The way leads through one array only.
        intro member memberListed memberKind differ
        refine count_items_block_of_apart rooted item levels ((inside memberListed).isBody memberKind)
          ?_
        rw [dimensionsOf_member rooted memberListed memberKind, ← reached]
        intro further
        rw [List.prefix_append_right_inj, List.cons_prefix_cons] at further
        exact differ further.1

theorem mem_ownItems {item : Item} :
    item ∈ ownItems outline order insertions body ↔
      (∃ member ∈ members outline order body, member.scope.isArray = false ∧
        item = .bound member.id) ∨
      (∃ member ∈ members outline order body, member.scope.isArray = true ∧
        item = .looped member.id) ∨
      ∃ placed ∈ insertions, placed.1.host = body ∧ item = .inserted placed.2 := by
  simp only [ownItems, List.map_map, List.mem_append, List.mem_map, List.mem_filter,
    Bool.not_eq_true', beq_iff_eq, Function.comp_apply, and_assoc, eq_comm (b := item)]

/-- What stands in the loop of a body is a statement of that body. -/
theorem mem_items_block (rooted : Rooted outline) {place : Option ScopeId × Item} (levels : Nat) :
    ∀ {body : Option ScopeId}, IsBody outline body →
      place ∈ (block outline order layout insertions levels body).items body →
        IsBody outline place.1 ∧ place.2 ∈ ownItems outline order insertions place.1 := by
  induction levels with
  | zero =>
    intro body _ impossible
    cases impossible
  | succ levels ih =>
    intro body isBody member
    -- A loop is a statement of the body, and what is in it one of its own body.
    have inLoops : ∀ {seen : List ScopeId} {bodies : List Member},
        (∀ member ∈ bodies, member ∈ members outline order body) →
        place ∈ (loops layout (fun id => block outline order layout insertions levels (some id))
          (insertionsOf body insertions) seen bodies).items body →
        IsBody outline place.1 ∧ place.2 ∈ ownItems outline order insertions place.1 := by
      intro seen bodies listed
      induction bodies generalizing seen with
      | nil =>
        intro member
        rw [loops, items_insertionsOf] at member
        rcases List.mem_map.mp member with ⟨item, kept, rfl⟩
        rcases List.mem_filter.mp kept with ⟨known, hosted⟩
        exact ⟨isBody, mem_ownItems.mpr (.inr (.inr ⟨item, known, eq_of_beq hosted, rfl⟩))⟩
      | cons first more moreIh =>
        intro member
        have onward := @moreIh (first.id :: seen) fun other later => listed other (.tail _ later)
        rw [loops] at member
        split at member
        · next array =>
          have own := listed first (.head _)
          rw [items_loopOf] at member
          rcases List.mem_cons.mp member with rfl | member
          · exact ⟨isBody, mem_ownItems.mpr (.inr (.inl ⟨first, own, array, rfl⟩))⟩
          · rcases List.mem_append.mp member with inner | behind
            · split at inner
              · cases inner
              · exact ih ((Outline.inside_of_mem rooted own).isBody array) inner
            · exact onward behind
        · exact onward member
    rw [block, items_bindings] at member
    rcases List.mem_append.mp member with bound | further
    · rcases List.mem_map.mp bound with ⟨object, kept, rfl⟩
      rcases List.mem_filter.mp kept with ⟨known, kind⟩
      exact ⟨isBody, mem_ownItems.mpr (.inl ⟨object, known, by simpa using kind, rfl⟩)⟩
    · exact inLoops (fun _ listed => listed) further

/-! ## Statements of the code -/

/-- A list that makes something once makes it of one element, at one place. -/
theorem exists_only_of_count_eq_one {α β : Type} [BEq β] [LawfulBEq β] {make : α → Option β}
    {made : β} {list : List α} : (list.filterMap make).count made = 1 →
    ∃ (place : Nat) (item : α), list[place]? = some item ∧ make item = some made ∧
      ∀ (other : Nat) (found : α), list[other]? = some found → make found = some made →
        other = place := by
  have absent : ∀ {more : List α}, (more.filterMap make).count made = 0 →
      ∀ (other : Nat) (found : α), more[other]? = some found → make found ≠ some made := by
    intro more none other found listed same
    apply List.count_eq_zero.mp none
    exact List.mem_filterMap.mpr ⟨found, List.mem_of_getElem? listed, same⟩
  induction list with
  | nil =>
    intro once
    cases once
  | cons first more ih =>
    intro once
    by_cases own : make first = some made
    · rw [List.filterMap_cons_some own, List.count_cons_self] at once
      refine ⟨0, first, rfl, own, fun other found listed same => ?_⟩
      cases other with
      | zero => rfl
      | succ other =>
        exact absurd same (absent (Nat.succ.inj once) other found (by simpa using listed))
    · have later : (more.filterMap make).count made = 1 := by
        cases made? : make first with
        | none =>
          rw [List.filterMap_cons_none made?] at once
          exact once
        | some value =>
          have differ : value ≠ made := by
            rintro rfl
            exact own made?
          rw [List.filterMap_cons_some made?, List.count_cons_of_ne differ] at once
          exact once
      rcases ih later with ⟨place, item, listed, same, only⟩
      refine ⟨place + 1, item, by simpa using listed, same, fun other found otherListed made => ?_⟩
      cases other with
      | zero =>
        cases otherListed
        exact absurd made own
      | succ other => rw [only other found (by simpa using otherListed) made]

variable {program : Program} {escape : Escape}

/-- The statements of a program are those of its block. -/
theorem filterMap_code {top : Block} (code : program.code = (top.instructions 0).toArray) :
    program.code.toList.filterMap Instruction.item? = (top.items none).map Prod.snd := by
  have instructions : top.instructions 0 = (top.lines [] 0).map Line.instruction := by
    have placed := congrArg (List.map Prod.fst) (Block.map_lines top [] 0)
    rw [List.map_map, List.zipIdx_map_fst] at placed
    exact placed.symm
  have own : ∀ line : Line, (line.item?).map Prod.snd = line.instruction.item? := by
    intro line
    unfold Line.item?
    cases line.instruction.item? <;> rfl
  have items := Block.filterMap_lines top [] 0
  rw [code, List.toList_toArray, instructions, List.filterMap_map]
  rw [List.head?_nil, Option.map_none] at items
  rw [← items, List.map_filterMap]
  exact List.filterMap_congr fun line _ => (own line).symm

/-- A statement of the code is one of a body, and the loop of that body is the innermost
around it. -/
theorem CompiledFrom.exists_body
    (compiled : CompiledFrom program outline order layout escape) (rooted : Rooted outline)
    {address : Nat} {instruction : Instruction} {item : Item}
    (fetched : program.code[address]? = some instruction)
    (begins : instruction.item? = some item) :
    ∃ host, IsBody outline host ∧ item ∈ ownItems outline order
        (((keptSlots outline layout).map (placedOf outline layout)).zipIdx) host ∧
      program.Innermost host address := by
  have code := compiled.code
  rcases (getElem?_code_eq_some code).mp fetched with ⟨around, member⟩
  let line : Line := ⟨address, around, instruction⟩
  have made : line.item? = some (line.host, item) := by
    show instruction.item?.map _ = _
    rw [begins, Option.map_some]
  have listed := List.mem_filterMap.mpr ⟨line, member, made⟩
  rw [Block.filterMap_lines] at listed
  rcases mem_items_block rooted outline.scopes.size (Outline.isBody_none outline) listed with
    ⟨isBody, own⟩
  refine ⟨line.host, isBody, own, innermost_of_mem_lines code member ?_⟩
  rintro entry ended
  rw [show instruction = .next entry from ended] at begins
  cases begins

/-- Where a statement comes with one host only, it is counted as often as with that host. -/
theorem count_map_snd {host : Option ScopeId} {item : Item} {list : List (Option ScopeId × Item)}
    (alone : ∀ place ∈ list, place.2 = item → place.1 = host) :
    (list.map Prod.snd).count item = list.count (host, item) := by
  rw [List.count_eq_countP, List.countP_map, List.count_eq_countP]
  apply List.countP_congr
  rintro ⟨other, own⟩ listed
  simp only [Function.comp_apply, beq_iff_eq, Prod.mk.injEq]
  exact ⟨fun same => ⟨alone _ listed same, same⟩, fun same => same.2⟩

/-- A statement of one body only is counted in the code as often as the body has it. -/
theorem CompiledFrom.count_code
    (compiled : CompiledFrom program outline order layout escape) (rooted : Rooted outline)
    (complete : ∀ id < outline.scopes.size, id ∈ order) {host : Option ScopeId} {item : Item}
    (isHost : IsBody outline host)
    (alone : ∀ other, IsBody outline other → item ∈ ownItems outline order
      (((keptSlots outline layout).map (placedOf outline layout)).zipIdx) other → other = host) :
    (program.code.toList.filterMap Instruction.item?).count item =
      (ownItems outline order (((keptSlots outline layout).map (placedOf outline layout)).zipIdx)
        host).count item := by
  rw [filterMap_code compiled.code]
  generalize ((keptSlots outline layout).map (placedOf outline layout)).zipIdx = insertions
    at alone ⊢
  have top := Outline.isBody_none outline
  rw [count_map_snd, count_items_block rooted complete isHost item outline.scopes.size top
    List.nil_prefix (Nat.le_add_right _ _)]
  intro place listed same
  rcases mem_items_block rooted outline.scopes.size top listed with ⟨isBody, own⟩
  rw [same] at own
  exact alone place.1 isBody own

end Program

end Stencil
