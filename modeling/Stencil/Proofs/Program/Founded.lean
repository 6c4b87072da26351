import Stencil.Proofs.Program.Bracketed
import Stencil.Proofs.Program.Visible

namespace Stencil

open Outline (Rooted IsBody ParentsFirst)

/-!
# Values are given before they are looked into

A scope is bound, or run over, in the value of its parent.  In a block where every parent has
been given a value before, in the same body or in one around it, the instruction that gave it
stands in front in the code, and whatever loop that instruction is executed in is still
running.  The block of an outline is such a block in every order that is accepted, also where
the order names a scope again.
-/

/-- The scope that an instruction gives a value, and its parent. -/
def Instruction.gives? : Instruction → Option (ScopeId × ScopeId)
  | .bind scope parent _ => some (scope, parent)
  | .enter scope parent _ _ _ _ => some (scope, parent)
  | _ => none

namespace Block

/-- Every scope that is given a value is related to its parent, and the parent has a value,
the known ones having it from the start. -/
def Founded (related : ScopeId → ScopeId → Prop) (known : Set ScopeId) : Block → Prop
  | done => True
  | bind scope parent _ rest =>
    related scope parent ∧ parent ∈ known ∧ Founded related (Insert.insert scope known) rest
  | text _ _ rest => Founded related known rest
  | insert _ rest => Founded related known rest
  | loop scope parent _ _ _ body _ rest =>
    related scope parent ∧ parent ∈ known ∧ Founded related (Insert.insert scope known) body ∧
      Founded related known rest

/-! ## Lines -/

/-- The line gives a scope its value, and the value lasts as long as some loops are run: these
include the loops that the line is executed in and the one that it enters. -/
structure Gives (line : Line) (scope : ScopeId) (around : List Span) : Prop where
  given : ∃ parent, line.instruction.gives? = some (scope, parent)
  within : ∀ span ∈ line.around, span ∈ around
  entered : ∀ span, line.Enters span → span ∈ around

theorem Gives.mono {line : Line} {scope : ScopeId} {around inside : List Span}
    (gives : Gives line scope around) (more : ∀ span ∈ around, span ∈ inside) :
    Gives line scope inside :=
  ⟨gives.given, fun span listed => more span (gives.within span listed),
    fun span enters => more span (gives.entered span enters)⟩

/-- A bound scope has its value from the binding on. -/
theorem gives_bind {around : List Span} {address : Nat} {scope parent : ScopeId} {access : Access} :
    Gives ⟨address, around, .bind scope parent access⟩ scope around := by
  refine ⟨⟨parent, rfl⟩, fun _ inside => inside, ?_⟩
  rintro span ⟨-, _, _, _, _, ⟨⟩⟩

/-- A scope that is run over has its value inside the loop. -/
theorem gives_enter {around : List Span} {address point exit : Nat} {scope parent : ScopeId}
    {access : Access} {conditions : List Condition} :
    Gives ⟨address, around, .enter scope parent access conditions point exit⟩ scope
      (⟨scope, address, exit⟩ :: around) := by
  refine ⟨⟨parent, rfl⟩, fun _ inside => .tail _ inside, fun span enters => ?_⟩
  rw [enters.eq]
  exact .head _

/-- The known scopes have their values from lines in front of an address, but for the
payload. -/
def Supplied (all : List Line) (around : List Span) (address : Nat) (known : Set ScopeId) : Prop :=
  ∀ id ∈ known, id = Outline.root ∨
    ∃ line ∈ all, line.address < address ∧ Gives line id around

section Supplied

variable {all : List Line} {around inside : List Span} {address next : Nat} {known : Set ScopeId}

theorem Supplied.onward (supplied : Supplied all around address known) (onward : address ≤ next)
    (more : ∀ span ∈ around, span ∈ inside) : Supplied all inside next known := by
  intro id member
  refine (supplied id member).imp_right ?_
  rintro ⟨other, listed, early, given⟩
  exact ⟨other, listed, Nat.lt_of_lt_of_le early onward, given.mono more⟩

theorem Supplied.insert (supplied : Supplied all inside next known) {line : Line} {scope : ScopeId}
    (listed : line ∈ all) (early : line.address < next) (gives : Gives line scope inside) :
    Supplied all inside next (Insert.insert scope known) := by
  intro id member
  rcases member with rfl | old
  · exact .inr ⟨line, listed, early, gives⟩
  · exact supplied id old

end Supplied

/-- In a founded block the parent of a scope that is given a value has its own from a line in
front. -/
theorem exists_giver {related : ScopeId → ScopeId → Prop} {all : List Line} {line : Line}
    {scope parent : ScopeId} (gives : line.instruction.gives? = some (scope, parent))
    (block : Block) : ∀ {around : List Span} {address : Nat} {known : Set ScopeId},
      block.Founded related known → Supplied all around address known →
      (∀ other ∈ block.lines around address, other ∈ all) →
      line ∈ block.lines around address →
      related scope parent ∧ (parent = Outline.root ∨
        ∃ earlier ∈ all, earlier.address < line.address ∧ Gives earlier parent line.around) := by
  induction block with
  | done =>
    intro around address known _ _ _ impossible
    cases impossible
  | bind own outer access rest ih =>
    intro around address known founded supplied listed member
    rcases founded with ⟨relates, given, onward⟩
    rcases List.mem_cons.mp member with rfl | later
    · cases gives
      exact ⟨relates, supplied parent given⟩
    · have behind := (supplied.onward (Nat.le_succ address) fun _ inside => inside).insert
        (listed _ (.head _)) (Nat.lt_succ_self address) gives_bind
      exact ih onward behind (fun other inside => listed other (.tail _ inside)) later
  | text literal point rest ih =>
    intro around address known founded supplied listed member
    rcases List.mem_cons.mp member with rfl | later
    · cases gives
    · exact ih founded (supplied.onward (Nat.le_succ address) fun _ inside => inside)
        (fun other inside => listed other (.tail _ inside)) later
  | insert index rest ih =>
    intro around address known founded supplied listed member
    rcases List.mem_cons.mp member with rfl | later
    · cases gives
    · exact ih founded (supplied.onward (Nat.le_succ address) fun _ inside => inside)
        (fun other inside => listed other (.tail _ inside)) later
  | loop own outer access conditions point body separator rest body_ih rest_ih =>
    intro around address known founded supplied listed member
    rcases founded with ⟨relates, given, inner, onward⟩
    simp only [mem_lines_loop] at listed member
    rcases member with rfl | inBody | between | rfl | behind
    · cases gives
      exact ⟨relates, supplied parent given⟩
    · -- Inside the loop its own scope has a value, from the entry.
      have within := (supplied.onward (Nat.le_succ address) fun _ inside => .tail _ inside).insert
        (listed _ (.inl rfl)) (Nat.lt_succ_self address) gives_enter
      exact body_ih inner within (fun other inside => listed other (.inr (.inl inside))) inBody
    · rcases (mem_separatorLines between).2.2.1 with ⟨_, _, separates⟩
      rw [separates] at gives
      cases gives
    · cases gives
    · exact rest_ih onward (supplied.onward (by omega) fun _ inside => inside)
        (fun other inside => listed other (.inr (.inr (.inr (.inr inside))))) behind

end Block

namespace Program

variable {outline : Outline} {order : List ScopeId} {layout : Layout} {body : Option ScopeId}

/-! ## The block of an outline -/

/-- A scope of the outline and its parent. -/
def Child (outline : Outline) (scope parent : ScopeId) : Prop :=
  ∃ found, outline.scopes[scope]? = some found ∧ found.parent = some parent

section Parts

variable {related : ScopeId → ScopeId → Prop} {known : Set ScopeId} {rest : Block}

theorem founded_opening {member : Member} (founded : rest.Founded related known) :
    (opening layout member rest).Founded related known := by
  unfold opening
  split
  · split
    · exact founded
    · exact founded
  · exact founded

theorem founded_insertionsOf (items : List (Placed × Nat)) :
    (insertionsOf body items).Founded related known := by
  induction items with
  | nil => exact trivial
  | cons item more ih =>
    rw [insertionsOf]
    split
    · exact ih
    · exact ih

/-- The scopes that are bound for some members, the objects among them. -/
def boundIn (members : List Member) : Set ScopeId :=
  {id | ∃ member ∈ members, member.scope.isArray = false ∧ member.id = id}

theorem boundIn_nil : boundIn [] = ∅ := by
  simp [boundIn]

theorem boundIn_cons_of_array {member : Member} {more : List Member}
    (array : member.scope.isArray = true) : boundIn (member :: more) = boundIn more := by
  simp [boundIn, array]

theorem boundIn_cons_of_object {member : Member} {more : List Member}
    (object : member.scope.isArray = false) :
    boundIn (member :: more) = Insert.insert member.id (boundIn more) := by
  ext id
  simp [boundIn, object, eq_comm (a := id)]

theorem boundIn_append (front back : List Member) :
    boundIn (front ++ back) = boundIn front ∪ boundIn back := by
  ext id
  simp [boundIn, or_and_right, exists_or]

/-- Objects are bound in turn if the parent of each has a value or is bound before it. -/
theorem founded_bindings {members : List Member}
    (relates : ∀ member ∈ members, related member.id member.parent) :
    ∀ {known : Set ScopeId},
      (∀ front member back, members = front ++ member :: back → member.scope.isArray = false →
        member.parent ∈ known ∪ boundIn front) →
      rest.Founded related (known ∪ boundIn members) →
      (bindings rest members).Founded related known := by
  induction members with
  | nil =>
    intro known _ founded
    rwa [boundIn_nil, Set.union_empty] at founded
  | cons member more ih =>
    intro known turn founded
    have relatesMore : ∀ other ∈ more, related other.id other.parent :=
      fun other listed => relates other (.tail _ listed)
    rw [bindings]
    cases array : member.scope.isArray with
    | true =>
      rw [if_pos rfl]
      rw [boundIn_cons_of_array array] at founded
      refine ih relatesMore ?_ founded
      rintro front other back rfl object
      have given := turn (member :: front) other back rfl object
      rwa [boundIn_cons_of_array array] at given
    | false =>
      rw [if_neg (by simp)]
      rw [boundIn_cons_of_object array, Set.union_insert, ← Set.insert_union] at founded
      refine ⟨relates member (.head _), ?_, ih relatesMore ?_ founded⟩
      · have given := turn [] member more rfl array
        rwa [boundIn_nil, Set.union_empty] at given
      · rintro front other back rfl object
        have given := turn (member :: front) other back rfl object
        rwa [boundIn_cons_of_object array, Set.union_insert, ← Set.insert_union] at given

/-- Loops run over arrays whose parents have values. -/
theorem founded_loops {bodyOf : ScopeId → Block} {members : List Member}
    (relates : ∀ member ∈ members, related member.id member.parent)
    (given : ∀ member ∈ members, member.scope.isArray = true → member.parent ∈ known ∧
      (bodyOf member.id).Founded related (Insert.insert member.id known))
    (founded : rest.Founded related known) :
    ∀ seen, (loops layout bodyOf rest seen members).Founded related known := by
  induction members with
  | nil => exact fun _ => founded
  | cons member more ih =>
    intro seen
    have onward := ih (fun other listed => relates other (.tail _ listed))
      (fun other listed => given other (.tail _ listed)) (member.id :: seen)
    rw [loops]
    split
    · next array =>
      rcases given member (.head _) array with ⟨parent, inner⟩
      refine founded_opening ⟨relates member (.head _), parent, ?_, onward⟩
      -- Only its first loop has the body of a scope.
      split
      · exact trivial
      · exact inner
    · exact onward

end Parts

/-- The members in front of one are those that the order names before it. -/
theorem exists_order_of_members {front back : List Member} {member : Member}
    (split : members outline order body = front ++ member :: back) :
    ∃ early late, order = early ++ member.id :: late ∧ members outline early body = front := by
  have picked : ∀ order, members outline order body = order.filterMap fun id =>
      (member? outline id).filter fun member =>
        outline.dimensionAround? member.parent == body := by
    intro order
    unfold members
    rw [List.filter_filterMap]
  rw [picked, List.filterMap_eq_append_iff] at split
  rcases split with ⟨early, late, rfl, made, others⟩
  rcases List.filterMap_eq_cons_iff.mp others with ⟨between, id, behind, rfl, none, own, -⟩
  rcases Option.filter_eq_some_iff.mp own with ⟨own, -⟩
  rcases Outline.member?_eq_some.mp own with ⟨rfl, -⟩
  refine ⟨early ++ between, behind, by simp, ?_⟩
  rw [picked, List.filterMap_append, made, List.filterMap_eq_nil_iff.mpr none, List.append_nil]

/-- The parent of a member of a body is the scope of a row, or an object that stands in front
of it. -/
theorem parent_in_front (rooted : Rooted outline) (turn : ParentsFirst outline order)
    (isBody : IsBody outline body) {front back : List Member} {member : Member}
    (split : members outline order body = front ++ member :: back) :
    member.parent = rowScope body ∨ member.parent ∈ boundIn front := by
  have listed : member ∈ members outline order body := by
    rw [split]
    simp
  have inside := Outline.inside_of_mem rooted listed
  rcases eq_rowScope_or_object rooted isBody (inside.smaller.trans inside.bound) inside.around with
    row | ⟨object, objectListed, same⟩
  · exact .inl row
  · right
    rcases List.mem_filter.mp objectListed with ⟨objectMember, kind⟩
    rcases Outline.mem_members.mp objectMember with ⟨-, found, link, around⟩
    rcases exists_order_of_members split with ⟨early, late, rfl, rfl⟩
    have before := turn early member.id late rfl member.scope member.parent inside.found inside.link
    rw [← same] at before
    exact ⟨object, Outline.mem_members.mpr ⟨before, found, link, around⟩, by simpa using kind, same⟩

/-- The block of a body is founded where the scope of its row has a value. -/
theorem founded_block (rooted : Rooted outline) (turn : ParentsFirst outline order)
    (insertions : List (Placed × Nat)) (levels : Nat) :
    ∀ {body : Option ScopeId} {known : Set ScopeId}, IsBody outline body →
      rowScope body ∈ known →
      (block outline order layout insertions levels body).Founded (Child outline) known := by
  induction levels with
  | zero => intro body known _ _; exact trivial
  | succ levels ih =>
    intro body known isBody row
    have relates : ∀ member ∈ members outline order body, Child outline member.id member.parent := by
      intro member listed
      have inside := Outline.inside_of_mem rooted listed
      exact ⟨member.scope, inside.found, inside.link⟩
    rw [block]
    have given : ∀ front member back, members outline order body = front ++ member :: back →
        member.parent ∈ known ∪ boundIn front := by
      intro front member back split
      rcases parent_in_front rooted turn isBody split with same | bound
      · rw [same]
        exact .inl row
      · exact .inr bound
    refine founded_bindings relates ?_ (founded_loops relates ?_ (founded_insertionsOf _) [])
    · exact fun front member back split _ => given front member back split
    · intro member listed array
      have inside := Outline.inside_of_mem rooted listed
      refine ⟨?_, ih (inside.isBody array) (.inl rfl)⟩
      rcases List.append_of_mem listed with ⟨front, back, split⟩
      rw [split, boundIn_append, ← Set.union_assoc]
      exact .inl (given front member back split)

/-! ## The code -/

/-- Where a scope is given a value, its parent has one, from an instruction in front, and
every loop that goes on from there is around the address. -/
def Provided (program : Program) (parent : ScopeId) (address : Nat) : Prop :=
  ∃ earlier instruction outer, earlier < address ∧ program.code[earlier]? = some instruction ∧
    instruction.gives? = some (parent, outer) ∧
    ∀ span, program.HasLoop span → span.entry ≤ earlier → earlier < span.exit →
      span.Surrounds address

/-- Every scope is given a value with the value of its own parent, which is there before. -/
theorem CompiledFrom.provided {program : Program} {escape : Escape}
    (compiled : CompiledFrom program outline order layout escape) (rooted : Rooted outline)
    (turn : ParentsFirst outline order) {address : Nat} {instruction : Instruction}
    {scope parent : ScopeId} (fetched : program.code[address]? = some instruction)
    (gives : instruction.gives? = some (scope, parent)) :
    Child outline scope parent ∧ (parent = Outline.root ∨ program.Provided parent address) := by
  have code := compiled.code
  have founded : (block outline order layout
      (((keptSlots outline layout).map (placedOf outline layout)).zipIdx) outline.scopes.size
      none).Founded (Child outline) {Outline.root} :=
    founded_block rooted turn _ _ (Outline.isBody_none outline) (Set.mem_singleton Outline.root)
  generalize block outline order layout
    (((keptSlots outline layout).map (placedOf outline layout)).zipIdx) outline.scopes.size none =
      top at code founded
  rcases (getElem?_code_eq_some code).mp fetched with ⟨around, member⟩
  have supplied : Block.Supplied (top.lines [] 0) [] 0 {Outline.root} :=
    fun id listed => .inl listed
  refine (Block.exists_giver gives _ founded supplied (fun _ listed => listed) member).imp_right
    (Or.imp_right ?_)
  rintro ⟨earlier, listed, before, given⟩
  rcases given.given with ⟨outer, made⟩
  refine ⟨earlier.address, earlier.instruction, outer, before,
    (getElem?_code_eq_some code).mpr ⟨_, listed⟩, made, ?_⟩
  intro span entered above below
  -- The loop goes on where the parent is given its value, or is entered there.
  have within : span ∈ around := by
    rcases Nat.lt_or_eq_of_le above with less | same
    · exact given.within span ((mem_around_iff code listed).mpr ⟨entered, less, below.le⟩)
    · apply given.entered span
      rcases (hasLoop_iff code).mp entered with ⟨line, lineListed, enters⟩
      rw [← Block.eq_of_address_eq lineListed listed (enters.1.trans same)]
      exact enters
  rcases (mem_around_iff code member).mp within with ⟨-, start, stop⟩
  refine ⟨start, Nat.lt_of_le_of_ne stop ?_⟩
  -- The end of a loop gives no scope a value.
  rintro same
  have ends := ((wellBracketed_of_block code).closed span entered).2
  rw [← same, fetched] at ends
  cases ends
  cases gives

end Program

end Stencil
