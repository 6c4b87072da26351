import Stencil.Proofs.Program.Iterations
import Stencil.Proofs.Program.Shape
import Stencil.Proofs.Program.Tables

namespace Stencil

open Outline (Rooted IsBody ParentsFirst)

/-!
# Scopes that are sequenced once

An order is checked for scopes that do not exist, that come before their parents or that do
not come at all.  It is not checked for scopes that come again.  An order that names every
scope once gives every object one binding and every array one loop, so that the text in front
of a loop and the one between its rows are not emitted twice in an iteration.  An array that is
named again gets another loop, and that repeats its texts though it has no body.
-/

/-- The statement of a scope: its loop or its binding. -/
def Item.ofScope (id : ScopeId) (scope : Scope) : Item :=
  if scope.isArray then .looped id else .bound id

namespace Program

variable {program : Program} {outline : Outline} {order : List ScopeId} {layout : Layout}
  {escape : Escape}

/-! ## Scopes in the code -/

/-- The instruction at an address binds an object. -/
def Binds (program : Program) (scope : ScopeId) (address : Nat) : Prop :=
  ∃ parent access, program.code[address]? = some (.bind scope parent access)

section Counts

variable {id parent : ScopeId} {scope : Scope}

/-- A body has a scope as often as the order names it. -/
theorem count_members (found : outline.scopes[id]? = some scope)
    (link : scope.parent = some parent) (kind : Scope → Bool) (chosen : kind scope = true) :
    (((members outline order (outline.dimensionAround? parent)).filter
      fun member => kind member.scope).map Member.id).count id = order.count id := by
  rw [List.count_eq_countP, List.count_eq_countP, List.countP_map, List.countP_filter, members,
    List.countP_filter, List.countP_filterMap]
  apply List.countP_congr
  intro other _
  by_cases same : other = id
  · subst same
    have made : member? outline other = some ⟨other, scope, parent⟩ :=
      Outline.member?_eq_some.mpr ⟨rfl, found, link⟩
    simp [made, chosen]
  · cases made : member? outline other with
    | none => simp [same]
    | some member => simp [(Outline.member?_eq_some.mp made).1, same]

/-- A scope is of one body only. -/
theorem eq_dimensionAround {body : Option ScopeId} {member : Member}
    (listed : member ∈ members outline order body)
    (found : outline.scopes[member.id]? = some scope) (link : scope.parent = some parent) :
    body = outline.dimensionAround? parent := by
  rcases Outline.mem_members.mp listed with ⟨-, own, ownLink, rfl⟩
  rw [found] at own
  cases own
  rw [link] at ownLink
  cases ownLink
  rfl

end Counts

/-- A scope has as many statements as the order names it. -/
theorem CompiledFrom.count_ofScope (compiled : CompiledFrom program outline order layout escape)
    (rooted : Rooted outline) (complete : ∀ id < outline.scopes.size, id ∈ order) {id : ScopeId}
    {scope : Scope} (found : outline.scopes[id]? = some scope) (inside : id ≠ Outline.root) :
    (program.code.toList.filterMap Instruction.item?).count (.ofScope id scope) =
      order.count id := by
  rcases rooted.inside id scope found inside with ⟨parent, link, -⟩
  have alone : ∀ other, IsBody outline other → Item.ofScope id scope ∈ ownItems outline order
      (((keptSlots outline layout).map (placedOf outline layout)).zipIdx) other →
        other = outline.dimensionAround? parent := by
    intro other _ own
    have same : ∃ member ∈ members outline order other, member.id = id := by
      unfold Item.ofScope at own
      split at own
      · rcases mem_ownItems.mp own with ⟨_, -, -, ⟨⟩⟩ | ⟨member, listed, -, ⟨⟩⟩ | ⟨_, -, -, ⟨⟩⟩
        exact ⟨member, listed, rfl⟩
      · rcases mem_ownItems.mp own with ⟨member, listed, -, ⟨⟩⟩ | ⟨_, -, -, ⟨⟩⟩ | ⟨_, -, -, ⟨⟩⟩
        exact ⟨member, listed, rfl⟩
    rcases same with ⟨member, listed, rfl⟩
    exact eq_dimensionAround listed found link
  rw [compiled.count_code rooted complete (Outline.isBody_dimensionAround? outline parent) alone,
    ownItems, Item.ofScope]
  cases array : scope.isArray with
  | true =>
    rw [if_pos rfl, (count_kinds _ _ _ id).2.1, count_members found link Scope.isArray array]
  | false =>
    rw [if_neg Bool.false_ne_true, (count_kinds _ _ _ id).1]
    exact count_members found link (fun scope => !scope.isArray) (by simp [array])

/-! ## Literals -/

/-- The two texts of a loop: in front of it and between its rows. -/
inductive Literal where
  | opening (scope : ScopeId)
  | separator (scope : ScopeId)
  deriving DecidableEq, Repr

/-- The instruction at an address emits a literal of a loop. -/
def Prints (program : Program) (address : Nat) : Literal → Prop
  | .opening scope => (∃ text point, program.code[address]? = some (.text text point)) ∧
      ∃ span, program.HasLoop span ∧ span.scope = scope ∧ span.entry = address + 1
  | .separator scope => (∃ text point, program.code[address]? = some (.separator text point)) ∧
      ∃ span, program.HasLoop span ∧ span.scope = scope ∧ span.exit = address + 1

end Program

namespace Block

/-- Texts stand directly in front of loops. -/
def Opens : Block → Prop
  | done => True
  | bind _ _ _ rest => Opens rest
  | text _ _ rest => (∃ scope parent access conditions point body separator behind,
      rest = .loop scope parent access conditions point body separator behind) ∧ Opens rest
  | insert _ rest => Opens rest
  | loop _ _ _ _ _ body _ rest => Opens body ∧ Opens rest

/-- The line is a text in front of a loop or one in front of its end. -/
def Serves (line : Line) (span : Span) : Prop :=
  match line.instruction with
  | .text _ _ => span.entry = line.address + 1
  | .separator _ _ => span.exit = line.address + 1
  | _ => False

/-- A text is one in front of a loop, a separator is one in front of its end. -/
theorem exists_serves (block : Block) {line : Line}
    (literal : (∃ text point, line.instruction = .text text point) ∨
      ∃ text point, line.instruction = .separator text point) :
    ∀ {around : List Span} {address : Nat}, block.Opens → line ∈ block.lines around address →
      ∃ other ∈ block.lines around address, ∃ span, other.Enters span ∧ Serves line span := by
  -- The other instructions are no literals.
  have other : ∀ {address : Nat} {around : List Span} {instruction : Instruction},
      line = ⟨address, around, instruction⟩ →
      (∃ text point, instruction = .text text point) ∨
        ∃ text point, instruction = .separator text point := by
    rintro _ _ _ rfl
    exact literal
  have further : ∀ {some more : List Line}, (∀ other ∈ some, other ∈ more) →
      (∃ other ∈ some, ∃ span, other.Enters span ∧ Serves line span) →
      ∃ other ∈ more, ∃ span, other.Enters span ∧ Serves line span := by
    rintro some more within ⟨other, listed, found⟩
    exact ⟨other, within other listed, found⟩
  induction block with
  | done => intro around address _ impossible; cases impossible
  | bind scope parent access rest ih | insert index rest ih =>
    intro around address opens member
    rcases List.mem_cons.mp member with same | later
    · rcases other same with ⟨_, _, ⟨⟩⟩ | ⟨_, _, ⟨⟩⟩
    · exact further (fun _ => .tail _) (ih opens later)
  | text literal point rest ih =>
    intro around address opens member
    rcases List.mem_cons.mp member with rfl | later
    · rcases opens.1 with ⟨scope, parent, access, conditions, start, body, separator, behind, rfl⟩
      exact ⟨_, .tail _ (mem_lines_loop.mpr (.inl rfl)), _, Line.enters, rfl⟩
    · exact further (fun _ => .tail _) (ih opens.2 later)
  | loop scope parent access conditions point body separator rest body_ih rest_ih =>
    intro around address opens member
    rcases mem_lines_loop.mp member with same | inBody | between | same | behind
    · rcases other same with ⟨_, _, ⟨⟩⟩ | ⟨_, _, ⟨⟩⟩
    · exact further (fun _ listed => mem_lines_loop.mpr (.inr (.inl listed)))
        (body_ih opens.1 inBody)
    · cases separator with
      | none => cases between
      | some separator =>
        rcases List.mem_singleton.mp between with rfl
        exact ⟨_, mem_lines_loop.mpr (.inl rfl), _, Line.enters, rfl⟩
    · rcases other same with ⟨_, _, ⟨⟩⟩ | ⟨_, _, ⟨⟩⟩
    · exact further (fun _ listed => mem_lines_loop.mpr (.inr (.inr (.inr (.inr listed)))))
        (rest_ih opens.2 behind)

end Block

namespace Program

variable {program : Program} {outline : Outline} {order : List ScopeId} {layout : Layout}
  {escape : Escape}

/-! ## The block of an outline -/

theorem opens_insertionsOf {body : Option ScopeId} (items : List (Placed × Nat)) :
    (insertionsOf body items).Opens := by
  induction items with
  | nil => exact trivial
  | cons item more ih =>
    rw [insertionsOf]
    split
    · exact ih
    · exact ih

theorem opens_bindings {rest : Block} (opens : rest.Opens) (members : List Member) :
    (bindings rest members).Opens := by
  induction members with
  | nil => exact opens
  | cons member more ih =>
    rw [bindings]
    split
    · exact ih
    · exact ih

theorem opens_loopOf {member : Member} {body rest : Block} (inner : body.Opens)
    (opens : rest.Opens) : (loopOf layout member body rest).Opens := by
  unfold loopOf opening
  split
  · split
    · exact ⟨inner, opens⟩
    · exact ⟨⟨_, _, _, _, _, _, _, _, rfl⟩, inner, opens⟩
  · exact ⟨inner, opens⟩

theorem opens_loops {bodyOf : ScopeId → Block} {rest : Block} (inner : ∀ id, (bodyOf id).Opens)
    (opens : rest.Opens) (members : List Member) :
    ∀ seen, (loops layout bodyOf rest seen members).Opens := by
  induction members with
  | nil => exact fun _ => opens
  | cons member more ih =>
    intro seen
    rw [loops]
    split
    · refine opens_loopOf ?_ (ih _)
      split
      · exact trivial
      · exact inner member.id
    · exact ih _

/-- In the block of a body texts stand directly in front of loops. -/
theorem opens_block (insertions : List (Placed × Nat)) (levels : Nat) :
    ∀ body, (block outline order layout insertions levels body).Opens := by
  induction levels with
  | zero => exact fun _ => trivial
  | succ levels ih =>
    intro body
    rw [block]
    exact opens_bindings (opens_loops (fun id => ih (some id)) (opens_insertionsOf _) _ _) _

/-- Every text of the code is a literal of a loop. -/
theorem CompiledFrom.exists_literal (compiled : CompiledFrom program outline order layout escape)
    {address point : Nat} {text : String}
    (printed : program.code[address]? = some (.text text point) ∨
      program.code[address]? = some (.separator text point)) :
    ∃ literal, program.Prints address literal := by
  have code := compiled.code
  have opens : (block outline order layout
      (((keptSlots outline layout).map (placedOf outline layout)).zipIdx) outline.scopes.size
      none).Opens := opens_block _ _ _
  generalize block outline order layout
    (((keptSlots outline layout).map (placedOf outline layout)).zipIdx) outline.scopes.size none =
      top at code opens
  rcases printed with fetched | fetched
  · rcases (getElem?_code_eq_some code).mp fetched with ⟨around, member⟩
    rcases top.exists_serves (.inl ⟨_, _, rfl⟩) opens member with
      ⟨other, listed, span, enters, serves⟩
    exact ⟨.opening span.scope, ⟨_, _, fetched⟩, span, (hasLoop_iff code).mpr ⟨other, listed, enters⟩,
      rfl, serves⟩
  · rcases (getElem?_code_eq_some code).mp fetched with ⟨around, member⟩
    rcases top.exists_serves (.inr ⟨_, _, rfl⟩) opens member with
      ⟨other, listed, span, enters, serves⟩
    exact ⟨.separator span.scope, ⟨_, _, fetched⟩, span,
      (hasLoop_iff code).mpr ⟨other, listed, enters⟩, rfl, serves⟩

/-! ## Scopes that are named once -/

/-- Every object but the payload is bound at one place, every array has one loop, and no
literal of a loop is emitted twice in one iteration. -/
structure EachOnce (program : Program) (outline : Outline) : Prop where
  bound : ∀ (id : ScopeId) scope, outline.scopes[id]? = some scope → id ≠ Outline.root →
    scope.isArray = false →
      ∃ address, program.Binds id address ∧ ∀ other, program.Binds id other → other = address
  looped : ∀ (id : ScopeId) scope, outline.scopes[id]? = some scope → scope.isArray = true →
    ∃ span, program.HasLoop span ∧ span.scope = id ∧
      ∀ other, program.HasLoop other → other.scope = id → other = span
  /-- There are no texts but the literals of loops. -/
  literals : ∀ (address : Nat) text point, program.code[address]? = some (.text text point) ∨
    program.code[address]? = some (.separator text point) →
      ∃ literal, program.Prints address literal
  printed : ∀ registry payload before after literal, program.Comes registry payload before →
    Relation.TransGen (program.Steps registry) before after →
      program.Prints before.address literal → program.Prints after.address literal →
        before.iteration ≠ after.iteration

theorem item?_eq_bound {instruction : Instruction} {id : ScopeId} :
    instruction.item? = some (.bound id) ↔ ∃ parent access, instruction = .bind id parent access := by
  cases instruction <;> simp [Instruction.item?]

theorem item?_eq_looped {instruction : Instruction} {id : ScopeId} :
    instruction.item? = some (.looped id) ↔ ∃ parent access conditions point exit,
      instruction = .enter id parent access conditions point exit := by
  cases instruction <;> simp [Instruction.item?]

/-- A loop runs over an array. -/
theorem CompiledFrom.exists_array (compiled : CompiledFrom program outline order layout escape)
    (rooted : Rooted outline) {span : Span} (entered : program.HasLoop span) :
    ∃ scope, outline.scopes[span.scope]? = some scope ∧ scope.isArray = true := by
  rcases entered with ⟨parent, access, conditions, point, fetched⟩
  rcases compiled.exists_body rooted fetched rfl with ⟨host, -, own, -⟩
  rcases mem_ownItems.mp own with ⟨_, -, -, ⟨⟩⟩ | ⟨member, listed, array, same⟩ | ⟨_, -, -, ⟨⟩⟩
  rw [Item.looped.inj same]
  exact ⟨member.scope, (Outline.mem_members.mp listed).2.1, array⟩

section Once

variable (compiled : CompiledFrom program outline order layout escape) (rooted : Rooted outline)
  (complete : ∀ id < outline.scopes.size, id ∈ order)
  (once : ∀ id, id ≠ Outline.root → order.count id ≤ 1)

include compiled rooted complete once

/-- A scope has one statement. -/
theorem CompiledFrom.exists_statement {id : ScopeId} {scope : Scope}
    (found : outline.scopes[id]? = some scope) (inside : id ≠ Outline.root) :
    ∃ (address : Nat) (instruction : Instruction), program.code[address]? = some instruction ∧
      instruction.item? = some (.ofScope id scope) ∧
      ∀ (other : Nat) (another : Instruction), program.code[other]? = some another →
        another.item? = some (.ofScope id scope) → other = address := by
  have listed := complete id (Outline.lt_size_of_getElem? found)
  have counted : order.count id = 1 :=
    Nat.le_antisymm (once id inside) (List.count_pos_iff.mpr listed)
  rw [← compiled.count_ofScope rooted complete found inside] at counted
  simpa only [Array.getElem?_toList] using exists_only_of_count_eq_one counted

theorem CompiledFrom.exists_loop {id : ScopeId} {scope : Scope}
    (found : outline.scopes[id]? = some scope) (array : scope.isArray = true) :
    ∃ span, program.HasLoop span ∧ span.scope = id ∧
      ∀ other, program.HasLoop other → other.scope = id → other = span := by
  have inside : id ≠ Outline.root := by
    rintro rfl
    rcases rooted.payload with ⟨payload, own, -, object, -⟩
    rw [own] at found
    cases found
    rw [object] at array
    cases array
  rcases compiled.exists_statement rooted complete once found inside with
    ⟨address, instruction, fetched, begins, only⟩
  have looped : Item.ofScope id scope = .looped id := by rw [Item.ofScope, if_pos array]
  rw [looped] at begins only
  rcases item?_eq_looped.mp begins with ⟨parent, access, conditions, point, exit, rfl⟩
  refine ⟨⟨id, address, exit⟩, ⟨_, _, _, _, fetched⟩, rfl, ?_⟩
  rintro ⟨_, entry, otherExit⟩ ⟨_, _, _, _, again⟩ rfl
  have same : entry = address := only entry _ again (item?_eq_looped.mpr ⟨_, _, _, _, _, rfl⟩)
  subst same
  rw [fetched] at again
  cases again
  rfl

/-- Each literal of a loop has one place. -/
theorem CompiledFrom.eq_of_prints {address other : Nat} {literal : Literal}
    (prints : program.Prints address literal) (again : program.Prints other literal) :
    address = other := by
  have unique : ∀ {first second : Span}, program.HasLoop first → program.HasLoop second →
      first.scope = second.scope → first = second := by
    intro first second entered otherEntered same
    rcases compiled.exists_array rooted entered with ⟨scope, found, array⟩
    rcases compiled.exists_loop rooted complete once found array with ⟨span, -, -, only⟩
    rw [only first entered rfl, only second otherEntered same.symm]
  cases literal with
  | opening scope =>
    rcases prints with ⟨-, span, entered, rfl, place⟩
    rcases again with ⟨-, otherSpan, otherEntered, same, otherPlace⟩
    rw [unique entered otherEntered same.symm, otherPlace] at place
    exact Nat.succ.inj place.symm
  | separator scope =>
    rcases prints with ⟨-, span, entered, rfl, place⟩
    rcases again with ⟨-, otherSpan, otherEntered, same, otherPlace⟩
    rw [unique entered otherEntered same.symm, otherPlace] at place
    exact Nat.succ.inj place.symm

theorem CompiledFrom.eachOnce : program.EachOnce outline := by
  refine ⟨?_, ?_, fun _ _ _ => compiled.exists_literal, ?_⟩
  · intro id scope found inside object
    rcases compiled.exists_statement rooted complete once found inside with
      ⟨address, instruction, fetched, begins, only⟩
    have bound : Item.ofScope id scope = .bound id := by
      rw [Item.ofScope, object, if_neg Bool.false_ne_true]
    rw [bound] at begins only
    rcases item?_eq_bound.mp begins with ⟨parent, access, rfl⟩
    refine ⟨address, ⟨parent, access, fetched⟩, ?_⟩
    rintro other ⟨_, _, again⟩
    exact only other _ again (item?_eq_bound.mpr ⟨_, _, rfl⟩)
  · intro id scope found array
    exact compiled.exists_loop rooted complete once found array
  · intro registry payload before after literal comes later prints again
    exact iteration_ne_of_later compiled.code comes later
      (compiled.eq_of_prints rooted complete once prints again)

end Once

end Program

/-- An order that names every scope, with parents first, and no scope but that of the payload
twice. -/
structure Outline.Sequences (outline : Outline) (order : List ScopeId) : Prop where
  listed : ∀ id, id ∈ order ↔ id < outline.scopes.size
  once : ∀ id < outline.scopes.size, id ≠ root → order.count id = 1
  parentsFirst : ParentsFirst outline order

/-- If no scope but that of the payload is named twice, then what is compiled was sequenced
properly and has each scope once, and all other orders are refused. -/
theorem scopes_sequenced_once (markers : List Marker) (policy : Unterminated) (outline : Outline)
    (order : List ScopeId) (layout : Layout) (settings : Settings)
    (outlined : Outline.ofMarkers markers policy = .ok outline)
    (once : ∀ id, id ≠ Outline.root → order.count id ≤ 1) :
    (∀ program, Program.compile outline order layout settings = .ok program →
      outline.Sequences order ∧ program.EachOnce outline) ∧
    (¬ outline.Sequences order → ∃ scope fault,
      Program.compile outline order layout settings = .error (.inconsistentScope scope fault)) := by
  have rooted := (Outline.coherent_of_ofMarkers outlined).rooted
  have accepted : ∀ program, Program.compile outline order layout settings = .ok program →
      outline.Sequences order ∧ program.EachOnce outline := by
    intro program compiled
    rcases (Outline.checkOrder_eq_ok_iff rooted).mp (Program.checkOrder_of_compile compiled) with
      ⟨listed, parentsFirst⟩
    have complete : ∀ id < outline.scopes.size, id ∈ order := fun id => (listed id).mpr
    refine ⟨⟨listed, ?_, parentsFirst⟩,
      (Program.compile_eq_ok compiled).eachOnce rooted complete once⟩
    intro id bound inside
    exact Nat.le_antisymm (once id inside) (List.count_pos_iff.mpr (complete id bound))
  refine ⟨accepted, fun improper => ?_⟩
  cases outcome : Program.compile outline order layout settings with
  | ok program => exact absurd (accepted program outcome).1 improper
  | error error =>
    rcases Program.inconsistent_of_compile outcome with ⟨scope, fault, rfl⟩
    exact ⟨scope, fault, rfl⟩

/-- The rooms, with the street in front, and without the rooms of a house. -/
theorem scopes_sequenced_once_rooms : ∃ outline layout program,
    Outline.ofMarkers roomSource.markers .permissive = .ok outline ∧
    Layout.ofText outline roomSource.text = .ok layout ∧
    Program.compile outline [0, 3, 1, 2] layout {} = .ok program ∧
    outline.Sequences [0, 3, 1, 2] ∧ program.EachOnce outline ∧
    ∃ scope fault, Program.compile outline [0, 3, 1] layout {} =
      .error (.inconsistentScope scope fault) := by
  have made : ((Outline.ofMarkers roomSource.markers .permissive).bind fun outline =>
      (Layout.ofText outline roomSource.text).bind fun layout =>
        Program.compile outline [0, 3, 1, 2] layout {}).isOk = true := by decide +kernel
  rcases exists_of_isOk made with ⟨program, made⟩
  rcases bind_eq_ok.mp made with ⟨outline, outlined, made⟩
  rcases bind_eq_ok.mp made with ⟨layout, laidOut, compiled⟩
  have once : ∀ id, id ≠ Outline.root → [0, 3, 1, 2].count id ≤ 1 :=
    fun id _ => List.nodup_iff_count_le_one.mp (by decide) id
  have fewer : ∀ id, id ≠ Outline.root → [0, 3, 1].count id ≤ 1 :=
    fun id _ => List.nodup_iff_count_le_one.mp (by decide) id
  rcases (scopes_sequenced_once _ _ outline _ layout {} outlined once).1 program compiled with
    ⟨sequences, eachOnce⟩
  refine ⟨outline, layout, program, outlined, laidOut, compiled, sequences, eachOnce, ?_⟩
  refine (scopes_sequenced_once _ _ outline _ layout {} outlined fewer).2 fun proper => ?_
  have room : 2 < outline.scopes.size := (sequences.listed 2).mp (by decide)
  exact absurd ((proper.listed 2).mpr room) (by decide)

/-- One row with a text behind it. -/
def tapeSource : Source := ⟨"0123456789", [⟨0, "d.r[i].a"⟩, ⟨5, "d.r[i+1].a"⟩]⟩

def tapePayload : Value :=
  .object [("r", .array [.object [("a", .string "A")], .object [("a", .string "B")]])]

/-- An array that is named twice has two loops, and its separator is emitted twice. -/
theorem repeated_scope_has_two_loops : ∃ outline layout program,
    Outline.ofMarkers tapeSource.markers .permissive = .ok outline ∧
    Layout.ofText outline tapeSource.text = .ok layout ∧
    Program.compile outline [0, 1, 1] layout {} = .ok program ∧
    (∃ first second, program.HasLoop first ∧ program.HasLoop second ∧ first.scope = 1 ∧
      second.scope = 1 ∧ first ≠ second) ∧
    (program.run tapePayload .empty).map Fragment.documentText = .ok "A0123401234B56789" := by
  have shown : (((Outline.ofMarkers tapeSource.markers .permissive).bind fun outline =>
      (Layout.ofText outline tapeSource.text).bind fun layout =>
        Program.compile outline [0, 1, 1] layout {}).toOption.map fun program =>
          (program.code.toList.map Instruction.item?,
            ((program.run tapePayload .empty).map Fragment.documentText).toOption)) =
      some ([some (.looped 1), some (.inserted 0), none, none, some (.looped 1), none, none],
        some "A0123401234B56789") := by decide +kernel
  rcases Option.map_eq_some_iff.mp shown with ⟨program, made, shown⟩
  rcases Prod.mk.inj shown with ⟨items, output⟩
  rcases bind_eq_ok.mp (eq_ok_of_toOption made) with ⟨outline, outlined, made⟩
  rcases bind_eq_ok.mp made with ⟨layout, laidOut, compiled⟩
  have looped : ∀ address : Nat, (program.code.toList.map Instruction.item?)[address]? =
      some (some (.looped 1)) → ∃ exit, program.HasLoop ⟨1, address, exit⟩ := by
    intro address begins
    rw [List.getElem?_map] at begins
    rcases Option.map_eq_some_iff.mp begins with ⟨instruction, fetched, begins⟩
    rcases Program.item?_eq_looped.mp begins with ⟨_, _, _, _, exit, rfl⟩
    exact ⟨exit, _, _, _, _, by simpa using fetched⟩
  rw [items] at looped
  rcases looped 0 rfl with ⟨exit, first⟩
  rcases looped 4 rfl with ⟨otherExit, second⟩
  refine ⟨outline, layout, program, outlined, laidOut, compiled,
    ⟨_, _, first, second, rfl, rfl, ?_⟩, eq_ok_of_toOption output⟩
  rintro ⟨⟩

end Stencil
