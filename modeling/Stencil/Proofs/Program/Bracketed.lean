import Mathlib.Data.List.Nodup
import Stencil.Program.Block

namespace Stencil

/-!
# Loops in the code

As instructions, the statements of a block stand one after the other, and a loop is known by
its two ends.  Every instruction is executed in the loops that were around its statement; in
the code these are the loops whose ends stand on both sides of it.  So the loops of the code
are well bracketed, and the innermost loop around an instruction can be told from the code
alone.
-/

/-- A loop of the code: the scope it runs over and the addresses of its ends. -/
structure Span where
  scope : ScopeId
  entry : Nat
  exit : Nat
  deriving DecidableEq

/-- An instruction with its address and the loops it is executed in, innermost first.  The
end of a loop is executed in the loop, its entry is not. -/
structure Line where
  address : Nat
  around : List Span
  instruction : Instruction

/-- The line that enters a loop. -/
def Line.Enters (line : Line) (span : Span) : Prop :=
  line.address = span.entry ∧ ∃ parent access conditions point,
    line.instruction = .enter span.scope parent access conditions point span.exit

/-- Whether an instruction is no end of a loop. -/
def Instruction.isPlain : Instruction → Bool
  | .enter _ _ _ _ _ _ | .next _ => false
  | .bind _ _ _ | .insert _ | .text _ _ | .separator _ _ => true

theorem Line.Enters.not_isPlain {line : Line} {span : Span} (enters : line.Enters span) :
    ¬ line.instruction.isPlain = true := by
  rcases enters.2 with ⟨_, _, _, _, entry⟩
  rw [entry]
  exact Bool.false_ne_true

theorem Line.enters {address exit point : Nat} {around : List Span} {scope parent : ScopeId}
    {access : Access} {conditions : List Condition} :
    Line.Enters ⟨address, around, .enter scope parent access conditions point exit⟩
      ⟨scope, address, exit⟩ := ⟨rfl, _, _, _, _, rfl⟩

theorem Line.Enters.eq {address exit point : Nat} {around : List Span} {scope parent : ScopeId}
    {access : Access} {conditions : List Condition} {span : Span}
    (enters : Line.Enters ⟨address, around, .enter scope parent access conditions point exit⟩ span) :
    span = ⟨scope, address, exit⟩ := by
  rcases enters with ⟨place, _, _, _, _, same⟩
  rcases span with ⟨otherScope, entry, otherExit⟩
  injection same with scopes _ _ _ _ exits
  simp only at place scopes exits
  rw [place, scopes, exits]

namespace Block

/-! ## The lines of a block -/

/-- The line between the rows of a loop. -/
def separatorLines (around : List Span) (address : Nat) : Option (String × Nat) → List Line
  | none => []
  | some (literal, point) => [⟨address, around, .separator literal point⟩]

/-- The lines of a block inside some loops, the first at `address`. -/
def lines (around : List Span) (address : Nat) : Block → List Line
  | done => []
  | bind scope parent access rest =>
    ⟨address, around, .bind scope parent access⟩ :: lines around (address + 1) rest
  | text literal point rest =>
    ⟨address, around, .text literal point⟩ :: lines around (address + 1) rest
  | insert index rest => ⟨address, around, .insert index⟩ :: lines around (address + 1) rest
  | loop scope parent access conditions point body separator rest =>
    let exit := address + 1 + size body + (separatorCode separator).length
    let inside := ⟨scope, address, exit⟩ :: around
    ⟨address, around, .enter scope parent access conditions point exit⟩
      :: lines inside (address + 1) body
      ++ separatorLines inside (address + 1 + size body) separator
      ++ ⟨exit, inside, .next address⟩ :: lines around (exit + 1) rest

/-- The lines of a block are its instructions with their addresses. -/
theorem map_lines (block : Block) : ∀ (around : List Span) (address : Nat),
    (block.lines around address).map (fun line => (line.instruction, line.address)) =
      (block.instructions address).zipIdx address := by
  have separated : ∀ (around : List Span) (address : Nat) (separator : Option (String × Nat)),
      (separatorLines around address separator).map
          (fun line => (line.instruction, line.address)) =
        (separatorCode separator).zipIdx address := by
    intro around address separator
    cases separator <;> rfl
  induction block with
  | done => exact fun _ _ => rfl
  | bind scope parent access rest ih =>
    intro around address
    simp only [lines, instructions, List.map_cons, List.zipIdx_cons, ih]
  | text literal point rest ih =>
    intro around address
    simp only [lines, instructions, List.map_cons, List.zipIdx_cons, ih]
  | insert index rest ih =>
    intro around address
    simp only [lines, instructions, List.map_cons, List.zipIdx_cons, ih]
  | loop scope parent access conditions point body separator rest body_ih rest_ih =>
    intro around address
    have behind : address + 1 + (body.size + (separatorCode separator).length) =
        address + 1 + body.size + (separatorCode separator).length := (Nat.add_assoc _ _ _).symm
    simp only [lines, instructions, List.map_cons, List.map_append, List.zipIdx_cons,
      List.zipIdx_append, body_ih, rest_ih, separated, List.cons_append, length_instructions,
      List.length_append, behind]

section Loops

variable {around : List Span} {address : Nat} {scope parent : ScopeId} {access : Access}
  {conditions : List Condition} {point : Nat} {body rest : Block}
  {separator : Option (String × Nat)} {line : Line}

theorem mem_separatorLines (member : line ∈ separatorLines around address separator) :
    line.address = address ∧ line.around = around ∧
      (∃ literal point, line.instruction = .separator literal point) ∧
      (separatorCode separator).length = 1 := by
  cases separator with
  | none => cases member
  | some separator =>
    rw [List.mem_singleton.mp member]
    exact ⟨rfl, rfl, ⟨_, _, rfl⟩, rfl⟩

theorem mem_lines_loop :
    line ∈ (loop scope parent access conditions point body separator rest).lines around address ↔
      let exit := address + 1 + body.size + (separatorCode separator).length
      let inside := ⟨scope, address, exit⟩ :: around
      line = ⟨address, around, .enter scope parent access conditions point exit⟩ ∨
        line ∈ body.lines inside (address + 1) ∨
        line ∈ separatorLines inside (address + 1 + body.size) separator ∨
        line = ⟨exit, inside, .next address⟩ ∨
        line ∈ rest.lines around (exit + 1) := by
  simp only [lines, List.cons_append, List.mem_cons, List.mem_append, or_assoc]

end Loops

/-! ## Where lines stand -/

variable {around : List Span} {address : Nat} {line : Line}

/-- The lines of a block stand in its place. -/
theorem address_of_mem_lines {block : Block} : ∀ {around : List Span} {address : Nat},
    line ∈ block.lines around address →
      address ≤ line.address ∧ line.address < address + block.size := by
  intro around address member
  have placed : (line.instruction, line.address) ∈ (block.instructions address).zipIdx address := by
    rw [← map_lines block around address]
    exact List.mem_map_of_mem member
  have bounds := List.mem_zipIdx placed
  rw [length_instructions] at bounds
  exact ⟨bounds.1, bounds.2.1⟩

/-- No two lines stand in one place. -/
theorem eq_of_address_eq {block : Block} {other : Line}
    (member : line ∈ block.lines around address) (otherMember : other ∈ block.lines around address)
    (same : line.address = other.address) : line = other := by
  have placed := congrArg (List.map Prod.snd) (map_lines block around address)
  rw [List.map_map, List.zipIdx_map_snd] at placed
  have once : ((block.lines around address).map Line.address).Nodup := by
    have addresses : (block.lines around address).map Line.address = _ := placed
    rw [addresses]
    exact List.nodup_range'
  exact List.inj_on_of_nodup_map once member otherMember same

/-- A line of a block is a line of the code. -/
theorem mem_code_iff {block : Block} {instruction : Instruction} :
    (block.instructions 0).toArray[address]? = some instruction ↔
      ∃ around, ⟨address, around, instruction⟩ ∈ block.lines [] 0 := by
  have placed := map_lines block [] 0
  rw [List.getElem?_toArray, ← List.mk_mem_zipIdx_iff_getElem?, ← placed, List.mem_map]
  constructor
  · rintro ⟨⟨_, around, _⟩, member, ⟨⟩⟩
    exact ⟨around, member⟩
  · rintro ⟨around, member⟩
    exact ⟨_, member, rfl⟩

/-! ## Plain statements and loops -/

/-- A block that begins with a statement of one instruction, which is no end of a loop. -/
structure Begins (block : Block) (instruction : Instruction) (rest : Block) : Prop where
  lines : ∀ around address, block.lines around address =
    ⟨address, around, instruction⟩ :: rest.lines around (address + 1)
  size : block.size = rest.size + 1
  isPlain : instruction.isPlain = true

/-- Induction on a block where all statements but loops are treated alike. -/
theorem statements {motive : Block → Prop} (done : motive .done)
    (plain : ∀ {block rest : Block} {instruction : Instruction},
      block.Begins instruction rest → motive rest → motive block)
    (loop : ∀ {scope parent : ScopeId} {access : Access} {conditions : List Condition}
      {point : Nat} {body : Block} {separator : Option (String × Nat)} {rest : Block},
      motive body → motive rest →
        motive (.loop scope parent access conditions point body separator rest))
    (block : Block) : motive block := by
  induction block with
  | done => exact done
  | bind scope parent access rest ih => exact plain ⟨fun _ _ => rfl, rfl, rfl⟩ ih
  | text literal point rest ih => exact plain ⟨fun _ _ => rfl, rfl, rfl⟩ ih
  | insert index rest ih => exact plain ⟨fun _ _ => rfl, rfl, rfl⟩ ih
  | loop _ _ _ _ _ _ _ _ body_ih rest_ih => exact loop body_ih rest_ih

/-! ## Loops around lines -/

/-- The loops around a block are around its lines. -/
theorem suffix_around (block : Block) : ∀ {around : List Span} {address : Nat},
    line ∈ block.lines around address → around <:+ line.around := by
  induction block using statements with
  | done => intro around address impossible; cases impossible
  | plain begins ih =>
    intro around address member
    rw [begins.lines] at member
    rcases List.mem_cons.mp member with rfl | later
    · exact List.suffix_rfl
    · exact ih later
  | loop body_ih rest_ih =>
    intro around address member
    rcases mem_lines_loop.mp member with rfl | inBody | between | rfl | behind
    · exact List.suffix_rfl
    · exact (List.suffix_cons _ _).trans (body_ih inBody)
    · rw [(mem_separatorLines between).2.1]
      exact List.suffix_cons _ _
    · exact List.suffix_cons _ _
    · exact rest_ih behind

/-- Between the parts of a body no loop is entered. -/
theorem not_enters_of_separatorLines {around : List Span} {address : Nat}
    {separator : Option (String × Nat)} {span : Span}
    (between : line ∈ separatorLines around address separator) : ¬ line.Enters span := by
  intro enters
  rcases (mem_separatorLines between).2.2.1 with ⟨_, _, separates⟩
  rcases enters.2 with ⟨_, _, _, _, entry⟩
  rw [separates] at entry
  cases entry

/-- A loop ends in the block where it begins.  Its end is executed in the loop itself and in
the loops around its entry. -/
theorem exists_exit (block : Block) {span : Span} : ∀ {around : List Span} {address : Nat},
    line ∈ block.lines around address → line.Enters span →
      span.entry < span.exit ∧ span.exit < address + block.size ∧
        ⟨span.exit, span :: line.around, .next span.entry⟩ ∈ block.lines around address := by
  induction block using statements with
  | done => intro around address impossible; cases impossible
  | plain begins ih =>
    intro around address member enters
    rw [begins.lines] at member ⊢
    rw [begins.size]
    rcases List.mem_cons.mp member with rfl | later
    · exact absurd begins.isPlain enters.not_isPlain
    · rcases ih later enters with ⟨ordered, within, ends⟩
      exact ⟨ordered, by omega, .tail _ ends⟩
  | @loop scope parent access conditions point body separator rest body_ih rest_ih =>
    intro around address member enters
    simp only [mem_lines_loop, size] at member ⊢
    rcases member with rfl | inBody | between | rfl | behind
    · rw [enters.eq]
      exact ⟨by simp only; omega, by simp only; omega, .inr (.inr (.inr (.inl rfl)))⟩
    · rcases body_ih inBody enters with ⟨ordered, within, ends⟩
      exact ⟨ordered, by omega, .inr (.inl ends)⟩
    · exact absurd enters (not_enters_of_separatorLines between)
    · rcases enters.2 with ⟨_, _, _, _, ⟨⟩⟩
    · rcases rest_ih behind enters with ⟨ordered, within, ends⟩
      exact ⟨ordered, by omega, .inr (.inr (.inr (.inr ends)))⟩

/-- What ends a loop is executed in it, and the loop is entered in the same block. -/
theorem exists_entry (block : Block) {exit entry : Nat} {inside : List Span} :
    ∀ {around : List Span} {address : Nat},
      ⟨exit, inside, .next entry⟩ ∈ block.lines around address →
        ∃ span outer, inside = span :: outer ∧ span.entry = entry ∧ span.exit = exit ∧
          ∃ line ∈ block.lines around address, line.Enters span ∧ line.around = outer := by
  induction block using statements with
  | done => intro around address impossible; cases impossible
  | plain begins ih =>
    intro around address member
    rw [begins.lines] at member ⊢
    rcases List.mem_cons.mp member with same | later
    · cases same
      exact absurd begins.isPlain Bool.false_ne_true
    · rcases ih later with ⟨span, outer, whole, starts, ends, line, listed, enters⟩
      exact ⟨span, outer, whole, starts, ends, line, .tail _ listed, enters⟩
  | @loop scope parent access conditions point body separator rest body_ih rest_ih =>
    intro around address member
    simp only [mem_lines_loop] at member ⊢
    rcases member with same | inBody | between | same | behind
    · cases same
    · rcases body_ih inBody with ⟨span, outer, whole, starts, ends, line, listed, enters⟩
      exact ⟨span, outer, whole, starts, ends, line, .inr (.inl listed), enters⟩
    · rcases (mem_separatorLines between).2.2.1 with ⟨_, _, ⟨⟩⟩
    · cases same
      exact ⟨_, _, rfl, rfl, rfl, _, .inl rfl, Line.enters, rfl⟩
    · rcases rest_ih behind with ⟨span, outer, whole, starts, ends, line, listed, enters⟩
      exact ⟨span, outer, whole, starts, ends, line, .inr (.inr (.inr (.inr listed))), enters⟩

/-- A loop around a line is around the block, or is one of the block whose ends are on both
sides of the line. -/
theorem mem_around_cases (block : Block) {span : Span} :
    ∀ {around : List Span} {address : Nat},
      line ∈ block.lines around address → span ∈ line.around →
        span ∈ around ∨ (span.entry < line.address ∧ line.address ≤ span.exit) ∧
          ∃ other ∈ block.lines around address, other.Enters span := by
  induction block using statements with
  | done => intro around address impossible; cases impossible
  | plain begins ih =>
    intro around address member inside
    rw [begins.lines] at member ⊢
    rcases List.mem_cons.mp member with rfl | later
    · exact .inl inside
    · refine (ih later inside).imp_right ?_
      rintro ⟨between, other, listed, enters⟩
      exact ⟨between, other, .tail _ listed, enters⟩
  | @loop scope parent access conditions point body separator rest body_ih rest_ih =>
    intro around address member inside
    simp only [mem_lines_loop] at member ⊢
    -- What is around a line of the body, of the separator or of the end.
    have around_own : ∀ {span : Span}, span ∈ (⟨scope, address,
        address + 1 + body.size + (separatorCode separator).length⟩ : Span) :: around →
        address < line.address →
        line.address ≤ address + 1 + body.size + (separatorCode separator).length →
        span ∈ around ∨ (span.entry < line.address ∧ line.address ≤ span.exit) ∧
          (⟨address, around, .enter scope parent access conditions point
            (address + 1 + body.size + (separatorCode separator).length)⟩ : Line).Enters span := by
      intro span listed above below
      rcases List.mem_cons.mp listed with rfl | outer
      · exact .inr ⟨⟨above, below⟩, Line.enters⟩
      · exact .inl outer
    rcases member with rfl | inBody | between | rfl | behind
    · exact .inl inside
    · have bounds := address_of_mem_lines inBody
      rcases body_ih inBody inside with outer | ⟨between, other, listed, enters⟩
      · refine (around_own outer (by omega) (by omega)).imp_right ?_
        rintro ⟨between, enters⟩
        exact ⟨between, _, .inl rfl, enters⟩
      · exact .inr ⟨between, other, .inr (.inl listed), enters⟩
    · rcases mem_separatorLines between with ⟨place, within, -, length⟩
      rw [within] at inside
      refine (around_own inside (by omega) (by omega)).imp_right ?_
      rintro ⟨between, enters⟩
      exact ⟨between, _, .inl rfl, enters⟩
    · refine (around_own inside (by simp only; omega) (Nat.le_refl _)).imp_right ?_
      rintro ⟨between, enters⟩
      exact ⟨between, _, .inl rfl, enters⟩
    · refine (rest_ih behind inside).imp_right ?_
      rintro ⟨between, other, listed, enters⟩
      exact ⟨between, other, .inr (.inr (.inr (.inr listed))), enters⟩

/-- A loop is around its body, its separator and its end. -/
theorem mem_around_of_own {scope parent : ScopeId} {access : Access} {conditions : List Condition}
    {point : Nat} {body rest : Block} {separator : Option (String × Nat)} {around : List Span}
    {address : Nat}
    (member : line ∈ (loop scope parent access conditions point body separator rest).lines around
      address)
    (above : address < line.address)
    (below : line.address ≤ address + 1 + body.size + (separatorCode separator).length) :
    ⟨scope, address, address + 1 + body.size + (separatorCode separator).length⟩ ∈ line.around := by
  simp only [mem_lines_loop] at member
  rcases member with rfl | inBody | between | rfl | behind
  · exact absurd above (Nat.lt_irrefl _)
  · exact (suffix_around body inBody).mem (.head _)
  · rw [(mem_separatorLines between).2.1]
    exact .head _
  · exact .head _
  · have bounds := address_of_mem_lines behind
    omega

/-- A loop of a block is around the lines between its ends. -/
theorem mem_around_of_enters (block : Block) {other : Line} {span : Span} :
    ∀ {around : List Span} {address : Nat},
      line ∈ block.lines around address → other ∈ block.lines around address →
        other.Enters span → span.entry < line.address → line.address ≤ span.exit →
          span ∈ line.around := by
  induction block using statements with
  | done => intro around address impossible; cases impossible
  | plain begins ih =>
    intro around address member otherMember enters above below
    rw [begins.lines] at member otherMember
    rcases List.mem_cons.mp otherMember with rfl | otherLater
    · exact absurd begins.isPlain enters.not_isPlain
    · have behind := (address_of_mem_lines otherLater).1
      rw [enters.1] at behind
      rcases List.mem_cons.mp member with rfl | later
      · simp only at above
        omega
      · exact ih later otherLater enters above below
  | @loop scope parent access conditions point body separator rest body_ih rest_ih =>
    intro around address member otherMember enters above below
    rcases mem_lines_loop.mp otherMember with rfl | otherBody | between | rfl | otherBehind
    · have own := enters.eq
      subst own
      exact mem_around_of_own member above below
    · -- A loop of the body ends in front of the separator.
      have ends := (exists_exit body otherBody enters).2.1
      have begin := (address_of_mem_lines otherBody).1
      rw [enters.1] at begin
      rcases mem_lines_loop.mp member with rfl | inBody | between | rfl | behind
      · simp only at above
        omega
      · exact body_ih inBody otherBody enters above below
      · have place := (mem_separatorLines between).1
        omega
      · simp only at below
        omega
      · have bounds := address_of_mem_lines behind
        omega
    · exact absurd enters (not_enters_of_separatorLines between)
    · rcases enters.2 with ⟨_, _, _, _, ⟨⟩⟩
    · have begin := (address_of_mem_lines otherBehind).1
      rw [enters.1] at begin
      rcases mem_lines_loop.mp member with rfl | inBody | between | rfl | behind
      · simp only at above
        omega
      · have bounds := address_of_mem_lines inBody
        omega
      · have place := mem_separatorLines between
        omega
      · simp only at above
        omega
      · exact rest_ih behind otherBehind enters above below

/-- The loops around a line are listed from the innermost on. -/
theorem pairwise_around (block : Block) : ∀ {around : List Span} {address : Nat},
    line ∈ block.lines around address → (∀ span ∈ around, span.entry < address) →
      around.Pairwise (fun inner outer => outer.entry < inner.entry) →
        line.around.Pairwise fun inner outer => outer.entry < inner.entry := by
  induction block using statements with
  | done => intro around address impossible; cases impossible
  | plain begins ih =>
    intro around address member outside sorted
    rw [begins.lines] at member
    rcases List.mem_cons.mp member with rfl | later
    · exact sorted
    · exact ih later (fun span listed => Nat.lt_succ_of_lt (outside span listed)) sorted
  | @loop scope parent access conditions point body separator rest body_ih rest_ih =>
    intro around address member outside sorted
    let exit := address + 1 + body.size + (separatorCode separator).length
    have nested : ((⟨scope, address, exit⟩ : Span) :: around).Pairwise
        fun inner outer => outer.entry < inner.entry := List.pairwise_cons.mpr ⟨outside, sorted⟩
    rcases mem_lines_loop.mp member with rfl | inBody | between | rfl | behind
    · exact sorted
    · refine body_ih inBody ?_ nested
      intro span listed
      rcases List.mem_cons.mp listed with rfl | outer
      · exact Nat.lt_succ_self address
      · exact Nat.lt_succ_of_lt (outside span outer)
    · rw [(mem_separatorLines between).2.1]
      exact nested
    · exact nested
    · refine rest_ih behind (fun span listed => ?_) sorted
      have before := outside span listed
      omega

end Block

/-! ## Loops of a program -/

/-- An address between the ends of a loop. -/
def Span.Surrounds (span : Span) (address : Nat) : Prop :=
  span.entry < address ∧ address < span.exit

namespace Program

/-- A loop that is entered somewhere in the code. -/
def HasLoop (program : Program) (span : Span) : Prop :=
  ∃ parent access conditions point,
    program.code[span.entry]? = some (.enter span.scope parent access conditions point span.exit)

/-- Loops with both ends, and one of two always inside the other or behind it. -/
structure WellBracketed (program : Program) : Prop where
  closed : ∀ span, program.HasLoop span →
    span.entry < span.exit ∧ program.code[span.exit]? = some (.next span.entry)
  opened : ∀ exit entry, program.code[exit]? = some (.next entry) →
    ∃ span, program.HasLoop span ∧ span.entry = entry ∧ span.exit = exit ∧
      ∀ other, program.HasLoop other → other.exit = exit → other = span
  nested : ∀ span other, program.HasLoop span → program.HasLoop other →
    span.entry < other.entry → span.exit < other.entry ∨ other.exit < span.exit

/-- The innermost loop around an address runs over this scope; none if no loop is around it. -/
def Innermost (program : Program) (host : Option ScopeId) (address : Nat) : Prop :=
  match host with
  | none => ∀ span, program.HasLoop span → ¬ span.Surrounds address
  | some scope => ∃ span, program.HasLoop span ∧ span.scope = scope ∧ span.Surrounds address ∧
      ∀ other, program.HasLoop other → other.Surrounds address → other.entry ≤ span.entry

variable {program : Program} {block : Block}

/-- The lines of a program made of a block. -/
theorem getElem?_code_eq_some (code : program.code = (block.instructions 0).toArray)
    {address : Nat} {instruction : Instruction} :
    program.code[address]? = some instruction ↔
      ∃ around, ⟨address, around, instruction⟩ ∈ block.lines [] 0 := by
  rw [code]
  exact Block.mem_code_iff

theorem hasLoop_iff (code : program.code = (block.instructions 0).toArray) {span : Span} :
    program.HasLoop span ↔ ∃ line ∈ block.lines [] 0, line.Enters span := by
  constructor
  · rintro ⟨parent, access, conditions, point, entry⟩
    rcases (getElem?_code_eq_some code).mp entry with ⟨around, member⟩
    exact ⟨_, member, Line.enters⟩
  · rintro ⟨⟨address, around, instruction⟩, member, place, parent, access, conditions, point, same⟩
    simp only at place same
    rw [place, same] at member
    exact ⟨_, _, _, _, (getElem?_code_eq_some code).mpr ⟨around, member⟩⟩

/-- The loops around a line are those whose ends are on both sides of it. -/
theorem mem_around_iff (code : program.code = (block.instructions 0).toArray) {line : Line}
    (member : line ∈ block.lines [] 0) {span : Span} :
    span ∈ line.around ↔
      program.HasLoop span ∧ span.entry < line.address ∧ line.address ≤ span.exit := by
  rw [hasLoop_iff code]
  constructor
  · intro inside
    rcases Block.mem_around_cases block member inside with impossible | ⟨between, entered⟩
    · cases impossible
    · exact ⟨entered, between⟩
  · rintro ⟨⟨other, otherMember, enters⟩, above, below⟩
    exact Block.mem_around_of_enters block member otherMember enters above below

/-- The loops of a program made of a block are well bracketed. -/
theorem wellBracketed_of_block (code : program.code = (block.instructions 0).toArray) :
    WellBracketed program := by
  have closed : ∀ span, program.HasLoop span →
      span.entry < span.exit ∧ program.code[span.exit]? = some (.next span.entry) := by
    intro span entered
    rcases (hasLoop_iff code).mp entered with ⟨line, member, enters⟩
    rcases Block.exists_exit block member enters with ⟨ordered, -, ends⟩
    exact ⟨ordered, (getElem?_code_eq_some code).mpr ⟨_, ends⟩⟩
  refine ⟨closed, ?_, ?_⟩
  · intro exit entry ends
    rcases (getElem?_code_eq_some code).mp ends with ⟨around, member⟩
    rcases Block.exists_entry block member with
      ⟨span, outer, -, rfl, rfl, line, listed, enters, -⟩
    have entered := (hasLoop_iff code).mpr ⟨line, listed, enters⟩
    refine ⟨span, entered, rfl, rfl, fun other otherEntered same => ?_⟩
    -- Both loops end here, so they begin at one address, where one instruction stands.
    have otherEnds := (closed other otherEntered).2
    rw [same, ends] at otherEnds
    have entries : span.entry = other.entry := by
      injection Option.some.inj otherEnds
    rcases entered with ⟨_, _, _, _, first⟩
    rcases otherEntered with ⟨_, _, _, _, second⟩
    rw [← entries, first] at second
    injection Option.some.inj second with scopes _ _ _ _ exits
    rcases span with ⟨scope, entry, exit⟩
    rcases other with ⟨otherScope, otherEntry, otherExit⟩
    simp only at entries scopes exits
    rw [entries, scopes, exits]
  · intro span other entered otherEntered later
    by_cases inside : other.entry ≤ span.exit
    · right
      rcases (hasLoop_iff code).mp otherEntered with ⟨line, member, enters⟩
      have around : span ∈ line.around :=
        (mem_around_iff code member).mpr ⟨entered, enters.1.symm ▸ later, enters.1.symm ▸ inside⟩
      have ends := (Block.exists_exit block member enters).2.2
      have below := ((mem_around_iff code ends).mp (.tail _ around)).2.2
      refine Nat.lt_of_le_of_ne below ?_
      -- Two loops have different ends, since each end knows its entry.
      intro same
      have first := (closed span entered).2
      have second := (closed other otherEntered).2
      rw [same, first] at second
      injection Option.some.inj second with entries
      exact Nat.ne_of_lt later entries
    · exact .inl (Nat.lt_of_not_le inside)

/-- The innermost loop around a line is the first one listed. -/
theorem innermost_of_mem_lines (code : program.code = (block.instructions 0).toArray) {line : Line}
    (member : line ∈ block.lines [] 0) (inner : ∀ entry, line.instruction ≠ .next entry) :
    program.Innermost (line.around.head?.map Span.scope) line.address := by
  have surrounding : ∀ {span : Span}, program.HasLoop span →
      (span.Surrounds line.address ↔ span ∈ line.around) := by
    intro span entered
    rw [mem_around_iff code member]
    constructor
    · exact fun between => ⟨entered, between.1, Nat.le_of_lt between.2⟩
    · rintro ⟨-, above, below⟩
      refine ⟨above, Nat.lt_of_le_of_ne below fun same => ?_⟩
      -- The line would be the end of that loop.
      have ends := ((wellBracketed_of_block code).closed span entered).2
      rw [← same] at ends
      rcases (getElem?_code_eq_some code).mp ends with ⟨around, listed⟩
      have own := Block.eq_of_address_eq member listed rfl
      exact inner span.entry (congrArg Line.instruction own)
  have sorted := Block.pairwise_around block member (by simp) List.Pairwise.nil
  cases around : line.around with
  | nil =>
    intro span entered between
    have inside := (surrounding entered).mp between
    rw [around] at inside
    cases inside
  | cons span outer =>
    rw [around] at sorted
    have own : span ∈ line.around := by
      rw [around]
      exact .head _
    have entered := ((mem_around_iff code member).mp own).1
    refine ⟨span, entered, rfl, (surrounding entered).mpr own, ?_⟩
    intro other otherEntered between
    have inside := (surrounding otherEntered).mp between
    rw [around] at inside
    rcases List.mem_cons.mp inside with rfl | further
    · exact Nat.le_refl _
    · exact Nat.le_of_lt (List.rel_of_pairwise_cons sorted further)

end Program

end Stencil
