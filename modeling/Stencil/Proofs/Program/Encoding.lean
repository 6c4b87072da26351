import Stencil.Proofs.Fallible
import Stencil.Proofs.Text.Xml
import Stencil.Template

namespace Stencil

open Text.Xml (Harmless)

/-!
# What the encoding of values changes

A document can be compiled with and without encoding of the values put into it.
The two programs differ in nothing else.  They go through the same states, and each
instruction emits the same text for both but for the value in it, which is encoded
once, after all its formatters.  So a run is described without any encoding, by
the pieces that are emitted, and either program emits these pieces.
-/

namespace Program

/-- What is emitted: a literal text, or the text of a value behind the literal text
before it. -/
inductive Piece where
  | literal (position : Position) (text : String)
  | value (position : Position) (leading text : String)
  deriving DecidableEq, Repr

/-- A piece as it is emitted with an encoding. -/
def Piece.fragment (escape : Escape) : Piece → Fragment
  | literal position text => ⟨position, text⟩
  | value position leading text => ⟨position, leading ++ encode escape text⟩

/-- The program with another encoding. -/
def encodedBy (escape : Escape) (program : Program) : Program := { program with escape := escape }

variable {program : Program} {registry : Registry}

/-! ## Steps -/

/-- What an instruction emits.  The text of a value is the one that is inserted
without encoding. -/
def pieceOf? (program : Program) (registry : Registry) (state : State) :
    Instruction → Option Piece
  | .bind _ _ _ | .enter _ _ _ _ _ _ | .next _ => none
  | .insert index =>
    program.insertions[index]?.bind fun insertion =>
      ((program.encodedBy .none).insertedText registry state insertion).toOption.map fun text =>
        .value (state.position insertion.point) insertion.leading text
  | .text text point => some (.literal (state.position point) text)
  | .separator text point =>
    if hasMore state then some (.literal (state.position point) text) else none

/-- A state that emitted something else. -/
def State.emitting (state : State) (fragments : List Fragment) : State :=
  { state with emitted := fragments }

@[simp]
theorem ancestor?_encodedBy (escape : Escape) (up : Nat) (scope : ScopeId) :
    (program.encodedBy escape).ancestor? up scope = program.ancestor? up scope := by
  induction up generalizing scope with
  | zero => rfl
  | succ up ih =>
    rw [ancestor?, ancestor?]
    exact congrArg _ (funext ih)

/-- Formatters see the same fields. -/
@[simp]
theorem fieldAbove_encodedBy (escape : Escape) (state : State) (scope : ScopeId) :
    (program.encodedBy escape).fieldAbove state scope = program.fieldAbove state scope := by
  funext up name
  rw [fieldAbove, fieldAbove, ancestor?_encodedBy]

/-- A value is encoded once, behind its last formatter. -/
theorem insertedText_encodedBy (escape : Escape) (state : State) (insertion : Insertion) :
    (program.encodedBy escape).insertedText registry state insertion =
      ((program.encodedBy .none).insertedText registry state insertion).map (encode escape) := by
  have empty : encode escape "" = "" := by cases escape <;> rfl
  unfold insertedText
  rw [fieldAbove_encodedBy, fieldAbove_encodedBy]
  split
  · rw [Except.map, empty]
  · rw [Except.map, empty]
  · cases insertion.chain.apply registry (program.fieldAbove state insertion.scope) _ <;> rfl

/-- An instruction does the same whatever the encoding and whatever was emitted
before, and emits its piece. -/
theorem step_encodedBy (escape : Escape) (state : State) (emitted : List Fragment)
    (instruction : Instruction) :
    (program.encodedBy escape).step registry (state.emitting emitted) instruction =
      ((program.encodedBy .none).step registry state instruction).map fun after =>
        after.emitting
          (((program.pieceOf? registry state instruction).map (Piece.fragment escape)).toList ++
            emitted) := by
  cases instruction with
  | bind scope parent access => rfl
  | enter scope parent access conditions point exit =>
    have items : (state.emitting emitted).valueOf parent = state.valueOf parent := rfl
    simp only [step, items]
    cases Condition.keep conditions (Value.elements (access.reach (state.valueOf parent))) with
    | nil => rfl
    | cons first remaining => rfl
  | next entry =>
    have loops : (state.emitting emitted).loops = state.loops := rfl
    simp only [step, nextElement, loops]
    cases state.loops with
    | nil => rfl
    | cons loop outer =>
      cases remaining : loop.remaining with
      | nil => simp only [remaining]; rfl
      | cons item more => simp only [remaining]; rfl
  | insert index =>
    have insertions : (program.encodedBy escape).insertions = program.insertions := rfl
    have plain : (program.encodedBy .none).insertions = program.insertions := rfl
    simp only [step, pieceOf?, insertions, plain]
    cases program.insertions[index]? with
    | none => rfl
    | some insertion =>
      have same : (program.encodedBy escape).insertedText registry (state.emitting emitted)
          insertion = (program.encodedBy escape).insertedText registry state insertion := rfl
      simp only [same, insertedText_encodedBy escape, Option.bind_some]
      cases (program.encodedBy .none).insertedText registry state insertion with
      | error error => rfl
      | ok text => rfl
  | text text point => rfl
  | separator text point =>
    have more : hasMore (state.emitting emitted) = hasMore state := rfl
    simp only [step, pieceOf?, more]
    cases hasMore state with
    | true => rfl
    | false => rfl

/-! ## Runs -/

/-- The pieces that are emitted from a state on. -/
def traceFor (program : Program) (registry : Registry) :
    Nat → State → Option (Except Error (List Piece))
  | fuel, state =>
    match program.code[state.address]? with
    | none => some (.ok [])
    | some instruction =>
      match fuel with
      | 0 => none
      | fuel + 1 =>
        match (program.encodedBy .none).step registry state instruction with
        | .error error => some (.error error)
        | .ok after =>
          (traceFor program registry fuel after).map fun later =>
            later.map ((program.pieceOf? registry state instruction).toList ++ ·)

/-- The pieces of a whole run. -/
def trace (program : Program) (data : Value) (registry : Registry) :
    Except Error (List Piece) :=
  match program.check registry with
  | .error error => .error error
  | .ok () =>
    let payload := payloadOf data
    match program.traceFor registry (program.fuelFor payload) (program.initial payload) with
    | none => .error (.inconsistentScope Outline.root .endlessRun)
    | some result => result.map fun pieces =>
        (if program.before.isEmpty then [] else [.literal [0] program.before]) ++ pieces ++
          if program.after.isEmpty then [] else [.literal [program.afterPoint] program.after]

/-- From any state on, a run with an encoding emits the pieces with that
encoding. -/
theorem runFor_encodedBy (escape : Escape) (fuel : Nat) :
    ∀ (state : State) (emitted : List Fragment),
      ((program.encodedBy escape).runFor registry fuel (state.emitting emitted)).map
          (Except.map State.emitted) =
        (program.traceFor registry fuel state).map
          (Except.map fun pieces => (pieces.map (Piece.fragment escape)).reverse ++ emitted) := by
  induction fuel with
  | zero =>
    intro state emitted
    have code : (program.encodedBy escape).code[(state.emitting emitted).address]? =
      program.code[state.address]? := rfl
    unfold runFor traceFor
    rw [code]
    cases program.code[state.address]? with
    | none => rfl
    | some instruction => rfl
  | succ fuel ih =>
    intro state emitted
    have code : (program.encodedBy escape).code[(state.emitting emitted).address]? =
      program.code[state.address]? := rfl
    unfold runFor traceFor
    rw [code]
    cases program.code[state.address]? with
    | none => rfl
    | some instruction =>
      simp only [step_encodedBy escape]
      cases (program.encodedBy .none).step registry state instruction with
      | error error => rfl
      | ok after =>
        simp only [Except.map]
        rw [ih]
        cases program.traceFor registry fuel after with
        | none => rfl
        | some outcome =>
          cases outcome with
          | error error => rfl
          | ok later => cases program.pieceOf? registry state instruction <;> simp [Except.map]

/-- The texts before and after a document are the same with any encoding. -/
theorem collect_encodedBy (escape : Escape) {state : State} {pieces : List Piece}
    (emitted : state.emitted = (pieces.map (Piece.fragment escape)).reverse ++
      if program.before.isEmpty then [] else [⟨[0], program.before⟩]) :
    (program.encodedBy escape).collect state =
      ((if program.before.isEmpty then [] else [Piece.literal [0] program.before]) ++ pieces ++
        if program.after.isEmpty then [] else [Piece.literal [program.afterPoint] program.after]).map
          (Piece.fragment escape) := by
  have literal : ∀ (position : Position) (text : String),
      (if text.isEmpty then [] else [Piece.literal position text]).map (Piece.fragment escape) =
        if text.isEmpty then [] else [⟨position, text⟩] := by
    intro position text
    split <;> rfl
  have alone : (if program.before.isEmpty then [] else
      [(⟨[0], program.before⟩ : Fragment)]).reverse =
        if program.before.isEmpty then [] else [⟨[0], program.before⟩] := by
    split <;> rfl
  unfold collect
  rw [emitted, List.map_append, List.map_append, literal, literal, List.reverse_append, alone,
    List.reverse_reverse]
  rfl

/-- A run with an encoding emits the pieces of the program with that encoding, or
fails as it does without one. -/
theorem run_encodedBy (escape : Escape) (data : Value) (registry : Registry) :
    (program.encodedBy escape).run data registry =
      (program.trace data registry).map (List.map (Piece.fragment escape)) := by
  have checked : (program.encodedBy escape).check registry = program.check registry := rfl
  unfold run trace
  rw [checked]
  cases program.check registry with
  | error error => rfl
  | ok allowed =>
    have fuel : (program.encodedBy escape).fuelFor (payloadOf data) =
      program.fuelFor (payloadOf data) := rfl
    have start : (program.encodedBy escape).initial (payloadOf data) =
        (program.initial (payloadOf data)).emitting
          (if program.before.isEmpty then [] else [⟨[0], program.before⟩]) := rfl
    have onward := @runFor_encodedBy program registry escape
      (program.fuelFor (payloadOf data)) (program.initial (payloadOf data))
      (if program.before.isEmpty then [] else [⟨[0], program.before⟩])
    simp only [fuel, start]
    cases traced : program.traceFor registry (program.fuelFor (payloadOf data))
        (program.initial (payloadOf data)) with
    | none =>
      rw [traced] at onward
      rw [Option.map_eq_none_iff.mp onward]
      rfl
    | some outcome =>
      rw [traced] at onward
      rcases Option.map_eq_some_iff.mp onward with ⟨result, ran, same⟩
      rw [ran]
      cases outcome with
      | error error =>
        rw [map_eq_error.mp same]
        rfl
      | ok pieces =>
        rcases map_eq_ok.mp same with ⟨state, rfl, emitted⟩
        exact congrArg Except.ok (collect_encodedBy escape emitted)

/-! ## Compiling -/

/-- The encoding is stored in a program and decides nothing before it is run. -/
theorem compile_encodedBy (outline : Outline) (order : List ScopeId) (layout : Layout)
    (policy : Unterminated) (escape other : Escape) :
    compile outline order layout ⟨policy, escape⟩ =
      (compile outline order layout ⟨policy, other⟩).map (encodedBy escape) := by
  unfold compile
  cases checkOrder outline order with
  | error error => rfl
  | ok checked =>
    cases placeSlots outline layout with
    | error error => rfl
    | ok placed => rfl

end Program

/-- The template with another encoding. -/
def Template.encodedBy (escape : Escape) (template : Template) : Template :=
  { template with program := template.program.encodedBy escape }

theorem Template.compile_encodedBy (source : Source) (policy : Unterminated)
    (escape other : Escape) :
    compile source ⟨policy, escape⟩ =
      (compile source ⟨policy, other⟩).map (Template.encodedBy escape) := by
  unfold compile
  simp only
  cases Outline.ofMarkers source.markers policy with
  | error error => rfl
  | ok outline =>
    simp only [bind, Except.bind]
    cases Layout.ofText outline source.text with
    | error error => rfl
    | ok layout =>
      simp only
      rw [Program.compile_encodedBy outline outline.order layout policy escape other]
      cases Program.compile outline outline.order layout ⟨policy, other⟩ with
      | error error => rfl
      | ok program => rfl

open Program (Piece)

/-- Encoding changes the values that are put into a document and nothing else: the
same documents are refused with the same errors, and the programs of the others have
the same code.  On every payload both fail alike, or emit the same pieces at the same
positions, in which every value is encoded and holds no markup. -/
theorem encoding_changes_values_only (source : Source) (policy : Unterminated) :
    Template.compile source ⟨policy, .xml⟩ =
        (Template.compile source ⟨policy, .none⟩).map (Template.encodedBy .xml) ∧
      ∀ plain marked : Template, Template.compile source ⟨policy, .none⟩ = .ok plain →
        Template.compile source ⟨policy, .xml⟩ = .ok marked →
        marked.program.code = plain.program.code ∧
          marked.program.insertions = plain.program.insertions ∧
          ∀ (data : Value) (registry : Registry),
            plain.fragments data registry =
                (plain.program.trace data registry).map (List.map (Piece.fragment .none)) ∧
              marked.fragments data registry =
                (plain.program.trace data registry).map (List.map (Piece.fragment .xml)) ∧
              ∀ pieces, plain.program.trace data registry = .ok pieces →
                ∀ position leading text, Piece.value position leading text ∈ pieces →
                  Harmless (Program.encode .xml text).toList := by
  have compiles := Template.compile_encodedBy source policy .xml .none
  refine ⟨compiles, ?_⟩
  intro plain marked plainly markedly
  have own : plain.program.encodedBy .none = plain.program := by
    have itself := Template.compile_encodedBy source policy .none .none
    rw [plainly] at itself
    exact (congrArg Template.program (Except.ok.inj itself)).symm
  have same : marked = plain.encodedBy .xml := by
    rw [plainly, markedly] at compiles
    exact Except.ok.inj compiles
  subst same
  refine ⟨rfl, rfl, fun data registry => ⟨?_, ?_, ?_⟩⟩
  · rw [← Program.run_encodedBy, own]
    rfl
  · rw [← Program.run_encodedBy]
    rfl
  · intro pieces _ position leading text _
    exact Text.Xml.harmless_encode text

/-- A note in bold type. -/
def noteSource : Source := ⟨"<b></b>", [⟨3, "d.note"⟩]⟩

def notePayload : Value := .object [("note", .string "1 < 2")]

/-- The note is encoded, and the markup around it is not. -/
theorem encoding_changes_values_only_note :
    ∃ plain marked, Template.compile noteSource ⟨.permissive, .none⟩ = .ok plain ∧
      Template.compile noteSource ⟨.permissive, .xml⟩ = .ok marked ∧
      marked.program.code = plain.program.code ∧
      plain.fragments notePayload .empty = .ok [⟨[1], "<b>1 < 2"⟩, ⟨[2], "</b>"⟩] ∧
      marked.fragments notePayload .empty = .ok [⟨[1], "<b>1 &lt; 2"⟩, ⟨[2], "</b>"⟩] ∧
      Harmless (Program.encode .xml "1 < 2").toList := by
  have shown : ((Template.compile noteSource ⟨.permissive, .none⟩).toOption.bind fun template =>
      (template.program.trace notePayload .empty).toOption) =
        some [.value [1] "<b>" "1 < 2", .literal [2] "</b>"] := by decide +kernel
  rcases Option.bind_eq_some_iff.mp shown with ⟨plain, compiled, traced⟩
  have plainly := eq_ok_of_toOption compiled
  have traced := eq_ok_of_toOption traced
  rcases encoding_changes_values_only noteSource .permissive with ⟨compiles, differ⟩
  rw [plainly] at compiles
  rcases differ plain _ plainly compiles with ⟨code, -, runs⟩
  rcases runs notePayload .empty with ⟨plainRun, markedRun, harmless⟩
  rw [traced] at plainRun markedRun
  exact ⟨plain, _, plainly, compiles, code, plainRun, markedRun,
    harmless _ traced [1] "<b>" "1 < 2" (.head _)⟩

end Stencil
