import Stencil.Proofs.Program.Refinement

namespace Stencil

/-!
# What a rendering fails by

A run checks all formatters before it begins, and what begins comes to an end: no other
fault can arise in a program that was compiled from markers.  So whether a payload is
rendered does not depend on the payload, not even on whether it reaches the value whose
formatter does not exist.
-/

namespace Program

variable {program : Program} {registry : Registry} {error : Error}

/-- The first value, in the order of the document, with a call of a formatter that does
not exist, and its first such call. -/
structure FirstMissing (program : Program) (registry : Registry) (insertion : Insertion)
    (call : Formatter.Call) : Prop where
  listed : ∃ front back, program.insertions.toList = front ++ insertion :: back ∧
    ∀ other ∈ front, other.chain.check registry = .ok ()
  first : insertion.chain.FirstMissing registry call

/-- The check of a program reports the first formatter that does not exist. -/
theorem check_eq_error_iff : program.check registry = .error error ↔
    ∃ insertion call, program.FirstMissing registry insertion call ∧
      error = .missingFormatter call.name insertion.chain.base
        (registry.suggest? call.name) := by
  unfold check
  rw [forM_eq_error]
  constructor
  · rintro ⟨front, insertion, back, split, others, fails⟩
    rcases Formatter.Chain.check_eq_error_iff.mp fails with ⟨call, first, same⟩
    exact ⟨insertion, call, ⟨⟨front, back, split, others⟩, first⟩, same⟩
  · rintro ⟨insertion, call, ⟨⟨front, back, split, others⟩, first⟩, same⟩
    exact ⟨front, insertion, back, split, others,
      Formatter.Chain.check_eq_error_iff.mpr ⟨call, first, same⟩⟩

/-- A program that fails by formatters only, and whatever the payload is. -/
structure Dependable (program : Program) : Prop where
  fails : ∀ data registry error,
    program.run data registry = .error error ↔ program.check registry = .error error
  reports : ∀ registry error, program.check registry = .error error ↔
    ∃ insertion call, program.FirstMissing registry insertion call ∧
      error = .missingFormatter call.name insertion.chain.base (registry.suggest? call.name)

/-- A program is dependable if nothing else can go wrong in a run. -/
theorem dependable_of_run (runs : ∀ data registry, program.check registry = .ok () →
    ∃ fragments, program.run data registry = .ok fragments) : program.Dependable where
  fails data registry error := by
    cases checked : program.check registry with
    | ok =>
      rcases runs data registry checked with ⟨fragments, run⟩
      rw [run]
      constructor
      · intro impossible
        cases impossible
      · intro impossible
        cases impossible
    | error fault =>
      unfold run
      rw [checked, Except.error.injEq, Except.error.injEq]
  reports registry error := check_eq_error_iff

end Program

theorem Template.dependable_of_compile {source : Source} {settings : Settings}
    {template : Template} (compiled : compile source settings = .ok template) :
    template.program.Dependable :=
  Program.dependable_of_run fun data _ checked =>
    ⟨_, fragments_eq compiled checked (fun _ => none) data⟩

theorem dependable_of_compileMarkers {markers : List Marker} {before after : String}
    {settings : Settings} {program : Program}
    (compiled : compileMarkers markers before after settings = .ok program) :
    program.Dependable := by
  rcases compileMarkers_eq_ok compiled with ⟨outline, outlined, programmed⟩
  exact Program.dependable_of_run fun data _ checked =>
    ⟨_, run_surrounded_eq outlined programmed checked (fun _ => none) data⟩

/-- What `compileChecked` accepts was compiled and checked. -/
theorem Template.compileChecked_eq_ok {source : Source} {settings : Settings}
    {registry : Registry} {template : Template}
    (accepted : compileChecked source settings registry = .ok template) :
    compile source settings = .ok template ∧ template.program.check registry = .ok () := by
  unfold compileChecked at accepted
  rcases bind_eq_ok.mp accepted with ⟨made, compiled, accepted⟩
  rcases bind_eq_ok.mp accepted with ⟨⟨⟩, checked, same⟩
  cases same
  exact ⟨compiled, checked⟩

/-- Rendering fails by the first formatter that does not exist, on every payload or on
none, and so does a chain on every value and with all fields that can be looked up. -/
theorem failure_is_missing_formatter :
    (∀ source settings template, Template.compile source settings = .ok template →
      template.program.Dependable) ∧
    (∀ markers before after settings program,
      compileMarkers markers before after settings = .ok program → program.Dependable) ∧
    (∀ source settings registry template,
      Template.compileChecked source settings registry = .ok template →
      ∀ data, ∃ text, template.render data registry = .ok text) ∧
    ∀ (chain : Formatter.Chain) registry error,
      (∀ lookup value, chain.apply registry lookup value = .error error ↔
        chain.check registry = .error error) ∧
      (chain.check registry = .error error ↔ ∃ call, chain.FirstMissing registry call ∧
        error = .missingFormatter call.name chain.base (registry.suggest? call.name)) := by
  refine ⟨?_, ?_, ?_, ?_⟩
  · intro source settings template compiled
    exact Template.dependable_of_compile compiled
  · intro markers before after settings program compiled
    exact dependable_of_compileMarkers compiled
  · intro source settings registry template accepted data
    rcases Template.compileChecked_eq_ok accepted with ⟨compiled, checked⟩
    have run := Template.fragments_eq compiled checked (fun _ => none) data
    exact ⟨_, map_eq_ok.mpr ⟨_, run, rfl⟩⟩
  · intro chain registry error
    exact ⟨fun lookup value => Formatter.Chain.apply_eq_error_iff,
      Formatter.Chain.check_eq_error_iff⟩

/-- The names of the singers of a choir, each through a formatter. -/
def choirSource : Source := ⟨"", [⟨0, "d.singers[s].name:shout"⟩, ⟨0, "d.singers[s+1]"⟩]⟩

/-- A registry with that formatter. -/
def choirRegistry : Registry := Registry.empty.register "shout" fun value _ => value

/-- Whether there are singers or not. -/
theorem failure_is_missing_formatter_choir :
    (∃ template, Template.compile choirSource {} = .ok template ∧
      ∀ data, template.program.run data .empty =
        .error (.missingFormatter "shout" "d.singers[s].name" none)) ∧
    (∃ template, Template.compileChecked choirSource {} choirRegistry = .ok template ∧
      ∀ data, ∃ text, template.render data choirRegistry = .ok text) ∧
    ∃ program, compileMarkers choirSource.markers "" "" {} = .ok program ∧
      ∀ data, program.run data .empty =
        .error (.missingFormatter "shout" "d.singers[s].name" none) := by
  refine ⟨?_, ?_, ?_⟩
  · rcases exists_of_isOk (by decide +kernel :
      (Template.compile choirSource {}).isOk = true) with ⟨template, compiled⟩
    have refused : (Template.compile choirSource {} >>= fun template =>
        template.program.check .empty) =
          .error (.missingFormatter "shout" "d.singers[s].name" none) := by decide +kernel
    rw [compiled] at refused
    have dependable := failure_is_missing_formatter.1 choirSource {} template compiled
    exact ⟨template, compiled, fun data => (dependable.fails data _ _).mpr refused⟩
  · rcases exists_of_isOk (by decide +kernel :
      (Template.compileChecked choirSource {} choirRegistry).isOk = true) with
      ⟨template, accepted⟩
    exact ⟨template, accepted,
      failure_is_missing_formatter.2.2.1 choirSource {} choirRegistry template accepted⟩
  · rcases exists_of_isOk (by decide +kernel :
      (compileMarkers choirSource.markers "" "" {}).isOk = true) with ⟨program, compiled⟩
    have refused : (compileMarkers choirSource.markers "" "" {} >>= fun program =>
        program.check .empty) =
          .error (.missingFormatter "shout" "d.singers[s].name" none) := by decide +kernel
    rw [compiled] at refused
    have dependable := failure_is_missing_formatter.2.1 choirSource.markers "" "" {} program
      compiled
    exact ⟨program, compiled, fun data => (dependable.fails data _ _).mpr refused⟩

end Stencil
