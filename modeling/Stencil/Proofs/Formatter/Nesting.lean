import Mathlib.Data.List.Forall2
import Stencil.Formatter.Builtin
import Stencil.Proofs.Formatter.Chain

namespace Stencil.Formatter

/-!
# A chain is the nested application that it shows

The text of a chain is an application of formatters to each other's results, and such a
term has a value of its own: that of a formatter at the value of its first argument and at
the values of the further ones.  The chain goes through its calls three times, twice when
it is written and once when it is applied, and each time it comes to the same term.
-/

/-! ## Terms -/

/-- Formatters applied to a base and to each other's results. -/
inductive Term where
  | base (path : String)
  /-- A formatter applied to a first argument and further ones. -/
  | application (name : String) (inner : Term) (arguments : List Argument)

namespace Term

/-- A term as it is written: the arguments between parentheses, with commas between them. -/
def text : Term → String
  | base path => path
  | application name inner arguments =>
    name ++ "(" ++ String.intercalate ", " (inner.text :: arguments.map Argument.text) ++ ")"

/-- A further argument has a value: its own, or that of the field it names, which is null
if there is no such field. -/
inductive Given (lookup : Nat → String → Option Value) : Argument → Value → Prop
  | literal (value : Value) : Given lookup (.literal value) value
  | field {up : Nat} {name : String} {value : Value} (found : lookup up name = some value) :
      Given lookup (.field up name) value
  | absent {up : Nat} {name : String} (missing : lookup up name = none) :
      Given lookup (.field up name) .null

/-- A term has a value, where its base stands for a given one. -/
inductive Yields (registry : Registry) (lookup : Nat → String → Option Value) (value : Value) :
    Term → Value → Prop
  | base (path : String) : Yields registry lookup value (.base path) value
  | application {name : String} {inner : Term} {arguments : List Argument}
      {function : Function} {first : Value} {further : List Value}
      (yields : Yields registry lookup value inner first)
      (found : registry.find? name = some function)
      (given : List.Forall₂ (Given lookup) arguments further) :
      Yields registry lookup value (.application name inner arguments) (function first further)

variable {lookup : Nat → String → Option Value}

theorem given_iff {argument : Argument} {value : Value} :
    Given lookup argument value ↔ value = Chain.argumentValue lookup argument := by
  constructor
  · intro given
    cases given with
    | literal => rfl
    | field found => simp [Chain.argumentValue, found]
    | absent missing => simp [Chain.argumentValue, missing]
  · rintro rfl
    cases argument with
    | literal value => exact .literal value
    | field up name =>
      cases found : lookup up name with
      | some value =>
        rw [Chain.argumentValue, found]
        exact .field found
      | none =>
        rw [Chain.argumentValue, found]
        exact .absent found

theorem forall₂_given_iff {arguments : List Argument} {values : List Value} :
    List.Forall₂ (Given lookup) arguments values ↔
      values = arguments.map (Chain.argumentValue lookup) := by
  induction arguments generalizing values with
  | nil => simp
  | cons argument rest ih =>
    cases values with
    | nil => simp
    | cons value further => simp [given_iff, ih]

end Term

namespace Chain

variable {registry : Registry} {lookup : Nat → String → Option Value} {value result : Value}

/-! ## The term of a chain -/

/-- The calls of a chain, each applied to what the calls before it make of the base. -/
def term (chain : Chain) : Term :=
  chain.calls.foldl (fun inner call => .application call.name inner call.arguments)
    (.base chain.base)

/-- The chain with one call more. -/
def append (chain : Chain) (call : Call) : Chain := { chain with calls := chain.calls ++ [call] }

theorem term_append (chain : Chain) (call : Call) :
    (chain.append call).term = .application call.name chain.term call.arguments :=
  List.foldl_concat _ _ _ _

theorem foldl_addArgument (made : String) (arguments : List Argument) :
    arguments.foldl addArgument made =
      String.intercalate ", " (made :: arguments.map Argument.text) := by
  induction arguments generalizing made with
  | nil => exact String.intercalate_singleton.symm
  | cons argument rest ih =>
    rw [List.foldl_cons, List.map_cons, String.intercalate_cons_cons, addArgument,
      foldl_addArgument_append, ih]

theorem wrap_text (inner : Term) (call : Call) :
    wrap inner.text call = (Term.application call.name inner call.arguments).text := by
  have written := foldl_addArgument_append inner.text "" call.arguments
  rw [String.append_empty, foldl_addArgument] at written
  rw [wrap, Term.text, written]
  simp only [String.append_assoc]

/-- What is written is the term. -/
theorem text_eq (chain : Chain) : chain.text = chain.term.text := by
  rw [text_eq_foldl_wrap]
  rcases chain with ⟨base, calls⟩
  induction calls using List.reverseRecOn with
  | nil => rfl
  | append_singleton calls call ih =>
    change (calls ++ [call]).foldl wrap base = ((Chain.mk base calls).append call).term.text
    rw [List.foldl_concat, ih, term_append, wrap_text]

/-- One call applies its formatter to a first argument and the values of the further ones. -/
theorem applyCall_eq_ok {chain : Chain} {call : Call} :
    chain.applyCall registry lookup value call = .ok result ↔
      ∃ function, registry.find? call.name = some function ∧
        function value (call.arguments.map (argumentValue lookup)) = result := by
  unfold applyCall
  cases registry.find? call.name with
  | none => simp
  | some function => simp

/-- What comes of the calls is what the term yields. -/
theorem apply_eq_ok_iff {chain : Chain} :
    chain.apply registry lookup value = .ok result ↔
      chain.term.Yields registry lookup value result := by
  rcases chain with ⟨base, calls⟩
  induction calls using List.reverseRecOn generalizing result with
  | nil =>
    constructor
    · intro same
      cases same
      exact .base base
    · intro yields
      cases yields
      rfl
  | append_singleton calls call ih =>
    change (calls ++ [call]).foldlM ((Chain.mk base calls).applyCall registry lookup) value = _ ↔
      ((Chain.mk base calls).append call).term.Yields registry lookup value result
    rw [term_append, foldlM_concat_eq_ok]
    constructor
    · rintro ⟨first, before, last⟩
      rcases applyCall_eq_ok.mp last with ⟨function, found, rfl⟩
      exact .application (ih.mp before) found (Term.forall₂_given_iff.mpr rfl)
    · intro yields
      cases yields with
      | application yields found given =>
        cases Term.forall₂_given_iff.mp given
        exact ⟨_, ih.mpr yields, applyCall_eq_ok.mpr ⟨_, found, rfl⟩⟩

/-- A chain of known formatters shows a term, and the value it comes to is the only one that
this term yields.  One call more stands around the text and is applied to the value. -/
theorem printed_term_is_evaluated {chain : Chain} {registry : Registry}
    (known : ∀ call ∈ chain.calls, registry.contains call.name = true)
    (lookup : Nat → String → Option Value) (value : Value) :
    chain.text = chain.term.text ∧
      ∃ result, chain.apply registry lookup value = .ok result ∧
        (∀ other, chain.term.Yields registry lookup value other ↔ other = result) ∧
        ∀ (call : Call) (function : Function), registry.find? call.name = some function →
          (chain.append call).text = call.name ++ "(" ++
            String.intercalate ", " (chain.text :: call.arguments.map Argument.text) ++ ")" ∧
          ∃ further, List.Forall₂ (Term.Given lookup) call.arguments further ∧
            (chain.append call).apply registry lookup value = .ok (function result further) := by
  have applied : chain.apply registry lookup value =
      .ok (Meaning.format registry lookup chain.calls value) :=
    apply_of_check (check_eq_ok_iff.mpr known) value
  refine ⟨chain.text_eq, _, applied, ?_, ?_⟩
  · intro other
    rw [← apply_eq_ok_iff, applied, Except.ok.injEq, eq_comm]
  · intro call function found
    refine ⟨?_, _, Term.forall₂_given_iff.mpr rfl, ?_⟩
    · rw [text_eq, term_append, text_eq, Term.text]
    · rw [apply_eq_ok_iff, term_append]
      exact .application (apply_eq_ok_iff.mp applied) found (Term.forall₂_given_iff.mpr rfl)

/-- Tags in one line, or what an enclosing scope says where there are none. -/
def tagChain : Chain :=
  ⟨"d.tags", [⟨"arrayJoin", [.literal (.string " | ")]⟩, ⟨"ifEmpty", [.field 1 "none"]⟩]⟩

/-- The only field there is. -/
def noneField (up : Nat) (name : String) : Option Value :=
  if up = 1 ∧ name = "none" then some (.string "no tags") else none

theorem printed_term_is_evaluated_tags :
    (∀ call ∈ tagChain.calls, Registry.standard.contains call.name = true) ∧
      tagChain.text = "ifEmpty(arrayJoin(d.tags, ' | '), ..none)" ∧
      tagChain.text = tagChain.term.text ∧
      ∃ result, tagChain.apply Registry.standard noneField (.array []) = .ok result ∧
        result.text = "no tags" ∧
        ∀ other, tagChain.term.Yields Registry.standard noneField (.array []) other ↔
          other = result := by
  have known : ∀ call ∈ tagChain.calls, Registry.standard.contains call.name = true := by
    decide +kernel
  have shown : (tagChain.apply Registry.standard noneField (.array [])).toOption.map Value.text =
      some "no tags" := by decide +kernel
  rcases printed_term_is_evaluated known noneField (.array []) with ⟨same, result, applied, only, -⟩
  refine ⟨known, by decide +kernel, same, result, applied, ?_, only⟩
  rw [applied] at shown
  exact Option.some.inj shown

end Chain

end Stencil.Formatter
