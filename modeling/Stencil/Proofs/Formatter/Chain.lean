import Mathlib.Data.List.Induction
import Stencil.Proofs.Fallible
import Stencil.Proofs.Meaning.Nested

namespace Stencil.Formatter.Chain

/-!
# A chain fails by a formatter that does not exist

A chain is checked without a value and applied to one.  Both go through the calls from
the innermost to the outermost, and both stop at the first formatter that does not
exist, whatever the value and the fields of other scopes are.
-/

variable {chain : Chain} {registry : Registry} {lookup : Nat → String → Option Value}
  {error : Error}

/-! ## The text of a chain -/

/-- Further arguments are written behind what there is. -/
theorem foldl_addArgument_append (front made : String) (arguments : List Argument) :
    arguments.foldl addArgument (front ++ made) = front ++ arguments.foldl addArgument made :=
  List.foldl_hom (front ++ ·) fun made argument => by simp only [addArgument, String.append_assoc]

theorem foldl_openCall_append (front made : String) (calls : List Call) :
    calls.foldl openCall (front ++ made) = front ++ calls.foldl openCall made :=
  List.foldl_hom (front ++ ·) fun made call => by simp only [openCall, String.append_assoc]

theorem foldl_closeCall_append (front made : String) (calls : List Call) :
    calls.foldl closeCall (front ++ made) = front ++ calls.foldl closeCall made :=
  List.foldl_hom (front ++ ·) fun made call => by
    simp only [closeCall, foldl_addArgument_append, String.append_assoc]

theorem closeCall_openCall (inner : String) (call : Call) :
    closeCall (openCall "" call ++ inner) call = wrap inner call := by
  have written := foldl_addArgument_append (openCall "" call ++ inner) "" call.arguments
  rw [String.append_empty] at written
  rw [closeCall, written, wrap, openCall, String.empty_append]

/-- The names and the arguments, written in two passes, come to stand around what the calls
before them have made. -/
theorem text_eq_foldl_wrap (chain : Chain) : chain.text = chain.calls.foldl wrap chain.base := by
  rcases chain with ⟨base, calls⟩
  induction calls using List.reverseRecOn with
  | nil => exact String.empty_append
  | append_singleton calls call ih =>
    have names : (calls ++ [call]).reverse.foldl openCall "" =
        openCall "" call ++ calls.reverse.foldl openCall "" := by
      rw [List.reverse_concat, List.foldl_cons, ← foldl_openCall_append, String.append_empty]
    change List.foldl closeCall ((calls ++ [call]).reverse.foldl openCall "" ++ base)
      (calls ++ [call]) = _
    rw [List.foldl_concat, List.foldl_concat, names, String.append_assoc, foldl_closeCall_append,
      closeCall_openCall]
    exact congrArg (wrap · call) ih

/-! ## Failure -/

/-- The first call of a formatter that does not exist. -/
structure FirstMissing (chain : Chain) (registry : Registry) (call : Call) : Prop where
  listed : ∃ front back, chain.calls = front ++ call :: back ∧
    ∀ other ∈ front, registry.contains other.name = true
  unknown : registry.contains call.name = false

theorem check_eq_ok_iff :
    chain.check registry = .ok () ↔ ∀ call ∈ chain.calls, registry.contains call.name = true := by
  unfold check
  cases found : chain.calls.find? fun call => !registry.contains call.name with
  | some call =>
    have missing := List.find?_some found
    have listed := List.mem_of_find?_eq_some found
    constructor
    · intro impossible
      cases impossible
    · intro all
      simp [all call listed] at missing
  | none =>
    have all := List.find?_eq_none.mp found
    exact ⟨fun _ call listed => by simpa using all call listed, fun _ => rfl⟩

theorem check_eq_error_iff : chain.check registry = .error error ↔
    ∃ call, chain.FirstMissing registry call ∧ error = chain.missing registry call := by
  unfold check
  constructor
  · intro fails
    split at fails
    · next call found =>
      cases fails
      rcases List.find?_eq_some_iff_append.mp found with ⟨unknown, front, back, split, known⟩
      refine ⟨call, ⟨⟨front, back, split, fun other member => ?_⟩, by simpa using unknown⟩, rfl⟩
      simpa using known other member
    · cases fails
  · rintro ⟨call, ⟨⟨front, back, split, known⟩, unknown⟩, rfl⟩
    have found : chain.calls.find? (fun call => !registry.contains call.name) = some call := by
      apply List.find?_eq_some_iff_append.mpr
      refine ⟨by simp [unknown], front, back, split, fun other member => ?_⟩
      simp [known other member]
    rw [found]

/-- Calls of formatters that exist are applied one by one. -/
theorem foldlM_applyCall {calls : List Call}
    (known : ∀ call ∈ calls, registry.contains call.name = true) :
    ∀ value, calls.foldlM (chain.applyCall registry lookup) value =
      .ok (Meaning.format registry lookup calls value) := by
  induction calls with
  | nil =>
    intro value
    rfl
  | cons call more ih =>
    intro value
    rcases Option.isSome_iff_exists.mp (known call (.head _)) with ⟨function, found⟩
    rw [List.foldlM_cons, applyCall, found, Meaning.format, List.foldl_cons, found]
    exact ih (fun other member => known other (.tail _ member)) _

theorem apply_of_check (checked : chain.check registry = .ok ()) (value : Value) :
    chain.apply registry lookup value =
      .ok (Meaning.format registry lookup chain.calls value) :=
  foldlM_applyCall (check_eq_ok_iff.mp checked) value

theorem apply_of_firstMissing {call : Call} (first : chain.FirstMissing registry call)
    (value : Value) :
    chain.apply registry lookup value = .error (chain.missing registry call) := by
  rcases first with ⟨⟨front, back, split, known⟩, unknown⟩
  have absent : registry.find? call.name = none := by
    simpa [Registry.contains] using unknown
  unfold apply
  rw [split, List.foldlM_append, foldlM_applyCall known]
  change List.foldlM (chain.applyCall registry lookup) _ (call :: back) = _
  rw [List.foldlM_cons, applyCall, absent]
  rfl

/-- A chain fails on a value just as it fails without one. -/
theorem apply_eq_error_iff {value : Value} :
    chain.apply registry lookup value = .error error ↔ chain.check registry = .error error := by
  cases checked : chain.check registry with
  | ok =>
    rw [apply_of_check checked]
    constructor
    · intro impossible
      cases impossible
    · intro impossible
      cases impossible
  | error fault =>
    rcases check_eq_error_iff.mp checked with ⟨call, first, rfl⟩
    rw [apply_of_firstMissing first, Except.error.injEq, Except.error.injEq]

end Stencil.Formatter.Chain
