import Stencil.Proofs.Meaning.Distinct
import Stencil.Proofs.Program.Document

namespace Stencil

open Meaning (Bindings Rendering)
open Outline (PlainMarkers)

/-!
# The order in which a run emits makes no difference

No two fragments of one run stand at one position.  So the document is determined by
the fragments as a set: whoever collects them may mix them as they like before they are
put in order.
-/

/-- Fragments of which no two stand at one position, and that make up one document in
whatever order they are given. -/
structure Fragment.Arrangeable (fragments : List Fragment) : Prop where
  positions : (fragments.map Fragment.position).Nodup
  document : ∀ others : List Fragment, others.Perm fragments →
    documentText others = documentText fragments

theorem Fragment.Distinct.arrangeable {fragments : List Fragment}
    (distinct : Fragment.Distinct fragments) : Fragment.Arrangeable fragments where
  positions := Fragment.nodup_positions_iff.mpr distinct
  document _ perm := Fragment.documentText_eq_of_perm distinct perm

variable {outline : Outline} {markers : List Marker} {settings : Settings} {data : Value}
  {registry : Registry} {fragments : List Fragment}

/-- An outline of plain markers emits fragments at distinct positions. -/
theorem distinct_of_ofMarkers {policy : Unterminated}
    (outlined : Outline.ofMarkers markers policy = .ok outline) (plain : PlainMarkers markers)
    {layout : Layout} (hosted : Program.Hosted outline layout) (registry : Registry)
    (escape : Escape) (unbound : Bindings) (data : Value) :
    Fragment.Distinct
      ((Rendering.mk outline layout registry escape).fragments unbound data) := by
  have coherent := Outline.coherent_of_ofMarkers outlined
  have pointed := Outline.pointed_of_ofMarkers outlined plain
  rcases Outline.ofMarkers_eq_ok outlined with ⟨growth, grown, rfl⟩
  exact Rendering.distinct_fragments coherent (Outline.registered_of_growth grown) pointed
    (Layout.orderly_of_growth plain.ordered grown) hosted unbound data

theorem Template.arrangeable_fragments {source : Source} {template : Template}
    (compiled : compile source settings = .ok template) (plain : PlainMarkers source.markers)
    (run : template.fragments data registry = .ok fragments) :
    Fragment.Arrangeable fragments := by
  rcases compile_eq_ok compiled with ⟨outlined, laidOut, -⟩
  have coherent := Outline.coherent_of_ofMarkers outlined
  rw [fragments_eq compiled (Program.check_of_run run) (fun _ => none) data] at run
  cases run
  exact (distinct_of_ofMarkers outlined plain (Program.hosted_of_ofText coherent laidOut)
    registry settings.escape _ data).arrangeable

theorem arrangeable_of_compileMarkers {before after : String} {program : Program}
    (compiled : compileMarkers markers before after settings = .ok program)
    (plain : PlainMarkers markers) (run : program.run data registry = .ok fragments) :
    Fragment.Arrangeable fragments := by
  rcases compileMarkers_eq_ok compiled with ⟨outline, outlined, programmed⟩
  have coherent := Outline.coherent_of_ofMarkers outlined
  rw [run_surrounded_eq outlined programmed (Program.check_of_run run) (fun _ => none) data]
    at run
  cases run
  exact (distinct_of_ofMarkers outlined plain
    (Program.hosted_surrounding coherent before after) registry settings.escape _ data).arrangeable

/-- The fragments of a run stand at distinct positions, so they can be put together in
whatever order they come. -/
theorem order_of_emission_is_forgotten :
    (∀ source settings template, Template.compile source settings = .ok template →
      PlainMarkers source.markers → ∀ data registry fragments,
        template.fragments data registry = .ok fragments → Fragment.Arrangeable fragments) ∧
    ∀ markers before after settings program,
      compileMarkers markers before after settings = .ok program → PlainMarkers markers →
      ∀ data registry fragments, program.run data registry = .ok fragments →
        Fragment.Arrangeable fragments := by
  constructor
  · intro source settings template compiled plain data registry fragments run
    exact Template.arrangeable_fragments compiled plain run
  · intro markers before after settings program compiled plain data registry fragments run
    exact arrangeable_of_compileMarkers compiled plain run

/-- The garage from back to front. -/
theorem order_of_emission_is_forgotten_garage :
    PlainMarkers garageSource.markers ∧
      (∃ template fragments, Template.compile garageSource {} = .ok template ∧
        template.fragments garagePayload .empty = .ok fragments ∧
        Fragment.documentText fragments.reverse = "me: a; b") ∧
      ∃ program fragments, compileMarkers garageSource.markers "<" ">" {} = .ok program ∧
        program.run garagePayload .empty = .ok fragments ∧
        Fragment.documentText fragments.reverse = "<meab>" := by
  have plain : PlainMarkers garageSource.markers := by decide +kernel
  refine ⟨plain, ?_, ?_⟩
  · rcases exists_of_isOk (by decide +kernel :
      (Template.compile garageSource {} >>= fun template =>
        template.fragments garagePayload .empty).isOk = true) with ⟨fragments, made⟩
    rcases bind_eq_ok.mp made with ⟨template, compiled, run⟩
    have shown : ((Template.compile garageSource {} >>= fun template =>
        template.fragments garagePayload .empty).toOption.map Fragment.documentText) =
          some "me: a; b" := by decide +kernel
    rw [made] at shown
    refine ⟨template, fragments, compiled, run, ?_⟩
    rw [(order_of_emission_is_forgotten.1 garageSource {} template compiled plain garagePayload
      .empty fragments run).document _ (List.reverse_perm fragments)]
    exact Option.some.inj shown
  · rcases exists_of_isOk (by decide +kernel :
      (compileMarkers garageSource.markers "<" ">" {} >>= fun program =>
        program.run garagePayload .empty).isOk = true) with ⟨fragments, made⟩
    rcases bind_eq_ok.mp made with ⟨program, compiled, run⟩
    have shown : ((compileMarkers garageSource.markers "<" ">" {} >>= fun program =>
        program.run garagePayload .empty).toOption.map Fragment.documentText) =
          some "<meab>" := by decide +kernel
    rw [made] at shown
    refine ⟨program, fragments, compiled, run, ?_⟩
    rw [(order_of_emission_is_forgotten.2 garageSource.markers "<" ">" {} program compiled plain
      garagePayload .empty fragments run).document _ (List.reverse_perm fragments)]
    exact Option.some.inj shown

end Stencil
