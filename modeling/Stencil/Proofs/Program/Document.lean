import Stencil.Proofs.Meaning.Assembly
import Stencil.Proofs.Program.Refinement

namespace Stencil

open Meaning (Bindings Rendering)
open Outline (PlainMarkers)

/-!
# Ordering what a run emits gives the document

A run emits bindings, loops and values in an order of its own.  Put in the order of
their positions, the fragments are the document item by item: for every document,
every payload and every registry with which the run succeeds.
-/

/-- A run that succeeds has found all its formatters. -/
theorem Program.check_of_run {program : Program} {data : Value} {registry : Registry}
    {fragments : List Fragment} (run : program.run data registry = .ok fragments) :
    program.check registry = .ok () := by
  unfold Program.run at run
  cases checked : program.check registry with
  | error error =>
    rw [checked] at run
    cases run
  | ok value => rfl

/-- What an outline of plain markers emits is in order the document. -/
theorem documentText_eq_expansion {outline : Outline} {markers : List Marker}
    {policy : Unterminated} (outlined : Outline.ofMarkers markers policy = .ok outline)
    (plain : PlainMarkers markers) (layout : Layout) (registry : Registry) (escape : Escape)
    (unbound : Bindings) (data : Value) :
    Fragment.documentText
        ((Rendering.mk outline layout registry escape).fragments unbound data) =
      (Rendering.mk outline layout registry escape).expansion unbound data :=
  Rendering.documentText_fragments (Outline.coherent_of_ofMarkers outlined).rooted
    (Outline.pointed_of_ofMarkers outlined plain) unbound data

/-- What a template renders is its document. -/
theorem Template.documentText_fragments {source : Source} {settings : Settings}
    {template : Template} (compiled : compile source settings = .ok template)
    (plain : PlainMarkers source.markers) {data : Value} {registry : Registry}
    {fragments : List Fragment} (run : template.fragments data registry = .ok fragments)
    (unbound : Bindings) :
    Fragment.documentText fragments =
      (Rendering.mk template.outline template.layout registry settings.escape).expansion
        unbound data := by
  rw [Template.fragments_eq compiled (Program.check_of_run run) unbound data] at run
  cases run
  exact documentText_eq_expansion (Template.compile_eq_ok compiled).1 plain _ _ _ _ _

/-- The fragments of a rendering in the order of their positions are the document,
and so are those of markers with text around them only. -/
theorem ordered_fragments_are_document :
    (∀ (source : Source) (settings : Settings) (template : Template),
      Template.compile source settings = .ok template → PlainMarkers source.markers →
      ∀ (data : Value) (registry : Registry) (fragments : List Fragment),
        template.fragments data registry = .ok fragments → ∀ unbound : Bindings,
          Fragment.documentText fragments =
            (Rendering.mk template.outline template.layout registry
              settings.escape).expansion unbound data) ∧
      ∀ (markers : List Marker) (before after : String) (settings : Settings)
        (program : Program), compileMarkers markers before after settings = .ok program →
        PlainMarkers markers →
        ∃ outline, Outline.ofMarkers markers settings.unterminated = .ok outline ∧
          ∀ (data : Value) (registry : Registry) (fragments : List Fragment),
            program.run data registry = .ok fragments → ∀ unbound : Bindings,
              Fragment.documentText fragments =
                (Rendering.mk outline (Layout.surrounding before after) registry
                  settings.escape).expansion unbound data := by
  constructor
  · intro source settings template compiled plain data registry fragments run unbound
    exact Template.documentText_fragments compiled plain run unbound
  · intro markers before after settings program compiled plain
    obtain ⟨outline, outlined, programmed⟩ := compileMarkers_eq_ok compiled
    refine ⟨outline, outlined, fun data registry fragments run unbound => ?_⟩
    rw [run_surrounded_eq outlined programmed (Program.check_of_run run) unbound data] at run
    cases run
    exact documentText_eq_expansion outlined plain _ _ _ _ _

/-- An owner and the names of some cars, which are repeated before the owner is
inserted. -/
def garageSource : Source :=
  ⟨": ; ", [⟨0, "d.owner"⟩, ⟨2, "d.cars[i,name!='c'].name"⟩, ⟨4, "d.cars[i+1]"⟩]⟩

def garagePayload : Value :=
  .object [("owner", .string "me"), ("cars", .array [.object [("name", .string "a")],
    .object [("name", .string "c")], .object [("name", .string "b")]])]

/-- With a document and without one. -/
theorem ordered_fragments_are_document_garage :
    PlainMarkers garageSource.markers ∧
      (∃ template fragments, Template.compile garageSource {} = .ok template ∧
        template.fragments garagePayload .empty = .ok fragments ∧
        Fragment.documentText fragments = "me: a; b") ∧
      ∃ program fragments, compileMarkers garageSource.markers "<" ">" {} = .ok program ∧
        program.run garagePayload .empty = .ok fragments ∧
        Fragment.documentText fragments = "<meab>" := by
  have plain : PlainMarkers garageSource.markers := by decide +kernel
  refine ⟨plain, ?_, ?_⟩
  · obtain ⟨fragments, made⟩ := exists_of_isOk (by decide +kernel :
      (Template.compile garageSource {} >>= fun template =>
        template.fragments garagePayload .empty).isOk = true)
    obtain ⟨template, compiled, run⟩ := bind_eq_ok.mp made
    have shown : ((Template.compile garageSource {}).toOption.map fun template =>
        (Rendering.mk template.outline template.layout .empty .none).expansion
          (fun _ => none) garagePayload) = some "me: a; b" := by decide +kernel
    rw [compiled] at shown
    refine ⟨template, fragments, compiled, run, ?_⟩
    rw [ordered_fragments_are_document.1 garageSource {} template compiled plain garagePayload
      .empty fragments run fun _ => none]
    exact Option.some.inj shown
  · obtain ⟨fragments, made⟩ := exists_of_isOk (by decide +kernel :
      (compileMarkers garageSource.markers "<" ">" {} >>= fun program =>
        program.run garagePayload .empty).isOk = true)
    obtain ⟨program, compiled, run⟩ := bind_eq_ok.mp made
    obtain ⟨outline, outlined, same⟩ :=
      ordered_fragments_are_document.2 garageSource.markers "<" ">" {} program compiled plain
    have shown : ((Outline.ofMarkers garageSource.markers .permissive).toOption.map fun outline =>
        (Rendering.mk outline (Layout.surrounding "<" ">") .empty .none).expansion
          (fun _ => none) garagePayload) = some "<meab>" := by decide +kernel
    rw [outlined] at shown
    refine ⟨program, fragments, compiled, run, ?_⟩
    rw [same garagePayload .empty fragments run fun _ => none]
    exact Option.some.inj shown

end Stencil
