import Stencil.Formatter.Builtin
import Stencil.Proofs.Meaning.Levels
import Stencil.Proofs.Program.Visible
import Stencil.Template

namespace Stencil

open Meaning (Bindings Rendering)
open Outline (Coherent Orders)
open Program (CompiledFrom)

/-!
# Running a template means what the template means

The machine has one table that is never cleared, jumps in both directions and a
position that grows and shrinks.  The meaning of a template has none of these:
bodies are nested, and bindings are dropped behind a row.  Still both emit the
same fragments in the same order, on every payload, for every document and for
markers without one.  The bindings may hold anything at all for scopes that are
not bound, so nothing is ever read that was left over in the table.
-/

/-- A program compiled from a coherent outline with hosts that see their slots emits what
its block does, in whatever order it was compiled. -/
theorem Program.CompiledFrom.run_block {program : Program} {outline : Outline}
    {order : List ScopeId} {layout : Layout} {escape : Escape}
    (compiled : CompiledFrom program outline order layout escape) (orders : Orders outline order)
    (coherent : Coherent outline) (hosted : Program.Hosted outline layout) {registry : Registry}
    (checked : program.check registry = .ok ()) (unbound : Bindings) (data : Value) :
    program.run data registry =
      .ok (Rendering.literal [] 0 layout.before ++
        (Program.block outline order layout
            (((Program.keptSlots outline layout).map (Program.placedOf outline layout)).zipIdx)
            outline.scopes.size none).emit (program.inserts registry)
          (unbound.start (Meaning.payload data)) [] ++
        Rendering.literal [] (outline.lastPoint + 1) layout.after) := by
  have rooted := coherent.rooted
  have size : program.parents.size = outline.scopes.size := by
    rw [compiled.parents, Array.size_map]
  have proper := Program.scoped_block compiled orders coherent hosted outline.scopes.size
    (Outline.isBody_none outline)
  rw [Program.entered_none rooted] at proper
  have occupied : 0 < program.parents.size := by
    rw [size]
    exact Outline.size_pos rooted
  rw [Program.run_of_block checked occupied compiled.code (by rw [size]; exact proper) unbound,
    compiled.before, compiled.after, compiled.afterPoint, Meaning.payloadOf_eq]

/-- Compiled in the usual order, it emits what the outline means. -/
theorem Program.CompiledFrom.run_eq {program : Program} {outline : Outline} {layout : Layout}
    {escape : Escape} (compiled : CompiledFrom program outline outline.order layout escape)
    (coherent : Coherent outline) (hosted : Program.Hosted outline layout) {registry : Registry}
    (checked : program.check registry = .ok ()) (unbound : Bindings) (data : Value) :
    program.run data registry =
      .ok ((Rendering.mk outline layout registry escape).fragments unbound data) := by
  rw [compiled.run_block (Outline.orders_order coherent.rooted) coherent hosted checked unbound,
    compiled.emit_block coherent.rooted]
  rfl

/-- What a template is compiled from. -/
theorem Template.compile_eq_ok {source : Source} {settings : Settings} {template : Template}
    (compiled : compile source settings = .ok template) :
    Outline.ofMarkers source.markers settings.unterminated = .ok template.outline ∧
      Layout.ofText template.outline source.text = .ok template.layout ∧
      Program.compile template.outline template.outline.order template.layout settings =
        .ok template.program := by
  unfold compile at compiled
  obtain ⟨outline, outlined, compiled⟩ := bind_eq_ok.mp compiled
  obtain ⟨layout, laidOut, compiled⟩ := bind_eq_ok.mp compiled
  obtain ⟨program, programmed, compiled⟩ := bind_eq_ok.mp compiled
  cases compiled
  exact ⟨outlined, laidOut, programmed⟩

theorem compileMarkers_eq_ok {markers : List Marker} {before after : String}
    {settings : Settings} {program : Program}
    (compiled : compileMarkers markers before after settings = .ok program) :
    ∃ outline, Outline.ofMarkers markers settings.unterminated = .ok outline ∧
      Program.compile outline outline.order (Layout.surrounding before after) settings =
        .ok program := by
  unfold compileMarkers at compiled
  obtain ⟨outline, outlined, compiled⟩ := bind_eq_ok.mp compiled
  exact ⟨outline, outlined, compiled⟩

/-- A rendering of a template emits what its document means. -/
theorem Template.fragments_eq {source : Source} {settings : Settings} {template : Template}
    (compiled : compile source settings = .ok template) {registry : Registry}
    (checked : template.program.check registry = .ok ()) (unbound : Bindings) (data : Value) :
    template.fragments data registry =
      .ok ((Rendering.mk template.outline template.layout registry
        settings.escape).fragments unbound data) := by
  obtain ⟨outlined, laidOut, programmed⟩ := Template.compile_eq_ok compiled
  have coherent := Outline.coherent_of_ofMarkers outlined
  exact (Program.compile_eq_ok programmed).run_eq coherent
    (Program.hosted_of_ofText coherent laidOut) checked unbound data

/-- So does a program compiled from markers with text around them only. -/
theorem run_surrounded_eq {outline : Outline} {markers : List Marker} {before after : String}
    {settings : Settings} {program : Program}
    (outlined : Outline.ofMarkers markers settings.unterminated = .ok outline)
    (programmed : Program.compile outline outline.order (Layout.surrounding before after)
      settings = .ok program) {registry : Registry} (checked : program.check registry = .ok ())
    (unbound : Bindings) (data : Value) :
    program.run data registry =
      .ok ((Rendering.mk outline (Layout.surrounding before after) registry
        settings.escape).fragments unbound data) := by
  have coherent := Outline.coherent_of_ofMarkers outlined
  exact (Program.compile_eq_ok programmed).run_eq coherent
    (Program.hosted_surrounding coherent before after) checked unbound data

/-- Rendering a document emits what the document means, and so does rendering
markers with text around them only.  What a body means is told by the bodies of its
arrays alone. -/
theorem run_refines_nested_evaluation :
    (∀ (source : Source) (settings : Settings) (template : Template),
      Template.compile source settings = .ok template →
      ∀ registry : Registry,
        let rendering : Rendering := ⟨template.outline, template.layout, registry, settings.escape⟩
        rendering.Evaluates rendering.emitted ∧
          ∀ data : Value, template.program.check registry = .ok () → ∀ unbound : Bindings,
            template.fragments data registry = .ok (rendering.fragments unbound data)) ∧
      ∀ (markers : List Marker) (before after : String) (settings : Settings)
        (program : Program), compileMarkers markers before after settings = .ok program →
        ∃ outline, Outline.ofMarkers markers settings.unterminated = .ok outline ∧
          ∀ registry : Registry,
            let rendering : Rendering :=
              ⟨outline, Layout.surrounding before after, registry, settings.escape⟩
            rendering.Evaluates rendering.emitted ∧
              ∀ data : Value, program.check registry = .ok () → ∀ unbound : Bindings,
                program.run data registry = .ok (rendering.fragments unbound data) := by
  constructor
  · intro source settings template compiled registry rendering
    obtain ⟨outlined, -, -⟩ := Template.compile_eq_ok compiled
    exact ⟨rendering.evaluates_emitted (Outline.coherent_of_ofMarkers outlined).rooted,
      fun data checked unbound => Template.fragments_eq compiled checked unbound data⟩
  · intro markers before after settings program compiled
    obtain ⟨outline, outlined, programmed⟩ := compileMarkers_eq_ok compiled
    refine ⟨outline, outlined, fun registry => ?_⟩
    intro rendering
    exact ⟨rendering.evaluates_emitted (Outline.coherent_of_ofMarkers outlined).rooted,
      fun data checked unbound => run_surrounded_eq outlined programmed checked unbound data⟩

/-- Cars with their seats, after the depot in Rome.  A car named `b` is left out, a seat
without a color takes the paint of its car, and the owner stands in the row of every car. -/
def fleetSource : Source :=
  ⟨": (,); .", [⟨0, "d.depots[city='Rome'].name"⟩, ⟨2, "d.cars[i,name!='b'].name"⟩,
    ⟨3, "d.cars[i].seats[j].color:ifEmpty(..paint)"⟩, ⟨4, "d.cars[i].seats[j+1]"⟩,
    ⟨5, "d.owner"⟩, ⟨7, "d.cars[i+1]"⟩]⟩

def fleetPayload : Value :=
  let car (name paint : String) (colors : List String) : Value :=
    .object [("name", .string name), ("paint", .string paint),
      ("seats", .array (colors.map fun color => .object [("color", .string color)]))]
  .object [("cars", .array [car "a" "grey" ["red", ""], car "b" "white" ["red"],
      car "c" "black" [""]]),
    ("depots", .array [.object [("city", .string "Oslo"), ("name", .string "North")],
      .object [("city", .string "Rome"), ("name", .string "South")]]),
    ("owner", .string "me")]

/-- With a document and without one, whatever unbound scopes hold. -/
theorem run_refines_nested_evaluation_fleet :
    (∃ template, Template.compile fleetSource {} = .ok template ∧
      template.program.check .standard = .ok () ∧
      template.fragments fleetPayload .standard =
        .ok [⟨[2], ": "⟩, ⟨[2, 0, 3], "("⟩, ⟨[2, 0, 3, 0, 3], "red"⟩, ⟨[2, 0, 3, 0, 4], ","⟩,
          ⟨[2, 0, 3, 1, 3], "grey"⟩, ⟨[2, 0, 2], "a"⟩, ⟨[2, 0, 5], ")me"⟩, ⟨[2, 0, 6], "; "⟩,
          ⟨[2, 1, 3], "("⟩, ⟨[2, 1, 3, 0, 3], "black"⟩, ⟨[2, 1, 2], "c"⟩, ⟨[2, 1, 5], ")me"⟩,
          ⟨[1], "South"⟩, ⟨[7], "."⟩]) ∧
      ∃ program, compileMarkers fleetSource.markers "<" ">" {} = .ok program ∧
        program.check .standard = .ok () ∧
        program.run fleetPayload .standard =
          .ok [⟨[0], "<"⟩, ⟨[2, 0, 3, 0, 3], "red"⟩, ⟨[2, 0, 3, 1, 3], "grey"⟩, ⟨[2, 0, 2], "a"⟩,
            ⟨[2, 1, 3, 0, 3], "black"⟩, ⟨[2, 1, 2], "c"⟩, ⟨[1], "South"⟩, ⟨[5], "me"⟩,
            ⟨[7], ">"⟩] := by
  constructor
  · have shown : ((Template.compile fleetSource {}).toOption.bind fun template =>
        (template.program.check .standard).toOption.map fun _ =>
          (Rendering.mk template.outline template.layout .standard .none).fragments
            (fun _ => some (.string "stale")) fleetPayload) =
        some [⟨[2], ": "⟩, ⟨[2, 0, 3], "("⟩, ⟨[2, 0, 3, 0, 3], "red"⟩, ⟨[2, 0, 3, 0, 4], ","⟩,
          ⟨[2, 0, 3, 1, 3], "grey"⟩, ⟨[2, 0, 2], "a"⟩, ⟨[2, 0, 5], ")me"⟩, ⟨[2, 0, 6], "; "⟩,
          ⟨[2, 1, 3], "("⟩, ⟨[2, 1, 3, 0, 3], "black"⟩, ⟨[2, 1, 2], "c"⟩, ⟨[2, 1, 5], ")me"⟩,
          ⟨[1], "South"⟩, ⟨[7], "."⟩] := by decide +kernel
    rcases Option.bind_eq_some_iff.mp shown with ⟨template, compiled, shown⟩
    rcases Option.map_eq_some_iff.mp shown with ⟨⟨⟩, checked, meant⟩
    have compiled := eq_ok_of_toOption compiled
    have checked := eq_ok_of_toOption checked
    refine ⟨template, compiled, checked, ?_⟩
    rw [(run_refines_nested_evaluation.1 fleetSource {} template compiled .standard).2
      fleetPayload checked fun _ => some (.string "stale")]
    exact congrArg Except.ok meant
  · have allowed : ((compileMarkers fleetSource.markers "<" ">" {}).toOption.bind fun program =>
        (program.check .standard).toOption) = some () := by decide +kernel
    rcases Option.bind_eq_some_iff.mp allowed with ⟨program, compiled, checked⟩
    have compiled := eq_ok_of_toOption compiled
    have checked := eq_ok_of_toOption checked
    have meant : ((Outline.ofMarkers fleetSource.markers .permissive).toOption.map fun outline =>
        (Rendering.mk outline (Layout.surrounding "<" ">") .standard .none).fragments
          (fun _ => some (.string "stale")) fleetPayload) =
        some [⟨[0], "<"⟩, ⟨[2, 0, 3, 0, 3], "red"⟩, ⟨[2, 0, 3, 1, 3], "grey"⟩, ⟨[2, 0, 2], "a"⟩,
          ⟨[2, 1, 3, 0, 3], "black"⟩, ⟨[2, 1, 2], "c"⟩, ⟨[1], "South"⟩, ⟨[5], "me"⟩,
          ⟨[7], ">"⟩] := by decide +kernel
    obtain ⟨outline, outlined, same⟩ :=
      run_refines_nested_evaluation.2 fleetSource.markers "<" ">" {} program compiled
    rw [outlined] at meant
    refine ⟨program, compiled, checked, ?_⟩
    rw [(same .standard).2 fleetPayload checked fun _ => some (.string "stale")]
    exact congrArg Except.ok (Option.some.inj meant)

end Stencil
