import Stencil.Proofs.Meaning.Agreement
import Stencil.Proofs.Meaning.Surrounded
import Stencil.Proofs.Program.Arrangement
import Stencil.Proofs.Program.Consistency

namespace Stencil

open Meaning (Bindings Rendering rows)
open Outline (Coherent InTurn Orders PlainMarkers Rooted)

/-!
# Every order of compilation gives the same document

The order in which scopes are compiled decides in which order a body binds its objects
and runs its loops.  An object is bound behind its parent in any case, so the bindings
come out the same.  The loops emit the same fragments, only one loop before the other,
and where no two fragments stand at one position that makes no difference.
-/

/-! ## Bodies in another order -/

namespace Meaning

open Program (Member)

/-- Objects are bound to the same values in whatever order they come in turn. -/
theorem foldl_bindObject_eq_of_perm {objects others : List Member} (perm : others.Perm objects)
    (turn : InTurn objects) (otherTurn : InTurn others)
    (smaller : ∀ object ∈ objects, object.parent < object.id) (outer : Bindings) :
    others.foldl Rendering.bindObject outer = objects.foldl Rendering.bindObject outer := by
  funext id
  induction id using Nat.strongRecOn with
  | ind id ih =>
    by_cases listed : ∃ object ∈ objects, object.id = id
    · rcases listed with ⟨object, member, rfl⟩
      have otherSmaller : ∀ other ∈ others, other.parent < other.id :=
        fun other among => smaller other (perm.mem_iff.mp among)
      rw [foldl_bindObject_of_mem turn smaller member,
        foldl_bindObject_of_mem otherTurn otherSmaller (perm.mem_iff.mpr member),
        ih object.parent (smaller object member)]
    · rw [foldl_bindObject_of_ne fun object member same => listed ⟨object, member, same⟩,
        foldl_bindObject_of_ne fun object member same =>
          listed ⟨object, perm.mem_iff.mp member, same⟩]

/-- Rows that emit the same but in another order make repetitions that do. -/
theorem rows_perm {α : Type} {row other : Value → Nat → List α} {separator : Nat → List α}
    {items : List Value} (perm : ∀ item index, (row item index).Perm (other item index)) :
    ∀ index, (rows row separator index items).Perm (rows other separator index items) := by
  induction items with
  | nil => exact fun _ => .nil
  | cons item more ih =>
    intro index
    exact ((perm item index).append_right _).append (ih (index + 1))

end Meaning

namespace Program

variable {program : Program} {outline : Outline} {order : List ScopeId} {layout : Layout}
  {escape : Escape}

/-- A compiled program was given an order that was accepted. -/
theorem checkOrder_of_compile {settings : Settings}
    (compiled : compile outline order layout settings = .ok program) :
    checkOrder outline order = .ok () := by
  rcases bind_eq_ok.mp compiled with ⟨_, accepted, -⟩
  exact accepted

theorem perm_membersOf (orders : Orders outline order) (body : Option ScopeId) (arrays : Bool) :
    (membersOf outline order body arrays).Perm
      (membersOf outline (List.range outline.scopes.size) body arrays) :=
  ((orders.complete.filterMap _).filter _).filter _

/-- A body binds its objects to what they mean. -/
theorem foldl_membersOf (rendering : Rendering) (orders : Orders rendering.outline order)
    (rooted : Rooted rendering.outline) (body : Option ScopeId) (outer : Bindings) :
    (membersOf rendering.outline order body false).foldl Rendering.bindObject outer =
      rendering.bindObjects body outer := by
  have same : membersOf rendering.outline (List.range rendering.outline.scopes.size) body false =
      rendering.objectsIn body := by
    unfold membersOf Rendering.objectsIn Rendering.scopesIn
    simp only [beq_false]
  have smaller : ∀ object ∈ membersOf rendering.outline
      (List.range rendering.outline.scopes.size) body false, object.parent < object.id :=
    fun object listed => (Outline.inside_of_mem rooted (mem_membersOf.mp listed).1).smaller
  have rising := (Outline.pairwise_members rendering.outline body).filter
    fun member => member.scope.isArray == false
  rw [Rendering.bindObjects, ← same]
  exact Meaning.foldl_bindObject_eq_of_perm (perm_membersOf orders body false)
    (Outline.inTurn_of_rising rising smaller) ((orders.inTurn body).filter _) smaller outer

/-- The block of a body emits what the body means, loop by loop in the order given. -/
theorem CompiledFrom.perm_block (compiled : CompiledFrom program outline order layout escape)
    (orders : Orders outline order) (rooted : Rooted outline) (registry : Registry)
    (levels : Nat) :
    ∀ (body : Option ScopeId) (outer : Bindings) (here : Position),
      ((block outline order layout
          (((keptSlots outline layout).map (placedOf outline layout)).zipIdx) levels body).emit
          (program.inserts registry) outer here).Perm
        ((Rendering.mk outline layout registry escape).emitBody levels body outer here) := by
  induction levels with
  | zero => exact fun _ _ _ => .nil
  | succ levels ih =>
    intro body outer here
    rw [block_succ orders.nodup, emit_bindings _ _ fun member listed =>
        (mem_membersOf.mp listed).2,
      foldl_membersOf (Rendering.mk outline layout registry escape) orders rooted,
      emit_loopsOf (Rendering.mk outline layout registry escape),
      compiled.emit_insertions registry, Rendering.emitBody]
    apply List.Perm.append_right
    refine ((perm_membersOf orders body true).flatMap_right _).trans ?_
    unfold membersOf Rendering.arraysIn Rendering.scopesIn
    simp only [beq_true]
    refine List.Perm.flatMap_left _ fun array _ => List.Perm.append_left _ ?_
    exact Meaning.rows_perm (fun item index => ih _ _ _) 0

/-- A program compiled in any order emits what the outline means. -/
theorem CompiledFrom.run_perm (compiled : CompiledFrom program outline order layout escape)
    (orders : Orders outline order) (coherent : Coherent outline)
    (hosted : Hosted outline layout) {registry : Registry}
    (checked : program.check registry = .ok ()) (unbound : Bindings) (data : Value) :
    ∃ fragments, program.run data registry = .ok fragments ∧
      fragments.Perm ((Rendering.mk outline layout registry escape).fragments unbound data) := by
  rw [compiled.run_block orders coherent hosted checked unbound]
  refine ⟨_, rfl, ?_⟩
  exact ((compiled.perm_block orders coherent.rooted registry _ none _ _).append_left _).append_right
    _

end Program

/-! ## Programs of one outline -/

/-- Two programs that always emit the same fragments, each in an order of its own, or
fail with the same error. -/
def Program.EmitsAlike (first second : Program) : Prop :=
  ∀ data registry,
    (∃ error, first.run data registry = .error error ∧ second.run data registry = .error error) ∨
    ∃ fragments others, first.run data registry = .ok fragments ∧
      second.run data registry = .ok others ∧ fragments.Perm others

/-- Two programs that always make the same document, or fail with the same error. -/
def Program.RendersAlike (first second : Program) : Prop :=
  ∀ data registry, (first.run data registry).map Fragment.documentText =
    (second.run data registry).map Fragment.documentText

namespace Program

variable {outline : Outline} {first second : Program} {order otherOrder : List ScopeId}
  {layout : Layout} {escape : Escape}

theorem run_of_check_eq_error {program : Program} {registry : Registry} {error : Error}
    (checked : program.check registry = .error error) (data : Value) :
    program.run data registry = .error error := by
  unfold run
  rw [checked]

/-- Two programs of one outline emit the same fragments. -/
theorem CompiledFrom.emitsAlike (compiled : CompiledFrom first outline order layout escape)
    (otherCompiled : CompiledFrom second outline otherOrder layout escape)
    (orders : Orders outline order) (otherOrders : Orders outline otherOrder)
    (coherent : Coherent outline) (hosted : Hosted outline layout) :
    EmitsAlike first second := by
  intro data registry
  have same : first.check registry = second.check registry := by
    unfold check
    rw [compiled.insertions, otherCompiled.insertions]
  cases checked : first.check registry with
  | error error =>
    exact .inl ⟨error, run_of_check_eq_error checked data,
      run_of_check_eq_error (same ▸ checked) data⟩
  | ok allowed =>
    rcases compiled.run_perm orders coherent hosted checked (fun _ => none) data with
      ⟨fragments, run, perm⟩
    rcases otherCompiled.run_perm otherOrders coherent hosted (same ▸ checked) (fun _ => none)
      data with ⟨others, otherRun, otherPerm⟩
    exact .inr ⟨fragments, others, run, otherRun, perm.trans otherPerm.symm⟩

/-- If no two fragments stand at one position, they also render the same. -/
theorem CompiledFrom.rendersAlike (compiled : CompiledFrom first outline order layout escape)
    (otherCompiled : CompiledFrom second outline otherOrder layout escape)
    (orders : Orders outline order) (otherOrders : Orders outline otherOrder)
    (coherent : Coherent outline) (hosted : Hosted outline layout)
    (distinct : ∀ data registry, Fragment.Distinct
      ((Rendering.mk outline layout registry escape).fragments (fun _ => none) data)) :
    RendersAlike first second := by
  have meant : ∀ {program : Program} {order : List ScopeId} {data : Value} {registry : Registry}
      {fragments : List Fragment}, CompiledFrom program outline order layout escape →
      Orders outline order → program.run data registry = .ok fragments →
      Fragment.documentText fragments = Fragment.documentText
        ((Rendering.mk outline layout registry escape).fragments (fun _ => none) data) := by
    intro program order data registry fragments compiled orders run
    rcases compiled.run_perm orders coherent hosted (check_of_run run) (fun _ => none) data with
      ⟨same, again, perm⟩
    rw [run] at again
    cases again
    exact Fragment.documentText_eq_of_perm (distinct data registry) perm
  intro data registry
  rcases compiled.emitsAlike otherCompiled orders otherOrders coherent hosted data registry with
    ⟨error, run, otherRun⟩ | ⟨fragments, others, run, otherRun, -⟩
  · rw [run, otherRun]
  · rw [run, otherRun, Except.map, Except.map, meant compiled orders run,
      meant otherCompiled otherOrders otherRun]

/-- Parts that fit together are compiled in any two orders, to programs that emit alike,
and that render alike if no two fragments stand at one position. -/
theorem exists_alike (coherent : Coherent outline) (orders : Orders outline order)
    (otherOrders : Orders outline otherOrder)
    (bodies : ∀ id, Outline.IsBody outline (layout.host outline id))
    (hosted : Hosted outline layout) (settings : Settings) :
    ∃ first second, compile outline order layout settings = .ok first ∧
      compile outline otherOrder layout settings = .ok second ∧ first.EmitsAlike second ∧
      ((∀ data registry, Fragment.Distinct ((Rendering.mk outline layout registry
        settings.escape).fragments (fun _ => none) data)) → first.RendersAlike second) := by
  rcases exists_compile coherent orders bodies settings with ⟨first, compiled⟩
  rcases exists_compile coherent otherOrders bodies settings with ⟨second, otherCompiled⟩
  have made := compile_eq_ok compiled
  have otherMade := compile_eq_ok otherCompiled
  exact ⟨first, second, compiled, otherCompiled,
    made.emitsAlike otherMade orders otherOrders coherent hosted,
    made.rendersAlike otherMade orders otherOrders coherent hosted⟩

end Program

/-- Whatever orders an outline is compiled in, with every scope once and behind its
parent, the programs emit the same fragments or fail alike.  They also make the same
document: always if there is no text between the markers, and otherwise if the markers
are plain. -/
theorem order_of_compilation_is_forgotten {markers : List Marker} {policy : Unterminated}
    {outline : Outline} (outlined : Outline.ofMarkers markers policy = .ok outline)
    {order otherOrder : List ScopeId} (orders : Orders outline order)
    (otherOrders : Orders outline otherOrder) (settings : Settings) :
    (∀ before after, ∃ first second,
      Program.compile outline order (Layout.surrounding before after) settings = .ok first ∧
      Program.compile outline otherOrder (Layout.surrounding before after) settings =
        .ok second ∧ first.EmitsAlike second ∧ first.RendersAlike second) ∧
    ∀ text layout, Layout.ofText outline text = .ok layout → ∃ first second,
      Program.compile outline order layout settings = .ok first ∧
      Program.compile outline otherOrder layout settings = .ok second ∧
      first.EmitsAlike second ∧ (PlainMarkers markers → first.RendersAlike second) := by
  have coherent := Outline.coherent_of_ofMarkers outlined
  constructor
  · intro before after
    rcases Program.exists_alike coherent orders otherOrders
      (coherent.fitting.plainHosts before after)
      (Program.hosted_surrounding coherent before after) settings with
      ⟨first, second, compiled, otherCompiled, emits, renders⟩
    refine ⟨first, second, compiled, otherCompiled, emits, renders fun data registry => ?_⟩
    exact (Rendering.unlettered_surrounding _ before after registry _).distinct_fragments coherent
      (Outline.registered_of_ofMarkers outlined) _ data
  · intro text layout laidOut
    have hosted := Program.hosted_of_ofText coherent laidOut
    rcases Program.exists_alike coherent orders otherOrders
      (coherent.fitting.hosts text layout laidOut) hosted settings with
      ⟨first, second, compiled, otherCompiled, emits, renders⟩
    refine ⟨first, second, compiled, otherCompiled, emits, fun plain => ?_⟩
    exact renders fun data registry =>
      distinct_of_ofMarkers outlined plain hosted registry _ _ data

/-- Compile an outline in an order and render it without formatters. -/
def renderInOrder (outline : Outline) (order : List ScopeId) (layout : Layout) (data : Value) :
    Except Error String := do
  let program ← Program.compile outline order layout {}
  (program.run data .empty).map Fragment.documentText

/-- Two lists side by side. -/
def shelfSource : Source :=
  ⟨"<|>", [⟨1, "d.books[b].title"⟩, ⟨2, "d.films[f].title"⟩]⟩

def shelfPayload : Value :=
  .object [("books", .array [.object [("title", .string "Emma")]]),
    ("films", .array [.object [("title", .string "M")], .object [("title", .string "Ran")]])]

/-- The films may be compiled before the books. -/
theorem order_of_compilation_is_forgotten_shelf :
    PlainMarkers shelfSource.markers ∧ ∃ outline layout first second,
      Outline.ofMarkers shelfSource.markers .permissive = .ok outline ∧
      Layout.ofText outline shelfSource.text = .ok layout ∧
      Orders outline [0, 1, 2] ∧ Orders outline [0, 2, 1] ∧
      Program.compile outline [0, 1, 2] layout {} = .ok first ∧
      Program.compile outline [0, 2, 1] layout {} = .ok second ∧
      (first.run shelfPayload .empty).map Fragment.documentText = .ok "<Emma|MRan>" ∧
      (second.run shelfPayload .empty).map Fragment.documentText = .ok "<Emma|MRan>" := by
  have plain : PlainMarkers shelfSource.markers := by decide +kernel
  have shown : ((Outline.ofMarkers shelfSource.markers .permissive).toOption.bind
      fun outline => (Layout.ofText outline shelfSource.text).toOption.map fun layout =>
        (outline.scopes.size, (Program.checkOrder outline [0, 2, 1]).toOption,
          (renderInOrder outline [0, 1, 2] layout shelfPayload).toOption)) =
      some (3, some (), some "<Emma|MRan>") := by decide +kernel
  rcases Option.bind_eq_some_iff.mp shown with ⟨outline, outlined, shown⟩
  rcases Option.map_eq_some_iff.mp shown with ⟨layout, laidOut, shown⟩
  have outlined := eq_ok_of_toOption outlined
  have laidOut := eq_ok_of_toOption laidOut
  rcases Prod.mk.inj shown with ⟨size, shown⟩
  rcases Prod.mk.inj shown with ⟨accepted, shown⟩
  rcases bind_eq_ok.mp (eq_ok_of_toOption shown) with ⟨program, compiled, rendered⟩
  have rooted := (Outline.coherent_of_ofMarkers outlined).rooted
  have orders : Orders outline [0, 1, 2] := Outline.orders_of_checkOrder rooted
    (by rw [size]; decide) (Program.checkOrder_of_compile compiled)
  have otherOrders : Orders outline [0, 2, 1] := Outline.orders_of_checkOrder rooted
    (by rw [size]; decide) (eq_ok_of_toOption accepted)
  rcases (order_of_compilation_is_forgotten outlined orders otherOrders {}).2 _ layout laidOut
    with ⟨first, second, made, otherMade, -, renders⟩
  rw [compiled] at made
  cases made
  refine ⟨plain, outline, layout, program, second, outlined, laidOut, orders, otherOrders,
    compiled, otherMade, rendered, ?_⟩
  rw [← renders plain shelfPayload .empty, rendered]

/-- Paths with searches that are written like several steps of other paths.  The last two
markers insert into one list, which is opened beside another at one point. -/
def imitatedSource : Source :=
  ⟨"01234", [⟨0, "d.q[x=\"1'].a[].w[y='2\"].v"⟩,
    ⟨1, "d.q[x='1'].a[i].w[y='2'].b[j].g[z=\"5'].c[].h[u='6\"].v"⟩,
    ⟨3, "d.q[x='1'].a[i].w[y=\"2'].b[].g[z='5\"].c[k].h[u='6'].v"⟩]⟩

def imitatedPayload : Value :=
  .object [("q", .array [
    .object [("b", .array [.object [("g", .array [
        .object [("v", .string "B"), ("z", .string "5'].c[].h[u='6")]])]]),
      ("x", .string "1'].a[].w[y='2")],
    .object [("a", .array [.object [("w", .array [
        .object [("c", .array [.object []]), ("y", .string "2'].b[].g[z='5")]])]]),
      ("x", .string "1")]])]

/-- Without plain markers, two lists that exchange their places change the document. -/
theorem order_of_siblings_matters : ∃ outline layout first second,
    Outline.ofMarkers imitatedSource.markers .permissive = .ok outline ∧
    Layout.ofText outline imitatedSource.text = .ok layout ∧
    Orders outline [0, 1, 2, 3, 4, 5, 6, 7] ∧ Orders outline [0, 1, 2, 4, 3, 5, 6, 7] ∧
    Program.compile outline [0, 1, 2, 3, 4, 5, 6, 7] layout {} = .ok first ∧
    Program.compile outline [0, 1, 2, 4, 3, 5, 6, 7] layout {} = .ok second ∧
    (first.run imitatedPayload .empty).map Fragment.documentText = .ok "0B12B34" ∧
    (second.run imitatedPayload .empty).map Fragment.documentText = .ok "0BB1234" := by
  -- One evaluation for both orders: reading the markers takes longest.
  have shown : ((Outline.ofMarkers imitatedSource.markers .permissive).toOption.bind
      fun outline => (Layout.ofText outline imitatedSource.text).toOption.map fun layout =>
        (outline.scopes.size,
          [[0, 1, 2, 3, 4, 5, 6, 7], [0, 1, 2, 4, 3, 5, 6, 7]].map fun order =>
            (renderInOrder outline order layout imitatedPayload).toOption)) =
      some (8, [some "0B12B34", some "0BB1234"]) := by decide +kernel
  rcases Option.bind_eq_some_iff.mp shown with ⟨outline, outlined, shown⟩
  rcases Option.map_eq_some_iff.mp shown with ⟨layout, laidOut, shown⟩
  have outlined := eq_ok_of_toOption outlined
  rcases Prod.mk.inj shown with ⟨size, renders⟩
  rcases List.cons.inj renders with ⟨usual, renders⟩
  rcases bind_eq_ok.mp (eq_ok_of_toOption usual) with ⟨first, compiled, rendered⟩
  rcases bind_eq_ok.mp (eq_ok_of_toOption (List.cons.inj renders).1) with
    ⟨second, otherCompiled, otherRendered⟩
  have rooted := (Outline.coherent_of_ofMarkers outlined).rooted
  refine ⟨outline, layout, first, second, outlined, eq_ok_of_toOption laidOut, ?_, ?_, compiled,
    otherCompiled, rendered, otherRendered⟩
  · exact Outline.orders_of_checkOrder rooted (by rw [size]; decide)
      (Program.checkOrder_of_compile compiled)
  · exact Outline.orders_of_checkOrder rooted (by rw [size]; decide)
      (Program.checkOrder_of_compile otherCompiled)

end Stencil
