import Stencil.Proofs.Layout.Ranges
import Stencil.Proofs.Outline.Ordered
import Stencil.Proofs.Program.Failure

namespace Stencil

open Outline (ByDepth Coherent IsBody Orders Rooted ofMarkers)

/-!
# Parts made from the same markers fit together

A program is compiled from an outline, an order and a layout, and the compiler refuses
parts that do not fit: an order that leaves a scope out or has one before its parent, a
slot of no scope, a slot emitted from something that is not repeated.  Parts made from
the same markers always fit.  So no document is refused for that, and since the machine
is given code with matching ends of loops and insertions that exist, no run finds a
scope or a loop missing either.
-/

/-- An error that is not about parts that do not fit together. -/
def Error.Consistent : Error → Prop
  | .inconsistentScope _ _ => False
  | _ => True

theorem Error.OfSource.consistent {error : Error} (source : error.OfSource) :
    error.Consistent := by
  cases error with
  | inconsistentScope scope fault => exact source
  | _ => exact trivial

variable {outline : Outline} {layout : Layout} {settings : Settings} {error : Error}

/-! ## Layouts -/

namespace Layout

theorem Sweep.RefusedOrStopped.consistent {sweep : Sweep} {place : Nat}
    (outcome : RefusedOrStopped sweep place error) : error.Consistent := by
  rcases outcome with ⟨path, offset, fault, other, rfl⟩ | ⟨-, rfl⟩
  · exact trivial
  · exact trivial

/-- A text is never refused for a scope or a slot that does not exist. -/
theorem consistent_of_ofText (known : Known outline) {text : String}
    (run : ofText outline text = .error error) : error.Consistent := by
  rcases ofText_eq_error run with ⟨occurrence, -, same⟩ | ⟨-, fails⟩
  · exact (ofSource_of_offsetFault? same).consistent
  · rcases bind_eq_error.mp fails with fails | ⟨sweep, -, fails⟩
    · rcases foldlM_eq_error fails with ⟨front, occurrence, back, before, split, -, fails⟩
      rcases Sweep.pass_eq_error known (by rw [split]; simp) fails with ⟨between, outcome⟩
      exact outcome.consistent
    · exact (Sweep.finish_eq_error fails).consistent

end Layout

/-! ## Programs -/

namespace Program

/-- A slot of a scope that is emitted from a body can be placed. -/
theorem placeSlot_of_isBody {item : Slot × SlotId} (bound : item.1.scope < outline.scopes.size)
    (isBody : IsBody outline (layout.host outline item.2)) :
    placeSlot outline layout item = .ok (placedOf outline layout item) := by
  have array : (layout.host outline item.2).filter
      (fun array => !outline.scopeIs Scope.isArray array) = none := by
    apply Option.filter_eq_none_iff.mpr
    intro array host
    simp [isBody array host]
  unfold placeSlot
  simp only [if_neg (Nat.not_le_of_lt bound), array]
  rfl

/-- Whatever fits together is compiled. -/
theorem exists_compile (coherent : Coherent outline) {order : List ScopeId}
    (orders : Orders outline order) (bodies : ∀ id, IsBody outline (layout.host outline id))
    (settings : Settings) : ∃ program, compile outline order layout settings = .ok program := by
  unfold compile
  rw [orders.checkOrder coherent.rooted]
  cases placed : placeSlots outline layout with
  | ok made => exact ⟨_, rfl⟩
  | error fault =>
    rcases mapM_eq_error placed with ⟨item, listed, fails⟩
    have found : outline.slots[item.2]? = some item.1 := by
      have numbered := (List.mem_filter.mp listed).1
      rw [← Array.getElem?_toList]
      exact List.mk_mem_zipIdx_iff_getElem?.mp numbered
    rw [placeSlot_of_isBody (coherent.slotScope item.2 item.1 found) (bodies item.2)] at fails
    cases fails

/-- A dependable program never finds its parts inconsistent. -/
theorem Dependable.consistent {program : Program} (dependable : program.Dependable)
    {data : Value} {registry : Registry} (run : program.run data registry = .error error) :
    error.Consistent := by
  have fails := (dependable.fails data registry error).mp run
  rcases (dependable.reports registry error).mp fails with ⟨insertion, call, -, rfl⟩
  exact trivial

end Program

/-! ## Documents -/

/-- What an order, a layout and an outline of the same markers have to do with each
other. -/
structure Outline.Fitting (outline : Outline) : Prop where
  complete : outline.order.Perm (List.range outline.scopes.size)
  byDepth : ByDepth outline outline.order
  parentsFirst : Outline.ParentsFirst outline outline.order
  slots : ∀ (id : Nat) slot, outline.slots[id]? = some slot →
    ∃ scope, outline.scopes[slot.scope]? = some scope
  hosts : ∀ text layout, Layout.ofText outline text = .ok layout →
    ∀ id, IsBody outline (layout.host outline id)
  plainHosts : ∀ before after id, IsBody outline ((Layout.surrounding before after).host outline id)

theorem Outline.Coherent.fitting (coherent : Coherent outline) : Outline.Fitting outline where
  complete := (Outline.orders_order coherent.rooted).complete
  byDepth := Outline.byDepth_order outline
  parentsFirst := (Outline.orders_order coherent.rooted).parentsFirst
  slots id slot found := ⟨_, Array.getElem?_eq_getElem (coherent.slotScope id slot found)⟩
  hosts _ _ laidOut := Layout.isBody_host_of_ofText coherent laidOut
  plainHosts _ _ := Layout.isBody_host_surrounding outline

theorem Template.consistent_of_compile {source : Source}
    (run : compile source settings = .error error) : error.Consistent := by
  rcases bind_eq_error.mp run with fails | ⟨outline, outlined, run⟩
  · exact (Outline.ofSource_of_ofMarkers fails).consistent
  have coherent := Outline.coherent_of_ofMarkers outlined
  rcases bind_eq_error.mp run with fails | ⟨layout, laidOut, run⟩
  · rcases Outline.ofMarkers_eq_ok outlined with ⟨growth, grown, rfl⟩
    exact Layout.consistent_of_ofText (Layout.known_of_growth grown) fails
  rcases Program.exists_compile coherent (Outline.orders_order coherent.rooted)
    (coherent.fitting.hosts _ layout laidOut) settings with ⟨program, compiled⟩
  rw [compiled] at run
  cases run

theorem consistent_of_compileMarkers {markers : List Marker} {before after : String}
    (run : compileMarkers markers before after settings = .error error) : error.Consistent := by
  rcases bind_eq_error.mp run with fails | ⟨outline, outlined, fails⟩
  · exact (Outline.ofSource_of_ofMarkers fails).consistent
  have coherent := Outline.coherent_of_ofMarkers outlined
  rcases Program.exists_compile coherent (Outline.orders_order coherent.rooted)
    (coherent.fitting.plainHosts before after) settings with ⟨program, compiled⟩
  rw [compiled] at fails
  cases fails

/-- Outlines, orders and layouts made from the same markers fit together, and neither
compiling nor running finds them inconsistent. -/
theorem parts_fit_together :
    (∀ markers policy outline, ofMarkers markers policy = .ok outline →
      Outline.Fitting outline) ∧
    (∀ source settings scope fault,
      Template.compile source settings ≠ .error (.inconsistentScope scope fault)) ∧
    (∀ markers before after settings scope fault,
      compileMarkers markers before after settings ≠ .error (.inconsistentScope scope fault)) ∧
    (∀ source settings template, Template.compile source settings = .ok template →
      ∀ data registry scope fault,
        template.program.run data registry ≠ .error (.inconsistentScope scope fault)) ∧
    ∀ markers before after settings program,
      compileMarkers markers before after settings = .ok program →
      ∀ data registry scope fault,
        program.run data registry ≠ .error (.inconsistentScope scope fault) := by
  refine ⟨?_, ?_, ?_, ?_, ?_⟩
  · intro markers policy outline accepted
    exact (Outline.coherent_of_ofMarkers accepted).fitting
  · intro source settings scope fault run
    exact Template.consistent_of_compile run
  · intro markers before after settings scope fault run
    exact consistent_of_compileMarkers run
  · intro source settings template compiled data registry scope fault run
    exact (Template.dependable_of_compile compiled).consistent run
  · intro markers before after settings program compiled data registry scope fault run
    exact (dependable_of_compileMarkers compiled).consistent run

/-- The rooms of the houses of a street. -/
def roomSource : Source :=
  ⟨"(-,-);", [⟨1, "d.houses[h].rooms[r].name"⟩, ⟨2, "d.houses[h].rooms[r+1]"⟩,
    ⟨4, "d.houses[h+1].rooms[r+1]"⟩, ⟨6, "d.street.name"⟩]⟩

/-- With a document and without one. -/
theorem parts_fit_together_rooms :
    (∃ template, Template.compile roomSource {} = .ok template ∧
      Outline.Fitting template.outline ∧ ∀ data registry scope fault,
        template.program.run data registry ≠ .error (.inconsistentScope scope fault)) ∧
    ∃ program, compileMarkers roomSource.markers "<" ">" {} = .ok program ∧
      ∀ data registry scope fault,
        program.run data registry ≠ .error (.inconsistentScope scope fault) := by
  constructor
  · rcases exists_of_isOk (by decide +kernel : (Template.compile roomSource {}).isOk = true) with
      ⟨template, compiled⟩
    have outlined := (Template.compile_eq_ok compiled).1
    exact ⟨template, compiled, parts_fit_together.1 _ _ _ outlined,
      parts_fit_together.2.2.2.1 roomSource {} template compiled⟩
  · rcases exists_of_isOk (by decide +kernel :
      (compileMarkers roomSource.markers "<" ">" {}).isOk = true) with ⟨program, compiled⟩
    exact ⟨program, compiled, parts_fit_together.2.2.2.2 _ _ _ _ program compiled⟩

end Stencil
