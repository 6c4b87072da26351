import Stencil.Program.Listing
import Stencil.Proofs.Formatter.Chain
import Stencil.Proofs.Outline.Origins
import Stencil.Proofs.Program.Shape
import Stencil.Proofs.Text.Splitting
import Stencil.Proofs.Text.Trimming
import Stencil.Template

namespace Stencil

open Outline (ofMarkers readMarker)
open Text (Cut)

/-!
# The bases of chains

The path of a marker is cut twice.  When it is read, it is cut at the first colon outside
of brackets; when the base of its chain is named, it is cut at the first colon of all.  Both
give the same text unless a colon stands in brackets of the part that is read, as in the
quoted bound of a condition: then the base ends in the middle of the condition.
-/

/-! ## Naming the base -/

namespace Program

theorem takeWhile_of_cut {path front : List Char} {back : Option (List Char)}
    (cut : Cut .groups ':' .start path front back) (plain : ':' ∉ front) :
    path.takeWhile (· != ':') = front := by
  have each : ∀ c ∈ front, (c != ':') = true := by
    intro c member
    simp only [bne_iff_ne]
    rintro rfl
    exact plain member
  cases cut with
  | nowhere => exact List.takeWhile_eq_self_iff.mpr each
  | behind _ _ back =>
    rw [List.takeWhile_append_of_pos each, List.takeWhile_cons_of_neg (by simp), List.append_nil]

/-- The base is the part that is read, without the blanks around it, just if no colon
stands in that part. -/
theorem baseText_eq_iff {path : String} {front : List Char} {back : Option (List Char)}
    (cut : Cut .groups ':' .start path.toList front back) :
    baseText path = String.ofList (Text.trim front) ↔ ':' ∉ front := by
  constructor
  · intro same inside
    have kept : ':' ∈ Text.trim front := (Text.mem_trim rfl).mpr inside
    rw [← String.ofList_injective same, Text.mem_trim rfl] at kept
    simpa using List.mem_takeWhile_imp kept
  · intro plain
    rw [baseText, takeWhile_of_cut cut plain]

end Program

/-! ## Reading the part in front -/

namespace Marker

/-- The part that a path is read from gives the same segments when it is read alone. -/
theorem readPath_front {path front : List Char} {back : Option (List Char)} {read : Path}
    (cut : Cut .groups ':' .start path front back) (run : readPath path = .ok read) :
    readPath front = .ok ⟨read.segments, none⟩ ∧ read.chain = readChainText back := by
  have parts := readPath_eq_ok.mp run
  rw [cut.cutFirst] at parts
  rcases parts with ⟨visible, made, chain⟩
  refine ⟨readPath_eq_ok.mpr ?_, chain⟩
  rw [cut.front.cutFirst]
  exact ⟨visible, made, rfl⟩

end Marker

/-! ## What an insertion goes by -/

namespace Program

/-- The text that an insertion of a program goes by: in the listing the calls are wrapped
around it, and an error about one of the formatters names it. -/
structure GoesBy (program : Program) (index : Nat) (insertion : Insertion) (base : String) :
    Prop where
  listed : program.remark (.insert index) =
    " @" ++ toString insertion.point ++ " " ++
      insertion.chain.calls.foldl Formatter.Chain.wrap base
  missing : ∀ registry error, insertion.chain.check registry = .error error →
    ∃ call ∈ insertion.chain.calls, registry.contains call.name = false ∧
      error = .missingFormatter call.name base (registry.suggest? call.name)

theorem goesBy_base {program : Program} {index : Nat} {insertion : Insertion}
    (found : program.insertions[index]? = some insertion) :
    program.GoesBy index insertion insertion.chain.base where
  listed := by simp only [remark, found, Formatter.Chain.text_eq_foldl_wrap]
  missing registry error fails := by
    rcases Formatter.Chain.check_eq_error_iff.mp fails with
      ⟨call, ⟨⟨front, back, split, -⟩, unknown⟩, rfl⟩
    refine ⟨call, ?_, unknown, rfl⟩
    rw [split]
    exact List.mem_append_right _ (.head _)

end Program

/-- Every value that is emitted goes by a text, in the listing and in errors.  Its marker was
read from the part of the path in front of the first colon outside of brackets.  The two are
the same, but for blanks around them, just if no colon stands in brackets of that part. -/
theorem base_is_part_read {markers : List Marker} {policy : Unterminated} {outline : Outline}
    (accepted : ofMarkers markers policy = .ok outline) {order : List ScopeId} {layout : Layout}
    {settings : Settings} {program : Program}
    (compiled : Program.compile outline order layout settings = .ok program) :
    program.insertions.size = (Program.keptSlots outline layout).length ∧
      ∀ (index : Nat) slot id, (Program.keptSlots outline layout)[index]? = some (slot, id) →
        ∃ insertion read front back,
          program.insertions[index]? = some insertion ∧
          program.GoesBy index insertion insertion.chain.base ∧
          ⟨slot.place.offset, slot.path⟩ ∈ markers ∧
          readMarker ⟨slot.place.offset, slot.path⟩ = .ok read ∧
          Cut .groups ':' .start slot.path.toList front back ∧
          Marker.readPath front = .ok ⟨read.path.segments, none⟩ ∧
          read.path.chain = Marker.readChainText back ∧
          (insertion.chain.base = String.ofList (Text.trim front) ↔ ':' ∉ front) := by
  have made := Program.compile_eq_ok compiled
  refine ⟨by simp [made.insertions], fun index slot id listed => ?_⟩
  have found := made.getElem?_insertions listed
  have own := (Program.mem_keptSlots.mp (List.mem_of_getElem? listed)).1
  rcases Outline.inserts_of_ofMarkers accepted own with ⟨read, inserts⟩
  have cut := Text.cut_cutFirst .groups ':' .start slot.path.toList
  have alone := Marker.readPath_front cut (Outline.readMarker_eq_ok inserts.reading).2
  exact ⟨_, read, _, _, found, Program.goesBy_base found, inserts.listed, inserts.reading, cut,
    alone.1, alone.2, Program.baseText_eq_iff cut⟩

/-- The prices of rooms with enough beds, rounded. -/
def priceMarkers : List Marker := [⟨0, " d.rooms[beds > 2].price : toFixed(1)"⟩]

/-- The base ends in front of the formatters. -/
theorem base_is_part_read_price : ∃ outline program,
    ofMarkers priceMarkers .permissive = .ok outline ∧
      Program.compile outline outline.order (Layout.surrounding "" "") {} = .ok program ∧
      program.insertions.size = (Program.keptSlots outline (Layout.surrounding "" "")).length ∧
      ∀ (index : Nat) slot id,
        (Program.keptSlots outline (Layout.surrounding "" ""))[index]? = some (slot, id) →
          ∃ insertion, program.insertions[index]? = some insertion ∧
            program.GoesBy index insertion "d.rooms[beds > 2].price" := by
  have allowed : ((ofMarkers priceMarkers .permissive).toOption.bind fun outline =>
      (Program.compile outline outline.order (Layout.surrounding "" "") {}).toOption).isSome =
        true := by decide +kernel
  rcases Option.isSome_iff_exists.mp allowed with ⟨program, both⟩
  rcases Option.bind_eq_some_iff.mp both with ⟨outline, accepted, compiled⟩
  have accepted := eq_ok_of_toOption accepted
  have compiled := eq_ok_of_toOption compiled
  rcases base_is_part_read accepted compiled with ⟨size, each⟩
  refine ⟨outline, program, accepted, compiled, size, fun index slot id listed => ?_⟩
  rcases each index slot id listed with
    ⟨insertion, read, front, back, found, goesBy, member, -, cut, -, -, agrees⟩
  have path : slot.path = " d.rooms[beds > 2].price : toFixed(1)" :=
    congrArg Marker.path (List.mem_singleton.mp member)
  have parts : Text.cutFirst .groups ':' .start " d.rooms[beds > 2].price : toFixed(1)".toList =
      (" d.rooms[beds > 2].price ".toList, some " toFixed(1)".toList) := by decide +kernel
  rw [path] at cut
  cases parts.symm.trans cut.cutFirst
  have base : insertion.chain.base = "d.rooms[beds > 2].price" :=
    (agrees.mpr (by decide +kernel)).trans (by decide +kernel)
  exact ⟨insertion, found, base ▸ goesBy⟩

/-- A condition whose bound holds a colon. -/
def labelMarkers : List Marker := [⟨0, "d.cars[label='a:b'].n"⟩]

/-- The path is read as a whole, and the base ends at the colon in the quotes. -/
theorem base_ends_in_quotes : ∃ outline program slot insertion,
    ofMarkers labelMarkers .permissive = .ok outline ∧
      Program.compile outline outline.order (Layout.surrounding "" "") {} = .ok program ∧
      (Program.keptSlots outline (Layout.surrounding "" ""))[0]? = some (slot, 0) ∧
      program.insertions[0]? = some insertion ∧ program.GoesBy 0 insertion "d.cars[label='a" ∧
      Cut .groups ':' .start slot.path.toList "d.cars[label='a:b'].n".toList none ∧
      String.ofList (Text.trim "d.cars[label='a:b'].n".toList) = "d.cars[label='a:b'].n" := by
  have shown : ((ofMarkers labelMarkers .permissive).toOption.bind fun outline =>
      (Program.compile outline outline.order (Layout.surrounding "" "") {}).toOption.bind
        fun program => (Program.keptSlots outline (Layout.surrounding "" ""))[0]?.bind
          fun item => program.insertions[0]?.map
            fun insertion => (item.1.path, item.2, insertion.chain.base)) =
      some ("d.cars[label='a:b'].n", 0, "d.cars[label='a") := by decide +kernel
  rcases Option.bind_eq_some_iff.mp shown with ⟨outline, accepted, shown⟩
  rcases Option.bind_eq_some_iff.mp shown with ⟨program, compiled, shown⟩
  rcases Option.bind_eq_some_iff.mp shown with ⟨⟨slot, id⟩, listed, shown⟩
  rcases Option.map_eq_some_iff.mp shown with ⟨insertion, found, parts⟩
  rcases Prod.mk.inj parts with ⟨path, rest⟩
  rcases Prod.mk.inj rest with ⟨rfl, base⟩
  have whole : Text.cutFirst .groups ':' .start "d.cars[label='a:b'].n".toList =
      ("d.cars[label='a:b'].n".toList, none) := by decide +kernel
  have cut := Text.cut_cutFirst .groups ':' .start "d.cars[label='a:b'].n".toList
  rw [whole] at cut
  refine ⟨outline, program, slot, insertion, eq_ok_of_toOption accepted,
    eq_ok_of_toOption compiled, listed, found, ?_, ?_, by decide +kernel⟩
  · rw [← base]
    exact Program.goesBy_base found
  · rw [show slot.path = "d.cars[label='a:b'].n" from path]
    exact cut

end Stencil
