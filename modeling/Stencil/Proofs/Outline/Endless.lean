import Mathlib.Data.List.Find
import Mathlib.Order.Bounds.Defs
import Stencil.Proofs.Outline.WellFormed

namespace Stencil

/-!
# Repetitions that are never ended

The permissive policy leaves a repetition without an end as it is; the strict one
refuses the document.  It names the marker that began the first such repetition, and
beside it the next terminator behind that marker, of whatever repetition.  Everything
else is the same under both policies.
-/

/-- Whether the path of a marker ends a repetition; one that cannot be read does not. -/
def Marker.terminates (marker : Marker) : Bool :=
  match Marker.readPath marker.path.toList with
  | .ok path => path.terminates
  | .error _ => false

namespace Outline

/-- A dimension that no marker ends. -/
def Endless (outline : Outline) (id : ScopeId) : Prop :=
  outline.scopeIs Scope.isArray id = true ∧ outline.scopeIs Scope.hasEnd id = false

/-- The first terminator of a document that stands behind some offset. -/
def nextTerminator? (markers : List Marker) (offset : Nat) : Option Marker :=
  (inDocumentOrder markers).find? fun marker => marker.terminates && decide (offset < marker.offset)

variable {markers : List Marker} {outline : Outline}

/-! ## Occurrences and their markers -/

theorem terminates_of_readPath {marker : Marker} {path : Marker.Path}
    (read : Marker.readPath marker.path.toList = .ok path) : marker.terminates = path.terminates := by
  unfold Marker.terminates
  rw [read]

/-- An occurrence is that of a terminator if its marker is one. -/
theorem terminates_of_growth {growth : Growth} (run : markers.foldlM grow Growth.start = .ok growth) :
    ∀ occurrence ∈ growth.outline.occurrences.toList,
      occurrence.terminates = occurrence.marker.terminates := by
  refine foldlM_induction
    (motive := fun growth => ∀ occurrence ∈ growth.outline.occurrences.toList,
      occurrence.terminates = occurrence.marker.terminates)
    (fun before marker after _ same grown occurrence listed => ?_)
    (fun _ impossible => by cases impossible) run
  rcases grow_eq_ok.mp grown with ⟨read, walk, reading, steps, rfl⟩
  rw [occurrences_record, Array.toList_push, occurrences_run steps] at listed
  rcases List.mem_append.mp listed with old | new
  · exact same occurrence old
  · rcases readMarker_eq_ok reading with ⟨sameMarker, path⟩
    rw [← sameMarker] at path
    rw [List.mem_singleton.mp new]
    exact (@terminates_of_readPath (occurrenceOf walk read).marker _ path).symm

/-- The marker named beside an error is the same, looked for among the occurrences or
among the markers. -/
theorem find?_terminator (recorded : outline.occurrences.toList.map Occurrence.marker =
      inDocumentOrder markers)
    (same : ∀ occurrence ∈ outline.occurrences.toList,
      occurrence.terminates = occurrence.marker.terminates) (offset : Nat) :
    (outline.occurrences.find? fun occurrence =>
        occurrence.terminates && decide (offset < occurrence.offset)).map Occurrence.marker =
      nextTerminator? markers offset := by
  unfold nextTerminator?
  rw [← recorded, List.find?_map, ← Array.find?_toList]
  congr 1
  refine List.find?_congr fun occurrence listed => ?_
  rw [same occurrence listed]
  rfl

/-- The first mention of a dimension is the marker that opens it. -/
theorem firstMention?_of_opensAt (bounded : WellBounded markers outline) {id index : Nat}
    {occurrence : Occurrence} (found : outline.occurrences[index]? = some occurrence)
    (opens : id ∈ occurrence.opens) (array : outline.scopeIs Scope.isArray id = true) :
    outline.firstMention? id = some occurrence := by
  unfold firstMention?
  cases mention : outline.occurrences.find? fun occurrence => occurrence.opens.contains id with
  | none =>
    have misses := Array.find?_eq_none.mp mention occurrence (Array.mem_of_getElem? found)
    simp [opens] at misses
  | some other =>
    have otherOpens : id ∈ other.opens := by simpa using Array.find?_some mention
    rcases Array.getElem?_of_mem (Array.mem_of_find?_eq_some mention) with ⟨place, otherFound⟩
    have one := (bounded.opened id array).unique ⟨other, otherFound, otherOpens⟩
      ⟨occurrence, found, opens⟩
    rw [one, found] at otherFound
    exact otherFound.symm

/-! ## The policy -/

theorem unterminated?_eq_none {scope : Scope} {id : ScopeId} :
    unterminated? outline (scope, id) = none ↔ ¬ (scope.isArray = true ∧ scope.hasEnd = false) := by
  unfold unterminated? Scope.isArray Scope.hasEnd Scope.closing?
  cases scope.dimension? with
  | none => simp
  | some dimension => cases closing : dimension.closing <;> simp [closing]

theorem unterminated?_eq_some {scope : Scope} {id : ScopeId} {error : Error}
    (refused : unterminated? outline (scope, id) = some error) :
    ∃ dimension, scope.dimension? = some dimension ∧ scope.isArray = true ∧
      scope.hasEnd = false ∧ error = neverClosed outline id scope dimension := by
  unfold unterminated? at refused
  cases kind : scope.dimension? with
  | none => simp [kind] at refused
  | some dimension =>
    simp only [kind] at refused
    split at refused
    · next endless =>
      rw [Option.isNone_iff_eq_none] at endless
      refine ⟨dimension, rfl, ?_, ?_, (Option.some.inj refused).symm⟩
      · rw [Scope.isArray, kind]
        rfl
      · rw [Scope.hasEnd, Scope.closing?, kind, Option.bind_some, endless]
        rfl
    · cases refused

theorem endless_iff {id : ScopeId} {scope : Scope} (found : outline.scopes[id]? = some scope) :
    outline.Endless id ↔ scope.isArray = true ∧ scope.hasEnd = false := by
  unfold Endless
  rw [scopeIs_eq found, scopeIs_eq found]

theorem Endless.exists_scope {id : ScopeId} (endless : outline.Endless id) :
    ∃ scope, outline.scopes[id]? = some scope := by
  rcases scopeIs_eq_true.mp endless.1 with ⟨scope, found, -⟩
  exact ⟨scope, found⟩

theorem getElem?_of_mem_zipIdx {item : Scope × ScopeId}
    (listed : item ∈ outline.scopes.toList.zipIdx) : outline.scopes[item.2]? = some item.1 := by
  simpa using List.mk_mem_zipIdx_iff_getElem?.mp listed

/-- Where every repetition is ended the policies agree. -/
theorem settle_strict_of_ended (ended : ∀ id, ¬ outline.Endless id) :
    settle .strict outline = .ok outline := by
  have faultless : outline.scopes.toList.zipIdx.findSome? (unterminated? outline) = none := by
    rw [List.findSome?_eq_none_iff]
    rintro ⟨scope, id⟩ listed
    rw [unterminated?_eq_none, ← endless_iff (getElem?_of_mem_zipIdx listed)]
    exact ended id
  unfold settle
  simp only [faultless]

/-- Otherwise the strict policy refuses the first repetition without an end. -/
theorem settle_strict_of_endless (some : ∃ id, outline.Endless id) :
    ∃ (id : ScopeId) (scope : Scope) (dimension : Dimension),
      IsLeast {id | outline.Endless id} id ∧ outline.scopes[id]? = .some scope ∧
      scope.dimension? = .some dimension ∧
      settle .strict outline = .error (neverClosed outline id scope dimension) := by
  cases faulty : outline.scopes.toList.zipIdx.findSome? (unterminated? outline) with
  | none =>
    rcases some with ⟨id, endless⟩
    rcases endless.exists_scope with ⟨scope, found⟩
    have listed : (scope, id) ∈ outline.scopes.toList.zipIdx :=
      List.mk_mem_zipIdx_iff_getElem?.mpr (by simpa using found)
    have passes := List.findSome?_eq_none_iff.mp faulty _ listed
    exact absurd ((endless_iff found).mp endless) (unterminated?_eq_none.mp passes)
  | some error =>
    rcases List.findSome?_eq_some_iff.mp faulty with ⟨front, ⟨scope, id⟩, back, split, refused, before⟩
    rcases unterminated?_eq_some refused with ⟨dimension, kind, array, unended, rfl⟩
    have listed : (scope, id) ∈ outline.scopes.toList.zipIdx := by
      rw [split]
      exact List.mem_append_right _ (.head _)
    have found := getElem?_of_mem_zipIdx listed
    refine ⟨id, scope, dimension, ⟨(endless_iff found).mpr ⟨array, unended⟩, ?_⟩, found, kind, ?_⟩
    · intro other endless
      rcases endless.exists_scope with ⟨scope', found'⟩
      by_contra smaller
      -- A smaller number stands in front, where nothing was refused.
      have ascending : (outline.scopes.toList.zipIdx.map Prod.snd).Pairwise (· < ·) := by
        rw [List.zipIdx_map_snd]
        exact List.pairwise_lt_range'
      have listed' : (scope', other) ∈ outline.scopes.toList.zipIdx :=
        List.mk_mem_zipIdx_iff_getElem?.mpr (by simpa using found')
      rw [split] at ascending listed'
      rw [List.map_append, List.map_cons, List.pairwise_append, List.pairwise_cons] at ascending
      rcases List.mem_append.mp listed' with early | late
      · exact unterminated?_eq_none.mp (before _ early) ((endless_iff found').mp endless)
      · rcases List.mem_cons.mp late with same | behind
        · cases same
          exact smaller (Nat.le_refl _)
        · exact smaller (Nat.le_of_lt (ascending.2.1.1 other (List.mem_map_of_mem behind)))
    · unfold settle
      simp only [faulty]

/-! ## Documents -/

theorem ofMarkers_permissive_eq_ok :
    ofMarkers markers .permissive = .ok outline ↔
      ∃ growth, (inDocumentOrder markers).foldlM grow Growth.start = .ok growth ∧
        growth.outline = outline := by
  unfold ofMarkers
  rw [bind_eq_ok]
  constructor
  · rintro ⟨growth, grown, settled⟩
    cases settled
    exact ⟨growth, grown, rfl⟩
  · rintro ⟨growth, grown, rfl⟩
    exact ⟨growth, grown, rfl⟩

theorem ofMarkers_permissive_eq_error {error : Error} :
    ofMarkers markers .permissive = .error error ↔
      (inDocumentOrder markers).foldlM grow Growth.start = .error error := by
  unfold ofMarkers
  rw [bind_eq_error]
  constructor
  · rintro (failed | ⟨growth, -, settled⟩)
    · exact failed
    · cases settled
  · exact .inl

/-- The strict policy refuses just the documents in which a repetition is never ended. -/
theorem strict_iff_permissive_ended (markers : List Marker) :
    (∀ error, ofMarkers markers .permissive = .error error →
      ofMarkers markers .strict = .error error) ∧
    ∀ outline, ofMarkers markers .permissive = .ok outline →
      ((∀ id, ¬ outline.Endless id) → ofMarkers markers .strict = .ok outline) ∧
      ((∃ id, outline.Endless id) → ∃ id index dimension marker,
        IsLeast {id | outline.Endless id} id ∧ outline.OpensAt id index ∧
        (inDocumentOrder markers)[index]? = some marker ∧
        outline.scopes[id]?.bind Scope.dimension? = some dimension ∧
        ofMarkers markers .strict = .error (.brokenRepetition marker.path marker.offset
          (.neverClosed dimension.iterator)
          ((nextTerminator? markers marker.offset).map fun next => (next.path, next.offset)))) := by
  constructor
  · intro error failed
    exact bind_eq_error.mpr (.inl (ofMarkers_permissive_eq_error.mp failed))
  · intro outline accepted
    rcases ofMarkers_permissive_eq_ok.mp accepted with ⟨growth, grown, rfl⟩
    have strict : ofMarkers markers .strict = settle .strict growth.outline := by
      unfold ofMarkers
      rw [grown]
      rfl
    rw [strict]
    refine ⟨settle_strict_of_ended, fun some => ?_⟩
    have formed := wellFormed_of_ofMarkers accepted
    rcases settle_strict_of_endless some with ⟨id, scope, dimension, least, found, kind, refused⟩
    rcases (formed.dimensions.opened id least.1.1).exists with
      ⟨index, occurrence, foundOccurrence, opens⟩
    have registered := registered_of_growth grown
    have opened := registered.opened index occurrence id scope foundOccurrence opens found
    have recorded := formed.register.recorded
    refine ⟨id, index, dimension, occurrence.marker, least, ⟨occurrence, foundOccurrence, opens⟩,
      ?_, ?_, ?_⟩
    · rw [← recorded, List.getElem?_map, Array.getElem?_toList, foundOccurrence]
      rfl
    · rw [found]
      exact kind
    · rw [refused, ← find?_terminator recorded (terminates_of_growth grown)]
      unfold neverClosed mentionOf?
      rw [firstMention?_of_opensAt formed.dimensions foundOccurrence opens least.1.1, opened,
        Option.map_map]
      rfl

/-- The second repetition has no end, though a terminator stands behind its marker. -/
def halfEnded : List Marker :=
  [⟨0, "d.rows[i].id"⟩, ⟨4, "d.cols[k].id"⟩, ⟨8, "d.rows[i+1].id"⟩]

theorem halfEnded_permissive :
    ((ofMarkers halfEnded .permissive).map fun outline =>
      outline.scopeIs Scope.isArray 2 && !outline.scopeIs Scope.hasEnd 2).toOption = some true := by
  decide +kernel

theorem halfEnded_refused :
    ∃ outline, ofMarkers halfEnded .permissive = .ok outline ∧
      ∃ id index dimension marker, IsLeast {id | outline.Endless id} id ∧
        outline.OpensAt id index ∧ (inDocumentOrder halfEnded)[index]? = some marker ∧
        outline.scopes[id]?.bind Scope.dimension? = some dimension ∧
        ofMarkers halfEnded .strict = .error (.brokenRepetition marker.path marker.offset
          (.neverClosed dimension.iterator)
          ((nextTerminator? halfEnded marker.offset).map fun next => (next.path, next.offset))) := by
  have permissive := halfEnded_permissive
  cases made : ofMarkers halfEnded .permissive with
  | error _ =>
    rw [made] at permissive
    cases permissive
  | ok outline =>
    rw [made] at permissive
    have endless : outline.Endless 2 := by
      unfold Endless
      simpa [Except.map, Except.toOption] using permissive
    exact ⟨outline, rfl, ((strict_iff_permissive_ended halfEnded).2 outline made).2 ⟨2, endless⟩⟩

end Outline

end Stencil
