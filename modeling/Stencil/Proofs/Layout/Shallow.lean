import Stencil.Proofs.Layout.Seats

namespace Stencil.Layout

open Outline (Rooted Coherent Registered ofMarkers)

/-!
# Values of outer scopes inside a repetition

A value may stand inside a repetition that its own scope knows nothing of.  It is then
emitted with every row of that repetition.  The sweep recognizes this by the dimensions
around the scope of the value: they have to be the outermost of the repetitions that are
being read.  A dimension that has no end in the document is never being read, so a value
below one is turned away wherever a repetition is being read that it does not lie in.
-/

variable {outline : Outline} {occurrence : Occurrence} {before sweep after : Sweep}
  {markers : List Marker} {id : SlotId} {slot : Slot}

/-! ## Dimensions with and without an end -/

/-- The repetitions around a scope are its dimensions that have an end. -/
theorem repetitionsAround_eq_filter (outline : Outline) (id : ScopeId) :
    outline.repetitionsAround id =
      (outline.dimensionsAround id).filter (outline.scopeIs Scope.hasEnd) := by
  unfold Outline.repetitionsAround Outline.dimensionsAround
  rw [List.filter_filter]
  apply List.filter_congr
  intro other _
  cases ends : outline.scopeIs Scope.hasEnd other with
  | false => rfl
  | true => rw [Outline.isArray_of_hasEnd ends, Bool.and_self]

/-- Scopes whose dimensions lie around another are in the outermost of its dimensions. -/
theorem dimensionsAround_isPrefix_of_subset (rooted : Rooted outline) {scope inner : ScopeId}
    (bound : scope < outline.scopes.size)
    (within : ∀ around ∈ outline.dimensionsAround scope, around ∈ outline.ancestry inner) :
    outline.dimensionsAround scope <+: outline.dimensionsAround inner := by
  cases innermost : outline.dimensionAround? scope with
  | none =>
    have nothing : outline.dimensionsAround scope = [] := List.getLast?_eq_none_iff.mp innermost
    rw [nothing]
    exact List.nil_prefix
  | some last =>
    have member := within last (List.mem_of_getLast? innermost)
    have begins := Outline.dimensionsAround_isPrefix_of_mem rooted
      (Outline.bound_of_mem_ancestry member) member
    rwa [Outline.dimensionsAround_dimensionAround? rooted bound innermost] at begins

/-- The innermost repetition around a body of the document. -/
def rowAround? (outline : Outline) (body : Option ScopeId) : Option ScopeId :=
  body.bind fun id => (outline.repetitionsAround id).getLast?

namespace Sweep

/-- The innermost of the repetitions being read has just these around it. -/
theorem Nested.innermost {reading : List ScopeId} (nested : Nested outline reading) {host : ScopeId}
    (last : reading.getLast? = some host) : reading = outline.repetitionsAround host := by
  rcases List.getLast?_eq_some_iff.mp last with ⟨front, rfl⟩
  exact nested front host (List.prefix_refl _)

/-- Wherever a value is emitted, the innermost repetition there is the one being read. -/
theorem rowAround?_of_hostOf? (rooted : Rooted outline) {reading : List ScopeId}
    (nested : Nested outline reading) {scope : ScopeId} {host : Option ScopeId}
    (bound : scope < outline.scopes.size)
    (hosted : hostOf? (outline.dimensionsAround scope) (outline.repetitionsAround scope) reading =
      some host) : rowAround? outline host = reading.getLast? := by
  unfold hostOf? at hosted
  split at hosted
  · next own =>
    cases hosted
    cases innermost : (outline.dimensionsAround scope).getLast? with
    | none =>
      have nothing := List.getLast?_eq_none_iff.mp innermost
      rw [repetitionsAround_eq_filter, nothing] at own
      rw [← own]
      rfl
    | some inner =>
      have same := Outline.dimensionsAround_dimensionAround? rooted bound innermost
      show (outline.repetitionsAround inner).getLast? = _
      rw [repetitionsAround_eq_filter, same, ← repetitionsAround_eq_filter, own]
  · split at hosted
    · cases hosted
      cases last : reading.getLast? with
      | none => rfl
      | some host =>
        show (outline.repetitionsAround host).getLast? = _
        rw [← nested.innermost last, last]
    · cases hosted

/-! ## Where a shallow value is emitted -/

section Shallow

variable {scope host : ScopeId} {reading : List ScopeId}

/-- Inside a repetition a value of a scope around it is emitted from the repetition if
all dimensions around the scope have ends. -/
theorem hostOf?_eq_of_ended (rooted : Rooted outline) (nested : Nested outline reading)
    (bound : scope < outline.scopes.size) (last : reading.getLast? = some host)
    (shallow : ∀ around ∈ outline.dimensionsAround scope,
      around ∈ outline.ancestry host ∧ around ≠ host)
    (ended : ∀ around ∈ outline.dimensionsAround scope,
      outline.scopeIs Scope.hasEnd around = true) :
    hostOf? (outline.dimensionsAround scope) (outline.repetitionsAround scope) reading =
      some (some host) := by
  have outermost := dimensionsAround_isPrefix_of_subset rooted bound
    fun around member => (shallow around member).1
  have own := nested.innermost last
  have allEnded : outline.repetitionsAround scope = outline.dimensionsAround scope := by
    rw [repetitionsAround_eq_filter]
    exact List.filter_eq_self.mpr ended
  have begins : outline.dimensionsAround scope <+: reading := by
    rw [← allEnded, own, repetitionsAround_eq_filter, repetitionsAround_eq_filter]
    exact outermost.filter _
  have differs : outline.dimensionsAround scope ≠ reading := by
    intro same
    have member : host ∈ outline.dimensionsAround scope := by
      rw [same]
      exact List.mem_of_getLast? last
    exact (shallow host member).2 rfl
  have shorter : (outline.dimensionsAround scope).length < reading.length := by
    apply Nat.lt_of_le_of_ne begins.length_le
    intro same
    exact differs (begins.eq_of_length same)
  unfold hostOf?
  rw [allEnded, if_neg differs, if_pos ⟨shorter, List.prefix_iff_eq_take.mp begins⟩, last]

/-- It has a host only if all dimensions around its scope have ends. -/
theorem ended_of_hostOf? (nested : Nested outline reading) (last : reading.getLast? = some host)
    (shallow : ∀ around ∈ outline.dimensionsAround scope,
      around ∈ outline.ancestry host ∧ around ≠ host) {found : Option ScopeId}
    (hosted : hostOf? (outline.dimensionsAround scope) (outline.repetitionsAround scope) reading =
      some found) :
    ∀ around ∈ outline.dimensionsAround scope, outline.scopeIs Scope.hasEnd around = true := by
  unfold hostOf? at hosted
  split at hosted
  · next own =>
    have member : host ∈ outline.repetitionsAround scope := by
      rw [own]
      exact List.mem_of_getLast? last
    exact absurd rfl (shallow host (repetitionsAround_subset outline scope member)).2
  · split at hosted
    · next shorter =>
      intro around member
      rw [shorter.2] at member
      have listed := List.mem_of_mem_take member
      rw [nested.innermost last] at listed
      exact (List.mem_filter.mp listed).2
    · cases hosted

/-- A host is the innermost dimension around the scope or the repetition being read. -/
theorem host_cases {chain bounded : List ScopeId} {found : Option ScopeId}
    (hosted : hostOf? chain bounded reading = some found) :
    found = chain.getLast? ∨ found = reading.getLast? := by
  unfold hostOf? at hosted
  split at hosted
  · cases hosted
    exact .inl rfl
  · split at hosted
    · cases hosted
      exact .inr rfl
    · cases hosted

end Shallow

/-! ## The sweep at a value -/

/-- What a marker ends and begins before its value is inserted. -/
def turn (outline : Outline) (occurrence : Occurrence) (sweep : Sweep) : Except Error Sweep := do
  let closed ← occurrence.closes.reverse.foldlM (close outline occurrence) sweep
  occurrence.opens.foldlM (openRow outline occurrence) closed

/-- The sweep comes to the value of a marker: it has passed the markers before, does not
skip this one, and has ended and begun what this one ends and begins. -/
structure ComesTo (outline : Outline) (occurrence : Occurrence) (id : SlotId)
    (before sweep : Sweep) : Prop where
  passed : ∃ index, outline.occurrences[index]? = some occurrence ∧
    (outline.occurrences.toList.take index).foldlM (pass outline) start = .ok before
  reads : ¬ before.Skips occurrence.offset
  turned : turn outline occurrence before = .ok sweep
  inserts : occurrence.slot = some id

/-- The markers before and behind. -/
theorem ComesTo.split (comes : ComesTo outline occurrence id before sweep) :
    ∃ front back, outline.occurrences.toList = front ++ occurrence :: back ∧
      front.foldlM (pass outline) start = .ok before := by
  rcases comes.passed with ⟨index, found, ran⟩
  rcases Array.getElem?_eq_some_iff.mp found with ⟨bound, here⟩
  refine ⟨_, outline.occurrences.toList.drop (index + 1), ?_, ran⟩
  rw [← here, ← Array.getElem_toList, List.cons_getElem_drop_succ, List.take_append_drop]

/-- What is left to do there is to insert the value. -/
theorem ComesTo.pass_eq (comes : ComesTo outline occurrence id before sweep) :
    pass outline before occurrence = insert outline occurrence sweep id := by
  have split : read outline occurrence before =
      turn outline occurrence before >>=
        occurrence.slot.toList.foldlM (insert outline occurrence) := by
    unfold read turn
    rw [bind_assoc]
  rw [pass_of_not_skips comes.reads, split, comes.turned, comes.inserts]
  show (do
    let inserted ← insert outline occurrence sweep id
    [].foldlM (insert outline occurrence) inserted) = _
  cases insert outline occurrence sweep id <;> rfl

/-- A marker with a value ends nothing, so the sweep does not stand behind it. -/
theorem ComesTo.nested {growth : Outline.Growth}
    (grown : markers.foldlM Outline.grow Outline.Growth.start = .ok growth)
    (comes : ComesTo growth.outline occurrence id before sweep) :
    Nested growth.outline sweep.reading ∧ sweep.position ≤ occurrence.offset := by
  have coherent := (Outline.sound_growth Outline.sound_start grown).coherent
  have registered := Outline.registered_of_growth grown
  rcases comes.split with ⟨front, back, split, ran⟩
  have listed : occurrence ∈ growth.outline.occurrences.toList := by
    rw [split]
    simp
  have ends : occurrence.closes = [] := by
    by_contra closes
    have nothing := Outline.slot_eq_none_of_closes grown occurrence listed closes
    rw [comes.inserts] at nothing
    cases nothing
  have start := reads_of_run coherent.rooted registered ⟨occurrence :: back, split.symm⟩ ran
  have begins : occurrence.opens.foldlM (openRow growth.outline occurrence) before = .ok sweep := by
    have turned := comes.turned
    unfold turn at turned
    rw [ends] at turned
    exact turned
  refine ⟨(reading_opens coherent.rooted start.nested begins).1, ?_⟩
  refine foldlM_induction (motive := fun state => state.position ≤ occurrence.offset)
    (fun state scope next _ _ run => ?_) ?_ begins
  · rcases openRow_eq_ok.mp run with ⟨found, -, -, -, rfl⟩
    exact Nat.le_refl _
  · exact Nat.le_of_not_lt fun passed => comes.reads (.inl passed)

theorem host_inserted (sweep : Sweep) (id : SlotId) (host : Option ScopeId) (place : Nat) :
    (sweep.inserted id host place).plan.host id = host := by
  show (((id, host) :: sweep.plan.hosts).lookup id).join = host
  rw [List.lookup_cons, beq_self_eq_true]
  rfl

/-- The marker is accepted just if its value has a host there. -/
theorem ComesTo.pass_eq_ok (comes : ComesTo outline occurrence id before sweep)
    (found : outline.slots[id]? = some slot) (forward : sweep.position ≤ occurrence.offset) :
    pass outline before occurrence = .ok after ↔ ∃ host,
      hostOf? (outline.dimensionsAround slot.scope) (outline.repetitionsAround slot.scope)
        sweep.reading = some host ∧ after = sweep.inserted id host occurrence.offset := by
  rw [comes.pass_eq]
  constructor
  · intro run
    rcases insert_eq_ok.mp run with ⟨other, host, same, hosted, -, rfl⟩
    rw [found] at same
    cases same
    exact ⟨host, hosted, rfl⟩
  · rintro ⟨host, hosted, rfl⟩
    exact insert_eq_ok.mpr ⟨slot, host, found, hosted, forward, rfl⟩

/-- A layout of the document says where the value is emitted. -/
theorem ComesTo.laid (comes : ComesTo outline occurrence id before sweep)
    (coherent : Coherent outline) (run : pass outline before occurrence = .ok after)
    {text : String} {layout : Layout} (laid : ofText outline text = .ok layout) :
    layout.omits id = false ∧ layout.host outline id = after.plan.host id := by
  rcases comes.split with ⟨front, back, split, ran⟩
  rcases decided_of_ofText coherent split comes.inserts laid with
    ⟨again, decided, ranAgain, runAgain, host, omitted⟩
  rw [ran] at ranAgain
  cases ranAgain
  rw [run] at runAgain
  cases runAgain
  exact ⟨Bool.eq_false_iff.mpr fun omits => comes.reads (omitted.mp omits), host⟩

end Sweep

/-! ## Documents -/

/-- A value that stands in a repetition inside all dimensions around its scope is accepted
there just if these dimensions all have ends, and then it is emitted from that repetition.
Whatever value is accepted is emitted from the innermost dimension around its scope or
from the innermost repetition being read, and a layout of the document says so. -/
theorem shallow_value_hosted {policy : Unterminated}
    (accepted : ofMarkers markers policy = .ok outline) (found : outline.slots[id]? = some slot)
    (comes : Sweep.ComesTo outline occurrence id before sweep) :
    (∀ host, sweep.reading.getLast? = some host →
      (∀ around ∈ outline.dimensionsAround slot.scope,
        around ∈ outline.ancestry host ∧ around ≠ host) →
      ((∃ after, Sweep.pass outline before occurrence = .ok after) ↔
        ∀ around ∈ outline.dimensionsAround slot.scope,
          outline.scopeIs Scope.hasEnd around = true) ∧
      ∀ after, Sweep.pass outline before occurrence = .ok after →
        after.plan.host id = some host) ∧
      ∀ after, Sweep.pass outline before occurrence = .ok after →
        (after.plan.host id = outline.dimensionAround? slot.scope ∨
          after.plan.host id = sweep.reading.getLast?) ∧
        ∀ text layout, ofText outline text = .ok layout →
          layout.omits id = false ∧ layout.host outline id = after.plan.host id := by
  have coherent := Outline.coherent_of_ofMarkers accepted
  have bound := coherent.slotScope id slot found
  rcases Outline.ofMarkers_eq_ok accepted with ⟨growth, grown, rfl⟩
  rcases comes.nested grown with ⟨nested, forward⟩
  constructor
  · intro host last shallow
    have hosts : ∀ after, Sweep.pass growth.outline before occurrence = .ok after →
        (∀ around ∈ growth.outline.dimensionsAround slot.scope,
          growth.outline.scopeIs Scope.hasEnd around = true) ∧ after.plan.host id = some host := by
      intro after run
      rcases (comes.pass_eq_ok found forward).mp run with ⟨other, hosted, rfl⟩
      have ended := Sweep.ended_of_hostOf? nested last shallow hosted
      rw [Sweep.hostOf?_eq_of_ended coherent.rooted nested bound last shallow ended] at hosted
      cases hosted
      exact ⟨ended, Sweep.host_inserted _ _ _ _⟩
    refine ⟨⟨?_, fun ended => ?_⟩, fun after run => (hosts after run).2⟩
    · rintro ⟨after, run⟩
      exact (hosts after run).1
    · have hosted := Sweep.hostOf?_eq_of_ended coherent.rooted nested bound last shallow ended
      exact ⟨_, (comes.pass_eq_ok found forward).mpr ⟨some host, hosted, rfl⟩⟩
  · intro after run
    refine ⟨?_, fun text layout laid => comes.laid coherent run laid⟩
    rcases (comes.pass_eq_ok found forward).mp run with ⟨host, hosted, rfl⟩
    rw [Sweep.host_inserted]
    exact Sweep.host_cases hosted

/-- A value of the outer repetition stands in the inner one; the dimension between them has
no end. -/
def pagesMarkers : List Marker :=
  [⟨0, "d.pages[p].blocks[b].lines[l].text"⟩, ⟨3, "d.pages[p].title"⟩,
    ⟨5, "d.pages[p].blocks[b].lines[l+1].text"⟩, ⟨8, "d.pages[p+1].title"⟩]

theorem shallow_value_hosted_pages :
    ∃ outline slot occurrence before sweep after, ofMarkers pagesMarkers .permissive = .ok outline ∧
      outline.slots[1]? = some slot ∧ Sweep.ComesTo outline occurrence 1 before sweep ∧
      sweep.reading.getLast? = some 3 ∧ outline.dimensionsAround slot.scope = [1] ∧
      Sweep.pass outline before occurrence = .ok after ∧ after.plan.host 1 = some 3 := by
  have fits : (do
      let outline ← ofMarkers pagesMarkers .permissive
      let before ← (outline.occurrences.toList.take 1).foldlM (Sweep.pass outline) .start
      let occurrence : Occurrence ← outline.occurrences[1]?.elim (.error (.stopped 3 3)) .ok
      let slot : Slot ← outline.slots[1]?.elim (.error (.stopped 3 3)) .ok
      let sweep ← Sweep.turn outline occurrence before
      if ¬ before.Skips occurrence.offset ∧ occurrence.slot = some 1 ∧
          sweep.reading.getLast? = some 3 ∧ outline.dimensionsAround slot.scope = [1] ∧
          1 ∈ outline.ancestry 3 ∧ outline.scopeIs Scope.hasEnd 1 = true then .ok sweep
        else .error (.stopped 3 3) : Except Error Sweep).isOk = true := by
    decide +kernel
  rcases exists_of_isOk fits with ⟨_, run⟩
  rcases bind_eq_ok.mp run with ⟨outline, accepted, run⟩
  rcases bind_eq_ok.mp run with ⟨before, ran, run⟩
  rcases bind_eq_ok.mp run with ⟨occurrence, here, run⟩
  rcases bind_eq_ok.mp run with ⟨slot, found, run⟩
  rcases bind_eq_ok.mp run with ⟨sweep, turned, run⟩
  rw [elim_eq_ok] at here found
  split at run
  · next known =>
    rcases known with ⟨reads, inserts, last, around, inside, ended⟩
    have comes : Sweep.ComesTo outline occurrence 1 before sweep :=
      ⟨⟨1, here, ran⟩, reads, turned, inserts⟩
    have shallow : ∀ id ∈ outline.dimensionsAround slot.scope,
        id ∈ outline.ancestry 3 ∧ id ≠ 3 := by
      rw [around]
      intro id member
      rw [List.mem_singleton.mp member]
      exact ⟨inside, by decide⟩
    have hosted := (shallow_value_hosted accepted found comes).1 3 last shallow
    have accepts := hosted.1.mpr (by
      rw [around]
      intro id member
      rw [List.mem_singleton.mp member]
      exact ended)
    rcases accepts with ⟨after, passed⟩
    exact ⟨outline, slot, occurrence, before, sweep, after, accepted, found, comes, last, around,
      passed, hosted.2 after passed⟩
  · cases run

/-- The outer repetition has no end, and a value of it stands in the inner one. -/
def endlessPagesMarkers : List Marker :=
  [⟨0, "d.pages[p].lines[l].text"⟩, ⟨3, "d.pages[p].title"⟩, ⟨5, "d.pages[p].lines[l+1].text"⟩]

/-- All dimensions around the value lie around the repetition it stands in, and yet it is
turned away, since one of them has no end. -/
theorem shallow_value_refused :
    ∃ outline slot occurrence before sweep host,
      ofMarkers endlessPagesMarkers .permissive = .ok outline ∧ outline.slots[1]? = some slot ∧
      Sweep.ComesTo outline occurrence 1 before sweep ∧ sweep.reading.getLast? = some host ∧
      (∀ around ∈ outline.dimensionsAround slot.scope,
        around ∈ outline.ancestry host ∧ around ≠ host) ∧
      ¬ ∃ after, Sweep.pass outline before occurrence = .ok after := by
  have fails : (do
      let outline ← ofMarkers endlessPagesMarkers .permissive
      let before ← (outline.occurrences.toList.take 1).foldlM (Sweep.pass outline) .start
      let occurrence : Occurrence ← outline.occurrences[1]?.elim (.error (.stopped 3 3)) .ok
      let slot : Slot ← outline.slots[1]?.elim (.error (.stopped 3 3)) .ok
      let sweep ← Sweep.turn outline occurrence before
      if ¬ before.Skips occurrence.offset ∧ occurrence.slot = some 1 ∧
          sweep.reading.getLast? = some 2 ∧
          (∀ around ∈ outline.dimensionsAround slot.scope,
            around ∈ outline.ancestry 2 ∧ around ≠ 2) ∧
          (Sweep.pass outline before occurrence).isOk = false then .ok sweep
        else .error (.stopped 3 3) : Except Error Sweep).isOk = true := by
    decide +kernel
  rcases exists_of_isOk fails with ⟨_, run⟩
  rcases bind_eq_ok.mp run with ⟨outline, accepted, run⟩
  rcases bind_eq_ok.mp run with ⟨before, ran, run⟩
  rcases bind_eq_ok.mp run with ⟨occurrence, here, run⟩
  rcases bind_eq_ok.mp run with ⟨slot, found, run⟩
  rcases bind_eq_ok.mp run with ⟨sweep, turned, run⟩
  rw [elim_eq_ok] at here found
  split at run
  · next known =>
    rcases known with ⟨reads, inserts, last, shallow, refused⟩
    refine ⟨outline, slot, occurrence, before, sweep, 2, accepted, found,
      ⟨⟨1, here, ran⟩, reads, turned, inserts⟩, last, shallow, ?_⟩
    rintro ⟨after, passed⟩
    rw [passed] at refused
    cases refused
  · cases run

end Stencil.Layout
