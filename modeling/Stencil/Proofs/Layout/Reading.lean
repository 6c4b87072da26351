import Mathlib.Data.List.Nodup
import Stencil.Proofs.Layout.Hosts
import Stencil.Proofs.Outline.Register

namespace Stencil.Layout

open Outline (Rooted Coherent Registered)

/-!
# Which repetitions are being read

Behind every marker the sweep is reading just the repetitions that have begun there
and have not ended, each inside those before it.  So what the sweep compares a
marker with is a matter of the outline alone.
-/

variable {outline : Outline} {occurrence : Occurrence} {sweep after : Sweep}

/-- A repetition with both ends that has begun behind a marker and has not ended. -/
def OpenBehind (outline : Outline) (point : Nat) (id : ScopeId) : Prop :=
  ∃ scope closing, outline.scopes[id]? = some scope ∧ scope.closing? = some closing ∧
    scope.opened.point ≤ point ∧ point < closing.point

/-- A marker ends what it closes and begins what it opens. -/
theorem openBehind_succ {markers : List Marker} (registered : Registered markers outline)
    {index : Nat} (found : outline.occurrences[index]? = some occurrence) (id : ScopeId) :
    OpenBehind outline (index + 1) id ↔
      OpenBehind outline index id ∧ id ∉ occurrence.closes ∨
        id ∈ occurrence.opens ∧ outline.scopeIs Scope.hasEnd id = true := by
  constructor
  · rintro ⟨scope, closing, foundScope, ended, begun, going⟩
    rcases Nat.lt_or_eq_of_le begun with earlier | here
    · refine .inl ⟨⟨scope, closing, foundScope, ended, Nat.le_of_lt_succ earlier,
        Nat.lt_of_succ_lt going⟩, ?_⟩
      rw [registered.mem_closes_iff found ((Outline.closingOf_eq foundScope).trans ended)]
      exact Nat.ne_of_gt going
    · have ends : scope.hasEnd = true := by
        rw [Scope.hasEnd, ended]
        rfl
      have array := Outline.isArray_of_closing? ended
      exact .inr ⟨(registered.mem_opens_iff found foundScope array).mpr here,
        (Outline.scopeIs_eq foundScope).trans ends⟩
  · rintro (⟨⟨scope, closing, foundScope, ended, begun, going⟩, stays⟩ | ⟨opens, ends⟩)
    · refine ⟨scope, closing, foundScope, ended, Nat.le_succ_of_le begun, ?_⟩
      rw [registered.mem_closes_iff found ((Outline.closingOf_eq foundScope).trans ended)] at stays
      exact Nat.lt_of_le_of_ne going (Ne.symm stays)
    · rcases Outline.scopeIs_eq_true.mp ends with ⟨scope, foundScope, closed⟩
      rcases Option.isSome_iff_exists.mp closed with ⟨closing, ended⟩
      have begins := (registered.mem_opens_iff found foundScope
        (Outline.isArray_of_closing? ended)).mp opens
      have later := registered.order id scope closing foundScope
        ((Outline.closingOf_eq foundScope).trans ended)
      rw [begins] at later
      exact ⟨scope, closing, foundScope, ended, Nat.le_of_eq begins, later⟩

namespace Sweep

/-! ## One operation -/

/-- No repetition is being read twice. -/
theorem Nested.nodup (rooted : Rooted outline) {reading : List ScopeId}
    (nested : Nested outline reading) : reading.Nodup := by
  cases reading using List.reverseRecOn with
  | nil => exact List.nodup_nil
  | append_singleton front last =>
    rw [nested front last (List.prefix_refl _)]
    apply List.Nodup.filter
    by_cases bound : last < outline.scopes.size
    · exact Outline.nodup_ancestry rooted bound
    · rw [Outline.ancestry_of_size_le (Nat.le_of_not_lt bound)]
      exact List.nodup_nil

theorem mem_reading_closed (rooted : Rooted outline) (nested : Nested outline sweep.reading)
    {row : OpenRow} {rest : List OpenRow} (rows : sweep.rows = row :: rest) (place : Nat)
    (id : ScopeId) :
    id ∈ (sweep.closed row rest place).reading ↔ id ∈ sweep.reading ∧ id ≠ row.scope := by
  have split : sweep.reading = (sweep.closed row rest place).reading ++ [row.scope] := by
    simp [reading, closed, rows]
  have once := nested.nodup rooted
  rw [split, List.nodup_append] at once
  rw [split, List.mem_append, List.mem_singleton]
  constructor
  · intro member
    exact ⟨.inl member, once.2.2 id member row.scope (List.mem_singleton_self _)⟩
  · rintro ⟨member | same, differs⟩
    · exact member
    · exact absurd same differs

theorem mem_reading_opened {scope : Scope} {id : ScopeId} (place : Nat) (other : ScopeId) :
    other ∈ (sweep.opened scope id place).reading ↔
      other ∈ sweep.reading ∨ other = id ∧ scope.hasEnd = true := by
  cases ends : scope.hasEnd with
  | false => simp [reading, opened, rowOf?_eq_none ends]
  | true =>
    have made : ∃ row, rowOf? scope id place = some row ∧ row.scope = id := rowOf?_eq_some ends
    rcases made with ⟨row, made, named⟩
    simp [reading, opened, made, named, or_comm]

theorem reading_inserted (sweep : Sweep) (id : SlotId) (host : Option ScopeId) (place : Nat) :
    (sweep.inserted id host place).reading = sweep.reading := by
  simp [reading, inserted, reading_extendTail]

theorem reading_passed (sweep : Sweep) (place : Nat) :
    (sweep.passed place).reading = sweep.reading := by
  unfold passed
  split <;> rfl

/-! ## One marker -/

/-- Behind a marker the sweep reads on in what it did not end and what it began. -/
def Turns (outline : Outline) (occurrence : Occurrence) (sweep after : Sweep) : Prop :=
  Nested outline after.reading ∧ ∀ id, id ∈ after.reading ↔
    id ∈ sweep.reading ∧ id ∉ occurrence.closes ∨
      id ∈ occurrence.opens ∧ outline.scopeIs Scope.hasEnd id = true

theorem reading_closes (rooted : Rooted outline) (nested : Nested outline sweep.reading)
    {scopes : List ScopeId} (run : scopes.foldlM (close outline occurrence) sweep = .ok after) :
    Nested outline after.reading ∧
      ∀ id, id ∈ after.reading ↔ id ∈ sweep.reading ∧ id ∉ scopes := by
  refine foldlM_induction_from_nil
    (motive := fun taken state => Nested outline state.reading ∧
      ∀ id, id ∈ state.reading ↔ id ∈ sweep.reading ∧ id ∉ taken)
    (fun taken scope before after holds run => ?_) scopes ⟨nested, fun id => by simp⟩ run
  rcases close_eq_ok.mp run with ⟨row, rest, rows, rfl, rfl⟩
  refine ⟨holds.1.of_isPrefix (reading_closed rows), fun id => ?_⟩
  rw [mem_reading_closed rooted holds.1 rows, holds.2 id, List.mem_append, List.mem_singleton,
    not_or, and_assoc]

theorem reading_opens (rooted : Rooted outline) (nested : Nested outline sweep.reading)
    {scopes : List ScopeId} (run : scopes.foldlM (openRow outline occurrence) sweep = .ok after) :
    Nested outline after.reading ∧ ∀ id, id ∈ after.reading ↔
      id ∈ sweep.reading ∨ id ∈ scopes ∧ outline.scopeIs Scope.hasEnd id = true := by
  refine foldlM_induction_from_nil
    (motive := fun taken state => Nested outline state.reading ∧ ∀ id, id ∈ state.reading ↔
      id ∈ sweep.reading ∨ id ∈ taken ∧ outline.scopeIs Scope.hasEnd id = true)
    (fun taken id before after holds run => ?_) scopes ⟨nested, fun id => by simp⟩ run
  rcases openRow_eq_ok.mp run with ⟨scope, found, around, -, rfl⟩
  refine ⟨holds.1.opened rooted found around, fun other => ?_⟩
  rw [mem_reading_opened, holds.2 other, List.mem_append, List.mem_singleton, or_and_right, or_assoc]
  have same : other = id ∧ scope.hasEnd = true ↔
      other = id ∧ outline.scopeIs Scope.hasEnd other = true := by
    constructor
    · rintro ⟨rfl, ends⟩
      exact ⟨rfl, by rw [Outline.scopeIs_eq found, ends]⟩
    · rintro ⟨rfl, ends⟩
      rw [Outline.scopeIs_eq found] at ends
      exact ⟨rfl, ends⟩
  rw [same]

theorem reading_inserts {slots : List SlotId}
    (run : slots.foldlM (insert outline occurrence) sweep = .ok after) :
    after.reading = sweep.reading := by
  refine foldlM_induction (motive := fun state => state.reading = sweep.reading)
    (fun before id after _ same run => ?_) rfl run
  rcases insert_eq_ok.mp run with ⟨slot, host, -, -, -, rfl⟩
  rw [reading_inserted, same]

theorem turns_of_pass (rooted : Rooted outline) (nested : Nested outline sweep.reading)
    (run : pass outline sweep occurrence = .ok after) :
    Turns outline occurrence sweep after := by
  by_cases skips : sweep.Skips occurrence.offset
  · rw [pass_of_skips skips] at run
    rcases skip_eq_ok.mp run with ⟨closes, opens, rfl⟩
    have same : (sweep.passed occurrence.offset).reading = sweep.reading := reading_passed _ _
    refine ⟨by rw [← same] at nested; exact nested, fun id => ?_⟩
    have endless : id ∈ occurrence.opens → outline.scopeIs Scope.hasEnd id ≠ true :=
      fun member => List.find?_eq_none.mp opens id member
    show id ∈ (sweep.passed occurrence.offset).reading ↔ _
    rw [same, closes]
    constructor
    · exact fun member => .inl ⟨member, List.not_mem_nil⟩
    · rintro (⟨member, -⟩ | ⟨member, ends⟩)
      · exact member
      · exact absurd ends (endless member)
  · rw [pass_of_not_skips skips] at run
    rcases read_eq_ok.mp run with ⟨closed, opened, first, second, third⟩
    rcases reading_closes rooted nested first with ⟨nestedClosed, memberClosed⟩
    rcases reading_opens rooted nestedClosed second with ⟨nestedOpened, memberOpened⟩
    have same := reading_inserts third
    unfold Turns
    rw [same]
    refine ⟨nestedOpened, fun id => ?_⟩
    rw [memberOpened, memberClosed, List.mem_reverse]

/-! ## The whole sweep -/

/-- Behind a point of the document just the repetitions open there are being read. -/
structure Reads (outline : Outline) (point : Nat) (sweep : Sweep) : Prop where
  nested : Nested outline sweep.reading
  reading : ∀ id, id ∈ sweep.reading ↔ OpenBehind outline point id

theorem getElem?_of_isPrefix {taken : List Occurrence}
    (within : taken ++ [occurrence] <+: outline.occurrences.toList) :
    outline.occurrences[taken.length]? = some occurrence := by
  rcases within with ⟨rest, split⟩
  rw [← Array.getElem?_toList, ← split]
  simp

/-- Before the first marker nothing is open. -/
theorem not_openBehind_zero {markers : List Marker} (registered : Registered markers outline)
    (id : ScopeId) : ¬ OpenBehind outline 0 id := by
  rintro ⟨scope, closing, found, ended, begun, -⟩
  rcases registered.exists_opened found (Outline.isArray_of_closing? ended) with
    ⟨index, occurrence, -, -, opened⟩
  rw [opened] at begun
  exact Nat.not_succ_le_zero _ begun

theorem reads_of_run {markers : List Marker} (rooted : Rooted outline)
    (registered : Registered markers outline) {front : List Occurrence}
    (within : front <+: outline.occurrences.toList)
    (run : front.foldlM (pass outline) start = .ok sweep) :
    Reads outline front.length sweep := by
  refine foldlM_induction_along (motive := fun taken sweep => Reads outline taken.length sweep)
    (fun taken occurrence before after inside _ reads run => ?_) ?_ run
  · rcases turns_of_pass rooted reads.nested run with ⟨nested, turned⟩
    refine ⟨nested, fun id => ?_⟩
    rw [turned, reads.reading, List.length_append]
    exact (openBehind_succ registered (getElem?_of_isPrefix (inside.trans within)) id).symm
  · refine ⟨nested_nil outline, fun id => ?_⟩
    constructor
    · exact fun member => nomatch member
    · exact fun impossible => absurd impossible (not_openBehind_zero registered id)

end Sweep

end Stencil.Layout
