import Stencil.Proofs.Layout.Tails
import Stencil.Proofs.Outline.Origins
import Stencil.Template

namespace Stencil.Layout

open Outline (Coherent Registered ofMarkers)

/-!
# Values where the second row would have the last one

The second row of a repetition would have the last value of the first at some place.  Where
that lies behind its last terminator, the sweep skips the markers of just that offset.  It
skips all of them, however many values the first row has at its end.  It reads all of them if
it ended or began a repetition or inserted a value before it came there.
-/

/-- The values whose markers are at an offset. -/
def slotsAt (outline : Outline) (place : Nat) : List SlotId :=
  (List.range outline.slots.size).filter fun id =>
    (outline.slots[id]?.map fun slot => slot.place.offset) == some place

/-- A value is emitted from the row of a repetition itself, none inside it. -/
def inRow (outline : Outline) (layout : Layout) (scope : ScopeId) (id : SlotId) : Bool :=
  rowAround? outline (layout.host outline id) == some scope

/-- The last values of a row stand at one place, and the second row of the repetition would
have them at the other. -/
structure Echoes (outline : Outline) (layout : Layout) (scope : ScopeId) (tail place : Nat) :
    Prop where
  mirrors : Mirrors outline scope tail place
  stands : ∃ id ∈ slotsAt outline tail, inRow outline layout scope id = true
  upTo : ∀ id slot, outline.slots[id]? = some slot → inRow outline layout scope id = true →
    slot.place.offset ≤ tail

/-- A place is in the row behind the end of a repetition, or where that row would have the
last value. -/
def PassesOver (outline : Outline) (layout : Layout) (scope : ScopeId) (place : Nat) : Prop :=
  (∃ closing last, outline.closingOf scope = some closing ∧
    outline.told Dimension.skipEnd scope = some last ∧ closing.offset ≤ place ∧ place < last) ∨
  ∃ tail, Echoes outline layout scope tail place

instance (outline : Outline) (scope : ScopeId) (tail place : Nat) :
    Decidable (Mirrors outline scope tail place) :=
  decidable_of_iff (∃ node ∈ outline.scopes[scope]?, ∃ closing ∈ outline.closingOf scope,
      ∃ last ∈ outline.told Dimension.skipEnd scope,
        closing.offset + (tail - node.opened.offset) = place ∧ last < place) <| by
    constructor
    · rintro ⟨node, found, closing, ended, last, resumes, known⟩
      exact ⟨node, closing, last, found, ended, resumes, known⟩
    · rintro ⟨node, closing, last, found, ended, resumes, known⟩
      exact ⟨node, found, closing, ended, last, resumes, known⟩

instance (outline : Outline) (layout : Layout) (scope : ScopeId) (tail place : Nat) :
    Decidable (Echoes outline layout scope tail place) :=
  decidable_of_iff (Mirrors outline scope tail place ∧
      (∃ id ∈ slotsAt outline tail, inRow outline layout scope id = true) ∧
        ∀ id, id < outline.slots.size → ∀ slot ∈ outline.slots[id]?,
          inRow outline layout scope id = true → slot.place.offset ≤ tail) <| by
    constructor
    · rintro ⟨mirrors, stands, upTo⟩
      refine ⟨mirrors, stands, fun id slot found inside => ?_⟩
      exact upTo id (Array.getElem?_eq_some_iff.mp found).1 slot found inside
    · rintro ⟨mirrors, stands, upTo⟩
      exact ⟨mirrors, stands, fun id _ slot found inside => upTo id slot found inside⟩

/-- Between the end of a repetition and a place behind its last terminator something else
is done. -/
def Interrupted (outline : Outline) (scope : ScopeId) (place : Nat) : Prop :=
  ∃ front ending back, outline.occurrences.toList = front ++ ending :: back ∧
    scope ∈ ending.closes ∧
    ((rolesOf ending).getLast? ≠ some (.separator scope) ∨
      ∃ other ∈ back, rolesOf other ≠ [] ∧ other.offset < place ∧
        ∃ last, outline.told Dimension.skipEnd scope = some last ∧ last ≤ other.offset)

variable {outline : Outline} {occurrence : Occurrence} {sweep after : Sweep} {markers : List Marker}
  {layout : Layout} {scope : ScopeId} {tail place : Nat} {taken front back : List Occurrence}

namespace Sweep

/-! ## What is done last -/

/-- A marker that is skipped, or does nothing, makes no piece.  The sweep moves only if it
awaited the marker. -/
theorem idle_of_pass (idle : sweep.Skips occurrence.offset ∨ rolesOf occurrence = [])
    (run : pass outline sweep occurrence = .ok after) :
    after.roles = sweep.roles ∧
      (after.position = sweep.position ∨ after.position = occurrence.offset) := by
  by_cases skips : sweep.Skips occurrence.offset
  · rw [pass_of_skips skips] at run
    rcases skip_eq_ok.mp run with ⟨-, -, rfl⟩
    unfold passed
    split
    · exact ⟨rfl, .inl rfl⟩
    · exact ⟨rfl, .inr rfl⟩
  · have nothing := idle.resolve_left skips
    rw [rolesOf_eq_map, List.map_eq_nil_iff] at nothing
    rw [pass_of_not_skips skips, read_eq_actions, nothing] at run
    cases foldlM_nil_eq_ok.mp run
    exact ⟨rfl, .inl rfl⟩

theorem roles_of_pass (reads : ¬ sweep.Skips occurrence.offset)
    (run : pass outline sweep occurrence = .ok after) :
    after.roles = sweep.roles ++ rolesOf occurrence := by
  rw [pass_of_not_skips reads] at run
  exact roles_read run

theorem roles_grow (run : taken.foldlM (pass outline) sweep = .ok after) :
    ∃ more, after.roles = sweep.roles ++ more := by
  rcases drawn_of_run run with ⟨more, further, -⟩
  refine ⟨more.pieces.map Piece.role, ?_⟩
  rw [roles, further]
  exact List.map_append

theorem nodup_roles_of_run (coherent : Coherent outline) (registered : Registered markers outline)
    (within : taken <+: outline.occurrences.toList)
    (run : taken.foldlM (pass outline) start = .ok sweep) : sweep.roles.Nodup := by
  have sublist : (unskipped outline start taken).Sublist outline.occurrences.toList :=
    (unskipped_sublist taken start).trans within.sublist
  rw [roles_of_run run]
  exact (sublist.flatMap rolesOf).nodup (nodup_roles coherent registered)

/-- The marker that ends a repetition is not skipped. -/
theorem reads_of_closes (closes : scope ∈ occurrence.closes)
    (run : pass outline sweep occurrence = .ok after) : ¬ sweep.Skips occurrence.offset := by
  intro skips
  rw [pass_of_skips skips] at run
  rcases skip_eq_ok.mp run with ⟨none, -, -⟩
  rw [none] at closes
  cases closes

/-- What was done, and then something else or something else before, is not the last thing
done. -/
theorem getLast?_ne_of_grown {early more : List Role} {role : Role} (once : (early ++ more).Nodup)
    (member : role ∈ early) (moved : more ≠ [] ∨ early.getLast? ≠ some role) :
    (early ++ more).getLast? ≠ some role := by
  intro last
  rw [List.getLast?_append] at last
  cases further : more.getLast? with
  | none =>
    rw [further, Option.none_or] at last
    exact moved.elim (fun longer => longer (List.getLast?_eq_none_iff.mp further)) fun ne => ne last
  | some other =>
    rw [further] at last
    cases last
    exact (List.nodup_append.mp once).2.2 role member role (List.mem_of_getLast? further) rfl

/-! ## How far the sweep is -/

/-- The sweep is no further than where it has looked, or at the last terminator of the
repetition it just ended. -/
def Reached (outline : Outline) (place : Nat) (sweep : Sweep) : Prop :=
  sweep.position ≤ place ∨ ∃ scope closing, sweep.roles.getLast? = some (.separator scope) ∧
    outline.closingOf scope = some closing ∧ closing.offset ≤ place ∧
    outline.told Dimension.skipEnd scope = some sweep.position

theorem Reached.mono {further : Nat} (reached : Reached outline place sweep)
    (later : place ≤ further) : Reached outline further sweep := by
  rcases reached with early | ⟨scope, closing, last, ended, before, resumes⟩
  · exact .inl (early.trans later)
  · exact .inr ⟨scope, closing, last, ended, before.trans later, resumes⟩

theorem Reached.act (registered : Registered markers outline)
    {sorted : List Marker} (bounded : Outline.WellBounded sorted outline) {index : Nat}
    (found : outline.occurrences[index]? = some occurrence) (rowsEnd : RowsEnd outline sweep)
    {action : Action} (listed : action ∈ actionsOf occurrence)
    (run : Sweep.act outline occurrence sweep action = .ok after) :
    Reached outline occurrence.offset after := by
  have more := roles_act run
  cases action with
  | close scope =>
    rcases close_eq_ok.mp run with ⟨row, rest, rows, rfl, rfl⟩
    have closes : row.scope ∈ occurrence.closes := by simpa [actionsOf] using listed
    have ended := registered.closingOf_of_closes found closes
    have last := rowsEnd row (by rw [rows]; exact .head _)
    have resume : max row.skipEnd occurrence.offset = row.skipEnd :=
      Nat.max_eq_left (closing_le_skipEnd bounded ended last)
    refine .inr ⟨row.scope, _, ?_, ended, Nat.le_refl _, ?_⟩
    · rw [more, List.getLast?_concat]
      rfl
    · show _ = some (max row.skipEnd occurrence.offset)
      rw [resume, last]
  | openRow id =>
    rcases openRow_eq_ok.mp run with ⟨node, -, -, -, rfl⟩
    exact .inl (Nat.le_refl _)
  | insert id =>
    rcases insert_eq_ok.mp run with ⟨slot, host, -, -, -, rfl⟩
    exact .inl (Nat.le_refl _)

theorem Reached.pass (registered : Registered markers outline)
    {sorted : List Marker} (bounded : Outline.WellBounded sorted outline) {index : Nat}
    (found : outline.occurrences[index]? = some occurrence) (rowsEnd : RowsEnd outline sweep)
    (reached : Reached outline occurrence.offset sweep)
    (run : Sweep.pass outline sweep occurrence = .ok after) :
    Reached outline occurrence.offset after := by
  by_cases skips : sweep.Skips occurrence.offset
  · rcases idle_of_pass (.inl skips) run with ⟨roles, same | here⟩
    · unfold Reached
      rw [roles, same]
      exact reached
    · exact .inl (Nat.le_of_eq here)
  · rw [pass_of_not_skips skips, read_eq_actions] at run
    have lasts := lastTerminators_of_wellBounded bounded
    exact (foldlM_induction (motive := fun state => Reached outline occurrence.offset state ∧
        RowsEnd outline state)
      (fun _ _ _ listed holds run =>
        ⟨Reached.act registered bounded found holds.2 listed run, holds.2.act lasts run⟩)
      ⟨reached, rowsEnd⟩ run).1

theorem reached_of_run (registered : Registered markers outline)
    {sorted : List Marker} (bounded : Outline.WellBounded sorted outline)
    (within : taken <+: outline.occurrences.toList)
    (run : taken.foldlM (Sweep.pass outline) start = .ok sweep)
    (ascending : outline.occurrences.toList.Pairwise fun left right => left.offset ≤ right.offset)
    (behind : ∀ other ∈ taken, other.offset ≤ place) : Reached outline place sweep := by
  refine foldlM_induction_along (motive := fun taken state => ∀ place,
      (∀ other ∈ taken, other.offset ≤ place) → Reached outline place state)
    (fun taken occurrence before after inside ran ih run place behind => ?_)
    (fun _ _ => .inl (Nat.zero_le _)) run place behind
  have begins : taken ++ [occurrence] <+: outline.occurrences.toList := inside.trans within
  have sorted := ascending.sublist begins.sublist
  rw [List.pairwise_append] at sorted
  have here := ih occurrence.offset fun other listed => sorted.2.2 other listed _ (.head _)
  have rowsEnd := (progress_of_run (lastTerminators_of_wellBounded bounded) ran).1
  exact (here.pass registered bounded (getElem?_of_isPrefix begins) rowsEnd run).mono
    (behind occurrence (by simp))

end Sweep

/-! ## The sweep of a document -/

/-- An accepted outline, and the sweep by which a document was laid out around it. -/
structure Course (markers : List Marker) (outline : Outline) (layout : Layout) (final : Sweep) :
    Prop where
  coherent : Coherent outline
  registered : Registered (Outline.inDocumentOrder markers) outline
  bounded : Outline.WellBounded markers outline
  ascending : outline.occurrences.toList.Pairwise fun left right => left.offset ≤ right.offset
  swept : outline.occurrences.toList.foldlM (Sweep.pass outline) .start = .ok final
  hosts : ∀ id, id < outline.slots.size → layout.host outline id = final.plan.host id

theorem course_of_ofText {policy : Unterminated} {text : String}
    (accepted : ofMarkers markers policy = .ok outline) (laid : ofText outline text = .ok layout) :
    ∃ final, Course markers outline layout final := by
  have wellFormed := Outline.wellFormed_of_ofMarkers accepted
  rcases ofText_eq_ok.mp laid with ⟨-, plan, made, rfl⟩
  rcases bind_eq_ok.mp made with ⟨final, swept, finished⟩
  rcases finish_plan finished with ⟨-, -, rfl⟩
  refine ⟨final, Outline.coherent_of_ofMarkers accepted, Outline.registered_of_ofMarkers accepted,
    wellFormed.dimensions, List.pairwise_map.mp wellFormed.register.ascending, swept, ?_⟩
  intro id bound
  rw [host_ofPlan _ _ _ bound]
  rfl

theorem mem_slotsAt {id : SlotId} : id ∈ slotsAt outline place ↔
    ∃ slot, outline.slots[id]? = some slot ∧ slot.place.offset = place := by
  unfold slotsAt
  rw [List.mem_filter, List.mem_range, beq_iff_eq]
  constructor
  · rintro ⟨-, stands⟩
    rcases Option.map_eq_some_iff.mp stands with ⟨slot, found, here⟩
    exact ⟨slot, found, here⟩
  · rintro ⟨slot, found, here⟩
    exact ⟨(Array.getElem?_eq_some_iff.mp found).1, by rw [found, ← here]; rfl⟩

section Course

variable {final : Sweep} (course : Course markers outline layout final)

include course

theorem Course.remembers (within : taken <+: outline.occurrences.toList)
    (ran : taken.foldlM (Sweep.pass outline) .start = .ok sweep) : sweep.Remembers outline :=
  Sweep.remembers_of_run course.coherent course.registered course.bounded within ran

/-- A repetition whose rows are separated has ended. -/
theorem Course.ended (within : taken <+: outline.occurrences.toList)
    (ran : taken.foldlM (Sweep.pass outline) .start = .ok sweep)
    (separates : Role.separator scope ∈ sweep.roles) :
    ∃ closing, outline.closingOf scope = some closing ∧ closing.point ≤ taken.length := by
  rcases List.mem_map.mp separates with ⟨piece, listed, named⟩
  rcases (Sweep.drawn_of_start ran).roles piece listed with ⟨ending, member, played⟩
  have closes : scope ∈ ending.closes := by
    rw [named] at played
    simpa [rolesOf] using played
  rcases List.getElem?_of_mem member with ⟨index, found⟩
  have bound : index < taken.length := (List.getElem?_eq_some_iff.mp found).1
  have there : outline.occurrences[index]? = some ending := by
    rcases within with ⟨back, split⟩
    rw [← Array.getElem?_toList, ← split, List.getElem?_append_left bound]
    exact found
  exact ⟨_, course.registered.closingOf_of_closes there closes, bound⟩

/-- What the layout says of a row is what the sweep found until its end. -/
theorem Course.inRow_iff (within : taken <+: outline.occurrences.toList)
    (ran : taken.foldlM (Sweep.pass outline) .start = .ok sweep)
    (separates : Role.separator scope ∈ sweep.roles) {id : SlotId}
    (bound : id < outline.slots.size) :
    InRow outline sweep.plan.hosts scope id ↔ inRow outline layout scope id = true := by
  have said : inRow outline layout scope id = true ↔
      rowAround? outline (final.plan.hosts.lookup id).join = some scope := by
    unfold inRow
    rw [course.hosts id bound, beq_iff_eq]
    rfl
  rw [said]
  constructor
  · rintro ⟨host, listed, around⟩
    rcases within with ⟨back, split⟩
    have swept := course.swept
    rw [← split] at swept
    rcases foldlM_append_eq_ok.mp swept with ⟨between, early, late⟩
    rw [ran] at early
    cases early
    rcases Sweep.drawn_of_run late with ⟨more, further, -⟩
    have member : (id, host) ∈ final.plan.hosts := by
      rw [further]
      exact List.mem_append_right _ listed
    rcases exists_lookup_of_mem member with ⟨first, looked⟩
    have same := Sweep.host_unique_of_run course.coherent course.swept member
      (mem_of_lookup_eq_some looked)
    rw [looked, ← same]
    exact around
  · intro around
    cases looked : final.plan.hosts.lookup id with
    | none =>
      rw [looked] at around
      cases around
    | some host =>
      rw [looked] at around
      rcases course.ended within ran separates with ⟨closing, ended, behind⟩
      exact Sweep.inRow_of_ended course.coherent course.registered within ran ended behind
        course.swept ⟨host, mem_of_lookup_eq_some looked, around⟩

/-- A marker is awaited where the layout says that the row ended last would have its last
value again. -/
theorem Course.awaits_iff (within : taken <+: outline.occurrences.toList)
    (ran : taken.foldlM (Sweep.pass outline) .start = .ok sweep) :
    Sweep.Awaits outline sweep place ↔ ∃ scope tail,
      sweep.roles.getLast? = some (.separator scope) ∧ Echoes outline layout scope tail place := by
  refine exists_congr fun scope => exists_congr fun tail => and_congr_right fun last => ?_
  have told : ∀ id, id < outline.slots.size →
      (InRow outline sweep.plan.hosts scope id ↔ inRow outline layout scope id = true) :=
    fun _ bound => course.inRow_iff within ran (List.mem_of_getLast? last) bound
  constructor
  · rintro ⟨mirrors, upTo, id, slot, member, found, stands⟩
    have bound := (Array.getElem?_eq_some_iff.mp found).1
    refine ⟨mirrors, ⟨id, mem_slotsAt.mpr ⟨slot, found, stands⟩, (told id bound).mp member⟩, ?_⟩
    intro other own foundOther inside
    exact upTo other
      ((told other (Array.getElem?_eq_some_iff.mp foundOther).1).mpr inside) own foundOther
  · rintro ⟨mirrors, ⟨id, listed, inside⟩, upTo⟩
    rcases mem_slotsAt.mp listed with ⟨slot, found, stands⟩
    have bound := (Array.getElem?_eq_some_iff.mp found).1
    refine ⟨mirrors, ?_, id, slot, (told id bound).mpr inside, found, stands⟩
    intro other member own foundOther
    exact upTo other own foundOther
      ((told other (Array.getElem?_eq_some_iff.mp foundOther).1).mp member)

/-- At a place that only one repetition passes over, markers are skipped just if to end it
was the last thing done. -/
theorem Course.skips_iff (echoes : Echoes outline layout scope tail place)
    (alone : ∀ other, other ≠ scope → ¬ PassesOver outline layout other place)
    (within : taken <+: outline.occurrences.toList)
    (ran : taken.foldlM (Sweep.pass outline) .start = .ok sweep)
    (behind : ∀ other ∈ taken, other.offset ≤ place) :
    sweep.Skips place ↔ sweep.roles.getLast? = some (.separator scope) := by
  have remembers := course.remembers within ran
  constructor
  · rintro (further | awaited)
    · exfalso
      rcases Sweep.reached_of_run course.registered course.bounded within ran course.ascending
        behind with here | ⟨other, closing, -, ended, early, resumes⟩
      · omega
      · by_cases own : other = scope
        · rcases echoes.mirrors with ⟨-, -, last, -, -, told, -, before⟩
          rw [own, told] at resumes
          cases resumes
          omega
        · exact alone other own (.inl ⟨closing, _, ended, resumes, early, further⟩)
    · rw [remembers.echo, course.awaits_iff within ran] at awaited
      rcases awaited with ⟨other, otherTail, last, otherEchoes⟩
      by_cases own : other = scope
      · rw [← own]
        exact last
      · exact absurd (.inr ⟨otherTail, otherEchoes⟩) (alone other own)
  · intro last
    exact .inr ((remembers.echo place).mpr ((course.awaits_iff within ran).mpr
      ⟨scope, tail, last, echoes⟩))

/-- A value at a place belongs to a marker there. -/
theorem Course.marker_of_mem_slotsAt {id : SlotId} (listed : id ∈ slotsAt outline place) :
    ∃ taken occurrence rest, outline.occurrences.toList = taken ++ occurrence :: rest ∧
      occurrence.slot = some id ∧ occurrence.offset = place := by
  rcases mem_slotsAt.mp listed with ⟨slot, found, stands⟩
  have inserted : id ∈ outline.occurrences.toList.filterMap Occurrence.slot := by
    rw [course.coherent.listed]
    exact List.mem_range.mpr (Array.getElem?_eq_some_iff.mp found).1
  rcases List.mem_filterMap.mp inserted with ⟨occurrence, member, inserts⟩
  rcases List.append_of_mem member with ⟨taken, rest, split⟩
  have within : taken ++ [occurrence] <+: outline.occurrences.toList := ⟨rest, by simp [split]⟩
  rcases course.registered.placed taken.length occurrence id (Sweep.getElem?_of_isPrefix within)
    inserts with ⟨placed, foundPlaced, here, -⟩
  rw [found] at foundPlaced
  cases foundPlaced
  refine ⟨taken, occurrence, rest, split, inserts, ?_⟩
  rw [← stands, here]
  rfl

/-- Of two markers the one that stands at the lesser offset is before the other. -/
theorem Course.between {ending other : Occurrence} {rest : List Occurrence}
    (split : outline.occurrences.toList = front ++ ending :: back)
    (again : outline.occurrences.toList = taken ++ other :: rest)
    (earlier : ending.offset < other.offset) :
    ∃ middle, taken = front ++ ending :: middle ∧ back = middle ++ other :: rest := by
  have sorted := course.ascending
  rw [split, List.pairwise_append, List.pairwise_cons] at sorted
  rcases List.append_eq_append_iff.mp (split.symm.trans again) with
    ⟨more, longer, split⟩ | ⟨more, longer, split⟩
  · cases more with
    | nil =>
      cases split
      exact absurd earlier (Nat.lt_irrefl _)
    | cons first middle =>
      cases split
      exact ⟨middle, longer, rfl⟩
  · cases more with
    | nil =>
      cases split
      exact absurd earlier (Nat.lt_irrefl _)
    | cons first middle =>
      cases split
      have before := sorted.2.2 other (by rw [longer]; simp) ending (.head _)
      exact absurd earlier (Nat.not_lt_of_le before)

/-- A marker up to that place that does nothing in between does nothing at all. -/
theorem Course.idle_of_quiet (echoes : Echoes outline layout scope tail place)
    (within : taken <+: outline.occurrences.toList)
    (ran : taken.foldlM (Sweep.pass outline) .start = .ok sweep)
    (ended : sweep.roles.getLast? = some (.separator scope)) (near : occurrence.offset ≤ place)
    (quiet : rolesOf occurrence ≠ [] → occurrence.offset < place →
      ∀ last, outline.told Dimension.skipEnd scope = some last → occurrence.offset < last) :
    sweep.Skips occurrence.offset ∨ rolesOf occurrence = [] := by
  have remembers := course.remembers within ran
  rcases echoes.mirrors with ⟨-, -, last, -, -, resumes, -, -⟩
  rcases Nat.lt_or_eq_of_le near with ahead | there
  · by_cases nothing : rolesOf occurrence = []
    · exact .inr nothing
    · have skipped := quiet nothing ahead last resumes
      exact .inl (.inl (skipped.trans_le (remembers.resumed scope last ended resumes)))
  · refine .inl (.inr ((remembers.echo _).mpr ?_))
    rw [there]
    exact (course.awaits_iff within ran).mpr ⟨scope, tail, ended, echoes⟩

/-- Unless something else is done in between, to end the repetition is still the last thing
done at the place where its second row would have the last value. -/
theorem Course.last_of_quiet (echoes : Echoes outline layout scope tail place)
    {ending : Occurrence} {middle : List Occurrence}
    (within : front ++ ending :: middle <+: outline.occurrences.toList)
    (closes : scope ∈ ending.closes)
    (quiet : (rolesOf ending).getLast? = some (.separator scope) ∧
      ∀ other ∈ middle, other.offset ≤ place ∧ (rolesOf other ≠ [] → other.offset < place →
        ∀ last, outline.told Dimension.skipEnd scope = some last → other.offset < last))
    (ran : (front ++ ending :: middle).foldlM (Sweep.pass outline) .start = .ok sweep) :
    sweep.roles.getLast? = some (.separator scope) := by
  have begins : front ++ [ending] <+: front ++ ending :: middle :=
    ⟨middle, by rw [List.append_assoc]; rfl⟩
  refine foldlM_induction_along (motive := fun taken state => front ++ [ending] <+: taken →
    state.roles.getLast? = some (.separator scope))
    (fun taken occurrence before after inside earlier ih run contains => ?_) ?_ ran begins
  · have here : taken ++ [occurrence] <+: outline.occurrences.toList := inside.trans within
    rcases List.prefix_concat_iff.mp contains with same | early
    · rcases List.append_inj' same rfl with ⟨rfl, only⟩
      cases only
      rw [Sweep.roles_of_pass (Sweep.reads_of_closes closes run) run, List.getLast?_append,
        quiet.1, Option.some_or]
    · have listed : occurrence ∈ middle := by
        rcases early with ⟨some, rfl⟩
        rw [List.append_assoc, List.append_assoc, List.prefix_append_right_inj] at inside
        have inner : some ++ [occurrence] <+: middle := by
          rw [List.singleton_append, List.cons_prefix_cons] at inside
          exact inside.2
        exact inner.subset (by simp)
      have lastBefore := ih early
      rcases quiet.2 occurrence listed with ⟨near, silent⟩
      have idle := course.idle_of_quiet echoes ((List.prefix_append _ _).trans here) earlier
        lastBefore near silent
      rw [(Sweep.idle_of_pass idle run).1]
      exact lastBefore
  · intro impossible
    have shorter := impossible.length_le
    simp at shorter

/-- Before that place nothing is skipped behind the last terminator. -/
theorem Course.reads_ahead (echoes : Echoes outline layout scope tail place)
    (within : taken ++ [occurrence] <+: outline.occurrences.toList)
    (ran : taken.foldlM (Sweep.pass outline) .start = .ok sweep)
    (ended : sweep.roles.getLast? = some (.separator scope)) (ahead : occurrence.offset < place)
    {last : Nat} (resumes : outline.told Dimension.skipEnd scope = some last)
    (behind : last ≤ occurrence.offset) : ¬ sweep.Skips occurrence.offset := by
  have begins := (List.prefix_append taken [occurrence]).trans within
  have sorted := course.ascending.sublist within.sublist
  rw [List.pairwise_append] at sorted
  rintro (further | awaited)
  · rcases Sweep.reached_of_run course.registered course.bounded begins ran course.ascending
      (fun early listed => sorted.2.2 early listed occurrence (.head _)) with
      here | ⟨again, closing, endedAgain, -, -, told⟩
    · omega
    · rw [ended] at endedAgain
      cases endedAgain
      rw [resumes] at told
      cases told
      omega
  · have own := ((course.remembers begins ran).echo place).mpr
      ((course.awaits_iff begins ran).mpr ⟨scope, tail, ended, echoes⟩)
    rw [awaited] at own
    cases own
    exact Nat.lt_irrefl _ ahead

/-- If something else is done in between, it no longer is. -/
theorem Course.not_last_of_interrupted (echoes : Echoes outline layout scope tail place)
    {ending : Occurrence} {middle : List Occurrence}
    (within : front ++ ending :: middle <+: outline.occurrences.toList)
    (closes : scope ∈ ending.closes)
    (interrupted : (rolesOf ending).getLast? ≠ some (.separator scope) ∨
      ∃ other ∈ middle, rolesOf other ≠ [] ∧ other.offset < place ∧
        ∃ last, outline.told Dimension.skipEnd scope = some last ∧ last ≤ other.offset)
    (ran : (front ++ ending :: middle).foldlM (Sweep.pass outline) .start = .ok sweep) :
    sweep.roles.getLast? ≠ some (.separator scope) := by
  have once := Sweep.nodup_roles_of_run course.coherent course.registered within ran
  rcases foldlM_append_eq_ok.mp ran with ⟨before, ranFront, ranBack⟩
  rcases foldlM_cons_eq_ok.mp ranBack with ⟨ended, passed, ranMiddle⟩
  have roles := Sweep.roles_of_pass (Sweep.reads_of_closes closes passed) passed
  have separates : Role.separator scope ∈ rolesOf ending := by simpa [rolesOf] using closes
  have member : Role.separator scope ∈ ended.roles := by
    rw [roles]
    exact List.mem_append_right _ separates
  rcases interrupted with more | ⟨other, listed, does, ahead, last, resumes, behind⟩
  · rcases Sweep.roles_grow ranMiddle with ⟨further, grown⟩
    rw [grown] at once ⊢
    refine Sweep.getLast?_ne_of_grown once member (.inr ?_)
    have nonempty := List.ne_nil_of_mem separates
    rw [roles, List.getLast?_append_of_ne_nil _ nonempty]
    exact more
  · rcases List.append_of_mem listed with ⟨early, late, rfl⟩
    rcases foldlM_append_eq_ok.mp ranMiddle with ⟨there, ranThere, ranOn⟩
    rcases foldlM_cons_eq_ok.mp ranOn with ⟨gone, passedOther, ranRest⟩
    have memberThere : Role.separator scope ∈ there.roles := by
      rcases Sweep.roles_grow ranThere with ⟨more, grown⟩
      rw [grown]
      exact List.mem_append_left _ member
    by_cases still : there.roles.getLast? = some (.separator scope)
    · have whole : (front ++ ending :: early).foldlM (Sweep.pass outline) .start = .ok there :=
        foldlM_append_eq_ok.mpr ⟨before, ranFront, foldlM_cons_eq_ok.mpr ⟨ended, passed, ranThere⟩⟩
      have inside : (front ++ ending :: early) ++ [other] <+: outline.occurrences.toList :=
        List.IsPrefix.trans ⟨late, by simp⟩ within
      have reads := course.reads_ahead echoes inside whole still ahead resumes behind
      rcases Sweep.roles_grow ranRest with ⟨more, grown⟩
      rw [grown, Sweep.roles_of_pass reads passedOther, List.append_assoc] at once ⊢
      exact Sweep.getLast?_ne_of_grown once memberThere (.inl (by simp [does]))
    · rcases Sweep.roles_grow ranOn with ⟨more, grown⟩
      rw [grown] at once ⊢
      exact Sweep.getLast?_ne_of_grown once memberThere (.inr still)

end Course

/-! ## Documents -/

/-- A value at the place is left out unless something else is done in between. -/
theorem Course.omits_iff {final : Sweep} (course : Course markers outline layout final)
    {text : String} (laid : ofText outline text = .ok layout)
    (echoes : Echoes outline layout scope tail place)
    (alone : ∀ other, other ≠ scope → ¬ PassesOver outline layout other place) {id : SlotId}
    (listed : id ∈ slotsAt outline place) :
    layout.omits id = true ↔ ¬ Interrupted outline scope place := by
  rcases course.marker_of_mem_slotsAt listed with
    ⟨taken, occurrence, rest, split, inserts, offset⟩
  have within : taken ++ [occurrence] <+: outline.occurrences.toList := ⟨rest, by simp [split]⟩
  have sorted := course.ascending
  rw [split, List.pairwise_append, List.pairwise_cons] at sorted
  have begins := (List.prefix_append taken [occurrence]).trans within
  rcases decided_of_ofText course.coherent split inserts laid with
    ⟨before, after, ran, -, -, omitted⟩
  rw [omitted, offset, course.skips_iff echoes alone begins ran fun other listed => by
    rw [← offset]
    exact sorted.2.2 other listed occurrence (.head _)]
  rcases echoes.mirrors with ⟨-, closing, last, -, ended, resumes, -, behind⟩
  have ordered := Sweep.closing_le_skipEnd course.bounded ended resumes
  have standsAt : ∀ ending ∈ outline.occurrences.toList, scope ∈ ending.closes →
      ending.offset < occurrence.offset := by
    intro ending listed closes
    rw [(eq_of_closes course.registered ended listed closes listed closes).2, offset]
    exact ordered.trans_lt behind
  constructor
  · rintro lastDone ⟨front, ending, back, around, closes, interrupted⟩
    rcases course.between around split (standsAt ending (by rw [around]; simp) closes) with
      ⟨middle, rfl, rfl⟩
    refine course.not_last_of_interrupted echoes begins closes (interrupted.imp_right ?_) ran
      lastDone
    rintro ⟨other, further, does, ahead, known⟩
    refine ⟨other, (List.mem_append.mp further).resolve_right fun beyond => ?_, does, ahead, known⟩
    rcases List.mem_cons.mp beyond with rfl | later
    · exact Nat.ne_of_lt ahead offset
    · exact Nat.not_lt_of_le (sorted.2.1.1 other later) (by rw [offset]; exact ahead)
  · intro quiet
    rcases exists_closes course.registered ended with ⟨ending, member, closes⟩
    rcases List.append_of_mem member with ⟨front, back, around⟩
    rcases course.between around split (standsAt ending member closes) with ⟨middle, rfl, rfl⟩
    refine course.last_of_quiet echoes begins closes ⟨?_, fun other further => ⟨?_, ?_⟩⟩ ran
    · by_contra more
      exact quiet ⟨front, ending, _, around, closes, .inl more⟩
    · rw [← offset]
      exact sorted.2.2 other (by simp [further]) occurrence (.head _)
    · intro does ahead last known
      by_contra late
      exact quiet ⟨front, ending, _, around, closes, .inr ⟨other, List.mem_append_left _ further,
        does, ahead, last, known, Nat.le_of_not_lt late⟩⟩

/-- A repetition passes over nothing before its end. -/
theorem closing_le_of_passesOver (passes : PassesOver outline layout scope place) :
    ∃ closing, outline.closingOf scope = some closing ∧ closing.offset ≤ place := by
  rcases passes with ⟨closing, -, ended, -, behind, -⟩ | ⟨tail, echoes⟩
  · exact ⟨closing, ended, behind⟩
  · rcases echoes.mirrors with ⟨node, closing, last, -, ended, -, here, -⟩
    exact ⟨closing, ended, by omega⟩

/-- Unless another repetition passes over the place, either all values there are left out or
none is.  So no more are left out than the first row has at its end just if something else
is done in between or no more are there. -/
theorem echoed_values_omitted {policy : Unterminated} {text : String}
    (accepted : ofMarkers markers policy = .ok outline) (laid : ofText outline text = .ok layout)
    (echoes : Echoes outline layout scope tail place)
    (alone : ∀ other, other ≠ scope → ¬ PassesOver outline layout other place) :
    (∀ id ∈ slotsAt outline place,
      layout.omits id = true ↔ ¬ Interrupted outline scope place) ∧
    (((slotsAt outline place).filter layout.omits).length ≤
        ((slotsAt outline tail).filter (inRow outline layout scope)).length ↔
      Interrupted outline scope place ∨ (slotsAt outline place).length ≤
        ((slotsAt outline tail).filter (inRow outline layout scope)).length) := by
  rcases course_of_ofText accepted laid with ⟨final, course⟩
  have omitted : ∀ id ∈ slotsAt outline place,
      layout.omits id = true ↔ ¬ Interrupted outline scope place :=
    fun id listed => course.omits_iff laid echoes alone listed
  refine ⟨omitted, ?_⟩
  by_cases interrupted : Interrupted outline scope place
  · have none : (slotsAt outline place).filter layout.omits = [] :=
      List.filter_eq_nil_iff.mpr fun id listed omits => (omitted id listed).mp omits interrupted
    rw [none]
    exact iff_of_true (Nat.zero_le _) (.inl interrupted)
  · have all : (slotsAt outline place).filter layout.omits = slotsAt outline place :=
      List.filter_eq_self.mpr fun id listed => (omitted id listed).mpr interrupted
    rw [all, or_iff_right interrupted]

/-- A title and a footer touch the place where the second row would have the title of the
first again.  A value before them is read, and another repetition begins behind them. -/
def footedRows : List Marker :=
  [⟨0, "d.r[i].a"⟩, ⟨2, "d.title"⟩, ⟨5, "d.r[i+1].a"⟩, ⟨6, "d.rule"⟩, ⟨7, "d.title"⟩,
    ⟨7, "d.footer"⟩, ⟨8, "d.s[j].b"⟩, ⟨9, "d.s[j+1].b"⟩]

theorem echoed_values_omitted_footedRows :
    ∃ outline layout, ofMarkers footedRows .permissive = .ok outline ∧
      ofText outline "0123456789" = .ok layout ∧ Echoes outline layout 1 2 7 ∧
      slotsAt outline 7 = [3, 4] ∧ layout.omits 3 = false ∧
      (layout.omits 3 = true ↔ ¬ Interrupted outline 1 7) ∧
      (((slotsAt outline 7).filter layout.omits).length ≤
          ((slotsAt outline 2).filter (inRow outline layout 1)).length ↔
        Interrupted outline 1 7 ∨ (slotsAt outline 7).length ≤
          ((slotsAt outline 2).filter (inRow outline layout 1)).length) := by
  have fits : (do
      let outline ← ofMarkers footedRows .permissive
      let layout ← ofText outline "0123456789"
      if Echoes outline layout 1 2 7 ∧ slotsAt outline 7 = [3, 4] ∧ layout.omits 3 = false ∧
          ∀ other, other < outline.scopes.size → other ≠ 1 →
            ∀ closing ∈ outline.closingOf other, 7 < closing.offset then .ok layout
        else .error (.stopped 7 7) : Except Error Layout).isOk = true := by
    decide +kernel
  rcases exists_of_isOk fits with ⟨_, run⟩
  rcases bind_eq_ok.mp run with ⟨outline, accepted, run⟩
  rcases bind_eq_ok.mp run with ⟨layout, laid, run⟩
  split at run
  · next known =>
    rcases known with ⟨echoes, slots, kept, others⟩
    have alone : ∀ other, other ≠ 1 → ¬ PassesOver outline layout other 7 := by
      intro other differs passes
      rcases closing_le_of_passesOver passes with ⟨closing, ended, behind⟩
      by_cases bound : other < outline.scopes.size
      · exact Nat.not_lt_of_le behind (others other bound differs closing ended)
      · have endless : outline.closingOf other = none :=
          Outline.told_of_size_le (Nat.le_of_not_lt bound)
        rw [endless] at ended
        cases ended
    have omitted := echoed_values_omitted accepted laid echoes alone
    exact ⟨outline, layout, accepted, laid, echoes, slots, kept,
      omitted.1 3 (by rw [slots]; exact .head _), omitted.2⟩
  · cases run

/-- A title and a footer touch the place where the second row would have the title again. -/
def touchedRows : Source :=
  ⟨"0123456789", [⟨0, "d.r[i].a"⟩, ⟨2, "d.title"⟩, ⟨5, "d.r[i+1].a"⟩, ⟨7, "d.title"⟩,
    ⟨7, "d.footer"⟩]⟩

/-- The first row has one value at its end, and two are left out. -/
theorem more_omitted_than_repeated :
    ∃ template, Template.compile touchedRows {} = .ok template ∧
      Echoes template.outline template.layout 1 2 7 ∧
      (slotsAt template.outline 2).filter (inRow template.outline template.layout 1) = [1] ∧
      (slotsAt template.outline 7).filter template.layout.omits = [2, 3] := by
  have fails : (do
      let template ← Template.compile touchedRows {}
      if Echoes template.outline template.layout 1 2 7 ∧
          (slotsAt template.outline 2).filter (inRow template.outline template.layout 1) = [1] ∧
          (slotsAt template.outline 7).filter template.layout.omits = [2, 3] then .ok template
        else .error (.stopped 7 7) : Except Error Template).isOk = true := by
    decide +kernel
  rcases exists_of_isOk fails with ⟨_, run⟩
  rcases bind_eq_ok.mp run with ⟨template, compiled, run⟩
  split at run
  · next known => exact ⟨template, compiled, known⟩
  · cases run

end Stencil.Layout
