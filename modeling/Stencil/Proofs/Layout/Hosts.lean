import Stencil.Layout
import Stencil.Proofs.Layout.Sweep
import Stencil.Proofs.Outline.Bodies
import Stencil.Proofs.Outline.Coherent

namespace Stencil.Layout

open Outline (Rooted Coherent IsBody)

/-!
# Slots are emitted where their scopes are bound

A slot may be emitted from a repetition deeper than its own scope.  It then still
sees its scope: all dimensions around the scope lie around the host as well, as
the first of them.  So wherever the host is being rendered, the scope of the slot
and everything around it has a value.  This holds for every slot of a layout that
is not left out, whatever the document.
-/

variable {outline : Outline}

/-- The dimensions around the scope of a slot begin those around a host. -/
def Sees (outline : Outline) (id : SlotId) (host : Option ScopeId) : Prop :=
  ∀ slot, outline.slots[id]? = some slot →
    outline.dimensionsAround slot.scope <+: outline.dimensionsOf host

namespace Sweep

/-! ## The repetitions being read -/

/-- Read from outside, the repetitions being read are at each of them the
repetitions around it. -/
def Nested (outline : Outline) (reading : List ScopeId) : Prop :=
  ∀ front (id : Nat), front ++ [id] <+: reading → front ++ [id] = outline.repetitionsAround id

theorem nested_nil (outline : Outline) : Nested outline [] := by
  intro front id begins
  rw [List.prefix_nil] at begins
  simp at begins

theorem Nested.of_isPrefix {reading fewer : List ScopeId} (nested : Nested outline reading)
    (begins : fewer <+: reading) : Nested outline fewer :=
  fun front id starts => nested front id (starts.trans begins)

theorem Nested.append {reading : List ScopeId} {id : Nat} (nested : Nested outline reading)
    (own : reading ++ [id] = outline.repetitionsAround id) :
    Nested outline (reading ++ [id]) := by
  intro front other begins
  rcases List.prefix_concat_iff.mp begins with whole | before
  · obtain ⟨-, same⟩ := List.append_inj' whole rfl
    cases same
    rw [whole, own]
  · exact nested front other before

theorem reading_closed {sweep : Sweep} {row : OpenRow} {rest : List OpenRow} {place : Nat}
    (rows : sweep.rows = row :: rest) :
    (sweep.closed row rest place).reading <+: sweep.reading := by
  simp [reading, closed, rows]

theorem reading_extendTail (place : Nat) (rows : List OpenRow) :
    (extendTail place rows).map OpenRow.scope = rows.map OpenRow.scope := by
  cases rows <;> rfl

theorem rowOf?_eq_none {scope : Scope} {id : ScopeId} {place : Nat}
    (endless : scope.hasEnd = false) : rowOf? scope id place = none := by
  unfold rowOf?
  simp only [Scope.hasEnd, Scope.closing?] at endless
  cases dimension : scope.dimension? with
  | none => rfl
  | some found =>
    simp only [dimension, Option.bind_some, Option.isSome_eq_false_iff,
      Option.isNone_iff_eq_none] at endless
    simp [endless]

theorem rowOf?_eq_some {scope : Scope} {id : ScopeId} {place : Nat}
    (ends : scope.hasEnd = true) : ∃ row, rowOf? scope id place = some row ∧ row.scope = id := by
  unfold rowOf?
  simp only [Scope.hasEnd, Scope.closing?] at ends
  cases dimension : scope.dimension? with
  | none => simp [dimension] at ends
  | some found =>
    simp only [dimension, Option.bind_some] at ends
    obtain ⟨closing, closed⟩ := Option.isSome_iff_exists.mp ends
    exact ⟨_, by simp only [closed]; rfl, rfl⟩

theorem isSome_rowOf? (scope : Scope) (id : ScopeId) (place : Nat) :
    (rowOf? scope id place).isSome = scope.hasEnd := by
  cases ends : scope.hasEnd with
  | false => rw [rowOf?_eq_none ends, Option.isSome_none]
  | true =>
    obtain ⟨row, made, -⟩ :
        ∃ row, rowOf? scope id place = some row ∧ row.scope = id := rowOf?_eq_some ends
    rw [made, Option.isSome_some]

/-- Beginning a repetition where those around it are being read keeps the
nesting. -/
theorem Nested.opened {sweep : Sweep} {scope : Scope} {id place : Nat} (rooted : Rooted outline)
    (nested : Nested outline sweep.reading) (found : outline.scopes[id]? = some scope)
    (around : (scope.parent.map outline.repetitionsAround).getD [] = sweep.reading) :
    Nested outline (sweep.opened scope id place).reading := by
  cases ends : scope.hasEnd with
  | false =>
    have same : (sweep.opened scope id place).reading = sweep.reading := by
      simp [reading, Sweep.opened, rowOf?_eq_none ends]
    rw [same]
    exact nested
  | true =>
    obtain ⟨row, made, named⟩ :
        ∃ row, rowOf? scope id place = some row ∧ row.scope = id := rowOf?_eq_some ends
    have longer : (sweep.opened scope id place).reading = sweep.reading ++ [id] := by
      simp [reading, Sweep.opened, made, named]
    rw [longer]
    refine nested.append ?_
    by_cases atRoot : id = Outline.root
    · subst atRoot
      obtain ⟨payload, same, -, object, -⟩ := rooted.payload
      rw [found] at same
      cases same
      simp only [Scope.isArray, Option.isSome_eq_false_iff, Option.isNone_iff_eq_none] at object
      simp [Scope.hasEnd, Scope.closing?, object] at ends
    · obtain ⟨parent, link, -⟩ := rooted.inside id scope found atRoot
      rw [Outline.repetitionsAround_inside rooted found link, ends, ← around, link]
      rfl

/-! ## Hosts -/

/-- The host chosen for a slot sees its scope. -/
theorem sees_of_hostOf? {reading : List ScopeId} {slot : Slot} {host : Option ScopeId}
    (rooted : Rooted outline) (nested : Nested outline reading)
    (bound : slot.scope < outline.scopes.size)
    (hosted : hostOf? (outline.dimensionsAround slot.scope)
      (outline.repetitionsAround slot.scope) reading = some host) :
    outline.dimensionsAround slot.scope <+: outline.dimensionsOf host := by
  unfold hostOf? at hosted
  split at hosted
  · cases hosted
    have own := Outline.dimensionsOf_dimensionAround? rooted bound
    unfold Outline.dimensionAround? at own
    rw [own]
  · split at hosted
    · next shorter =>
      obtain ⟨less, begins⟩ := shorter
      cases hosted
      cases innermost : (outline.dimensionsAround slot.scope).getLast? with
      | none =>
        rw [List.getLast?_eq_none_iff.mp innermost]
        exact List.nil_prefix
      | some inner =>
        obtain ⟨front, last, split⟩ : ∃ front last, reading = front ++ [last] := by
          refine ⟨reading.dropLast, reading.getLast ?_, (List.dropLast_concat_getLast _).symm⟩
          intro empty
          rw [empty] at less
          exact Nat.not_lt_zero _ less
        have own : reading = outline.repetitionsAround last := by
          rw [split]
          exact nested front last (split ▸ List.prefix_refl _)
        have member : inner ∈ outline.ancestry last := by
          have listed : inner ∈ reading := by
            rw [begins] at innermost
            exact List.mem_of_mem_take (List.mem_of_getLast? innermost)
          rw [own] at listed
          exact (List.mem_filter.mp listed).1
        have within := Outline.dimensionsAround_isPrefix_of_mem rooted
          (Outline.bound_of_mem_ancestry member) member
        rw [Outline.dimensionsAround_dimensionAround? rooted bound innermost] at within
        rw [split]
        simpa [Outline.dimensionsOf] using within
    · cases hosted

/-- The host chosen for a slot is the top level or a dimension. -/
theorem isBody_of_hostOf? {reading : List ScopeId} (nested : Nested outline reading) {scope : ScopeId}
    {bounded : List ScopeId} {host : Option ScopeId}
    (hosted : hostOf? (outline.dimensionsAround scope) bounded reading = some host) :
    IsBody outline host := by
  intro id same
  unfold hostOf? at hosted
  split at hosted
  · cases hosted
    exact (List.mem_filter.mp (List.mem_of_getLast? same)).2
  · split at hosted
    · cases hosted
      rcases List.getLast?_eq_some_iff.mp same with ⟨front, split⟩
      have own := nested front id (split ▸ List.prefix_refl _)
      have member : id ∈ outline.repetitionsAround id := by
        rw [← own]
        simp
      exact Outline.isArray_of_hasEnd (List.mem_filter.mp member).2
    · cases hosted

/-! ## The whole sweep -/

/-- What holds of a sweep behind some markers: its repetitions are nested, its
hosts are bodies and see the scopes of their slots, and every slot of those markers
has a host or is dropped. -/
structure Seated (outline : Outline) (taken : List Occurrence) (sweep : Sweep) : Prop where
  nested : Nested outline sweep.reading
  bodies : ∀ id host, (id, host) ∈ sweep.plan.hosts → IsBody outline host
  sees : ∀ id host, (id, host) ∈ sweep.plan.hosts → Sees outline id host
  placed : ∀ occurrence ∈ taken, ∀ id, occurrence.slot = some id →
    id ∈ sweep.plan.dropped ∨ ∃ host, (id, host) ∈ sweep.plan.hosts

variable {taken : List Occurrence} {occurrence : Occurrence} {sweep after : Sweep}

theorem Seated.closed (seated : Seated outline taken sweep) {row : OpenRow}
    {rest : List OpenRow} (rows : sweep.rows = row :: rest) (place : Nat) :
    Seated outline taken (sweep.closed row rest place) :=
  ⟨seated.nested.of_isPrefix (reading_closed rows), seated.bodies, seated.sees, seated.placed⟩

theorem Seated.opened (rooted : Rooted outline) (seated : Seated outline taken sweep)
    {scope : Scope} {id : Nat} (found : outline.scopes[id]? = some scope)
    (around : (scope.parent.map outline.repetitionsAround).getD [] = sweep.reading)
    (place : Nat) : Seated outline taken (sweep.opened scope id place) :=
  ⟨seated.nested.opened rooted found around, seated.bodies, seated.sees, seated.placed⟩

theorem Seated.inserted (coherent : Coherent outline) (seated : Seated outline taken sweep)
    {id : Nat} {slot : Slot} {host : Option ScopeId} (found : outline.slots[id]? = some slot)
    (hosted : hostOf? (outline.dimensionsAround slot.scope)
      (outline.repetitionsAround slot.scope) sweep.reading = some host) (place : Nat) :
    Seated outline taken (sweep.inserted id host place) := by
  refine ⟨?_, ?_, ?_, ?_⟩
  · have same : (sweep.inserted id host place).reading = sweep.reading := by
      simp [reading, Sweep.inserted, reading_extendTail]
    rw [same]
    exact seated.nested
  · intro other otherHost listed
    rcases List.mem_cons.mp listed with new | old
    · cases new
      exact isBody_of_hostOf? seated.nested hosted
    · exact seated.bodies other otherHost old
  · intro other otherHost listed
    rcases List.mem_cons.mp listed with new | old
    · cases new
      intro same foundSame
      rw [found] at foundSame
      cases foundSame
      exact sees_of_hostOf? coherent.rooted seated.nested
        (coherent.slotScope id slot found) hosted
    · exact seated.sees other otherHost old
  · intro earlier member other itsSlot
    rcases seated.placed earlier member other itsSlot with dropped | ⟨host, listed⟩
    · exact .inl dropped
    · exact .inr ⟨host, .tail _ listed⟩

theorem Seated.skipped (seated : Seated outline taken sweep) {occurrence : Occurrence} :
    Seated outline (taken ++ [occurrence]) (sweep.skipped occurrence.slot) := by
  refine ⟨seated.nested, seated.bodies, seated.sees, ?_⟩
  intro earlier member id itsSlot
  rcases List.mem_append.mp member with old | new
  · rcases seated.placed earlier old id itsSlot with dropped | hosted
    · exact .inl (List.mem_append_right _ dropped)
    · exact .inr hosted
  · rw [List.mem_singleton] at new
    subst new
    exact .inl (by simp [Sweep.skipped, itsSlot])

theorem Seated.passed (seated : Seated outline taken sweep) (place : Nat) :
    Seated outline taken (sweep.passed place) := by
  unfold Sweep.passed
  split
  · exact seated
  · exact ⟨seated.nested, seated.bodies, seated.sees, seated.placed⟩

theorem Seated.read (coherent : Coherent outline) (seated : Seated outline taken sweep)
    (run : read outline occurrence sweep = .ok after) :
    Seated outline (taken ++ [occurrence]) after := by
  obtain ⟨behindEnds, behindStarts, ends, starts, values⟩ := read_eq_ok.mp run
  have first : Seated outline taken behindEnds := by
    refine foldlM_induction ?_ seated ends
    intro before scope after _ seated run
    obtain ⟨row, rest, rows, -, rfl⟩ := close_eq_ok.mp run
    exact seated.closed rows _
  have second : Seated outline taken behindStarts := by
    refine foldlM_induction ?_ first starts
    intro before id after _ seated run
    obtain ⟨scope, found, around, -, rfl⟩ := openRow_eq_ok.mp run
    exact seated.opened coherent.rooted found around _
  cases itsSlot : occurrence.slot with
  | none =>
    rw [itsSlot] at values
    cases foldlM_nil_eq_ok.mp values
    refine ⟨second.nested, second.bodies, second.sees, ?_⟩
    intro earlier member id earlierSlot
    rcases List.mem_append.mp member with old | new
    · exact second.placed earlier old id earlierSlot
    · rw [List.mem_singleton] at new
      rw [new, itsSlot] at earlierSlot
      cases earlierSlot
  | some id =>
    rw [itsSlot] at values
    obtain ⟨between, inserts, done⟩ := foldlM_cons_eq_ok.mp values
    cases foldlM_nil_eq_ok.mp done
    obtain ⟨slot, host, found, hosted, -, rfl⟩ := insert_eq_ok.mp inserts
    have third := second.inserted coherent found hosted occurrence.offset
    refine ⟨third.nested, third.bodies, third.sees, ?_⟩
    intro earlier member other earlierSlot
    rcases List.mem_append.mp member with old | new
    · exact third.placed earlier old other earlierSlot
    · rw [List.mem_singleton] at new
      rw [new, itsSlot] at earlierSlot
      cases earlierSlot
      exact .inr ⟨host, .head _⟩

theorem Seated.pass (coherent : Coherent outline) (seated : Seated outline taken sweep)
    (run : pass outline sweep occurrence = .ok after) :
    Seated outline (taken ++ [occurrence]) after := by
  by_cases skips : sweep.Skips occurrence.offset
  · rw [pass_of_skips skips] at run
    obtain ⟨-, -, rfl⟩ := skip_eq_ok.mp run
    exact (seated.passed _).skipped
  · rw [pass_of_not_skips skips] at run
    exact seated.read coherent run

theorem seated_start (outline : Outline) : Seated outline [] start :=
  { nested := nested_nil outline
    bodies := fun _ _ listed => nomatch listed
    sees := fun _ _ listed => nomatch listed
    placed := fun _ member => nomatch member }

end Sweep

/-! ## Plans and layouts -/

theorem finish_eq_ok {length : Nat} {sweep : Sweep} {plan : Plan} :
    Sweep.finish outline length sweep = .ok plan ↔ sweep.rows = [] ∧ sweep.position ≤ length ∧
      plan = (sweep.assign (if outline.occurrences.isEmpty then .before else .after)
        sweep.position length).plan := by
  unfold Sweep.finish
  cases rows : sweep.rows with
  | cons row rest => simp
  | nil =>
    simp only [true_and]
    rw [map_eq_ok]
    constructor
    · rintro ⟨assigned, taken, rfl⟩
      obtain ⟨forward, rfl⟩ := Sweep.take_eq_ok.mp taken
      exact ⟨forward, rfl⟩
    · rintro ⟨forward, rfl⟩
      exact ⟨_, Sweep.take_eq_ok.mpr ⟨forward, rfl⟩, rfl⟩

/-- The hosts of a plan are those of a sweep over all markers. -/
theorem exists_seated_of_make (coherent : Coherent outline) {length : Nat} {plan : Plan}
    (made : Plan.make outline length = .ok plan) :
    ∃ sweep, Sweep.Seated outline outline.occurrences.toList sweep ∧
      plan.hosts = sweep.plan.hosts ∧ plan.dropped = sweep.plan.dropped := by
  obtain ⟨sweep, swept, finished⟩ := bind_eq_ok.mp made
  obtain ⟨-, -, rfl⟩ := finish_eq_ok.mp finished
  have seated : Sweep.Seated outline ([] ++ outline.occurrences.toList) sweep :=
    foldlM_induction_on_taken (motive := Sweep.Seated outline)
      (fun _ _ _ _ seated run => seated.pass coherent run) _ (Sweep.seated_start outline) swept
  exact ⟨sweep, seated, rfl, rfl⟩

/-- A plan seats every slot of the outline. -/
theorem placed_of_make (coherent : Coherent outline) {length : Nat} {plan : Plan}
    (made : Plan.make outline length = .ok plan) :
    (∀ id host, (id, host) ∈ plan.hosts → Sees outline id host) ∧
      ∀ id, id < outline.slots.size → id ∈ plan.dropped ∨ ∃ host, (id, host) ∈ plan.hosts := by
  rcases exists_seated_of_make coherent made with ⟨sweep, seated, hosts, dropped⟩
  rw [hosts, dropped]
  refine ⟨seated.sees, fun id bound => ?_⟩
  have listed : id ∈ outline.occurrences.toList.filterMap Occurrence.slot := by
    rw [coherent.listed]
    exact List.mem_range.mpr bound
  obtain ⟨occurrence, member, itsSlot⟩ := List.mem_filterMap.mp listed
  exact seated.placed occurrence member id itsSlot

theorem ofText_eq_ok {text : String} {layout : Layout} :
    ofText outline text = .ok layout ↔
      outline.occurrences.toList.findSome? (offsetFault? text.toList) = none ∧
        ∃ plan, Plan.make outline (Text.byteSize text.toList) = .ok plan ∧
          layout = ofPlan outline plan text.toList := by
  unfold ofText
  cases faulty : outline.occurrences.toList.findSome? (offsetFault? text.toList) with
  | some error => simp [faulty]
  | none =>
    simp only [faulty, true_and]
    rw [map_eq_ok]
    constructor
    · rintro ⟨plan, made, rfl⟩
      exact ⟨plan, made, rfl⟩
    · rintro ⟨plan, made, rfl⟩
      exact ⟨plan, made, rfl⟩

/-- A text is refused for the offset of a marker, or else for its plan. -/
theorem ofText_eq_error {text : String} {error : Error} (run : ofText outline text = .error error) :
    (∃ occurrence ∈ outline.occurrences.toList,
        offsetFault? text.toList occurrence = some error) ∨
      outline.occurrences.toList.findSome? (offsetFault? text.toList) = none ∧
        Plan.make outline (Text.byteSize text.toList) = .error error := by
  unfold ofText at run
  cases faulty : outline.occurrences.toList.findSome? (offsetFault? text.toList) with
  | some fault =>
    simp only [faulty] at run
    cases run
    exact .inl (List.exists_of_findSome?_eq_some faulty)
  | none =>
    simp only [faulty] at run
    exact .inr ⟨rfl, map_eq_error.mp run⟩

theorem mem_of_lookup_eq_some {α β : Type} [BEq α] [LawfulBEq α] {key : α} {value : β}
    {table : List (α × β)} (found : table.lookup key = some value) : (key, value) ∈ table := by
  induction table with
  | nil => cases found
  | cons entry rest ih =>
    obtain ⟨other, held⟩ := entry
    rw [List.lookup_cons] at found
    cases same : key == other with
    | true =>
      simp only [same] at found
      cases found
      rw [eq_of_beq same]
      exact .head _
    | false =>
      simp only [same] at found
      exact .tail _ (ih found)

theorem exists_lookup_of_mem {α β : Type} [BEq α] [LawfulBEq α] {key : α} {value : β}
    {table : List (α × β)} (member : (key, value) ∈ table) :
    ∃ first, table.lookup key = some first := by
  induction table with
  | nil => cases member
  | cons entry rest ih =>
    obtain ⟨other, held⟩ := entry
    rw [List.lookup_cons]
    cases same : key == other with
    | true => exact ⟨held, rfl⟩
    | false =>
      rcases List.mem_cons.mp member with new | old
      · cases new
        simp at same
      · exact ih old

/-- In the layout of a document every slot that is emitted is emitted where its
scope is seen. -/
theorem sees_host_of_ofText (coherent : Coherent outline) {text : String} {layout : Layout}
    (made : ofText outline text = .ok layout) {id : Nat} (bound : id < outline.slots.size)
    (kept : layout.omits id = false) : Sees outline id (layout.host outline id) := by
  obtain ⟨-, plan, planned, rfl⟩ := ofText_eq_ok.mp made
  obtain ⟨sees, placed⟩ := placed_of_make coherent planned
  have own : (ofPlan outline plan text.toList).slots[id]? =
      some (slotText plan text.toList id) := by
    simp [ofPlan, bound]
  simp only [omits, own, Option.map_some, Option.getD_some, slotText] at kept
  rcases placed id bound with dropped | ⟨host, listed⟩
  · simp [dropped] at kept
  · obtain ⟨first, looked⟩ := exists_lookup_of_mem listed
    have same : (ofPlan outline plan text.toList).host outline id = first := by
      simp [Layout.host, own, slotText, Plan.host, looked]
    rw [same]
    exact sees id first (mem_of_lookup_eq_some looked)

/-- In the layout of a document every slot is emitted from the top level or from a
dimension. -/
theorem isBody_host_of_ofText (coherent : Coherent outline) {text : String} {layout : Layout}
    (made : ofText outline text = .ok layout) (id : SlotId) :
    IsBody outline (layout.host outline id) := by
  rcases ofText_eq_ok.mp made with ⟨-, plan, planned, rfl⟩
  rcases exists_seated_of_make coherent planned with ⟨sweep, seated, hosts, -⟩
  by_cases bound : id < outline.slots.size
  · have own : (ofPlan outline plan text.toList).host outline id =
        (plan.hosts.lookup id).join := by
      simp [Layout.host, ofPlan, bound, slotText, Plan.host]
    rw [own]
    cases looked : plan.hosts.lookup id with
    | none => exact Outline.isBody_none outline
    | some host =>
      apply seated.bodies id host
      rw [← hosts]
      exact mem_of_lookup_eq_some looked
  · have beyond : (ofPlan outline plan text.toList).host outline id = none := by
      simp [Layout.host, ofPlan, bound]
    rw [beyond]
    exact Outline.isBody_none outline

/-- Without a document every slot is emitted from the innermost dimension around
its scope. -/
theorem sees_host_surrounding (coherent : Coherent outline) {before after : String} {id : Nat} :
    Sees outline id ((surrounding before after).host outline id) := by
  intro slot found
  have own : (surrounding before after).host outline id =
      outline.dimensionAround? slot.scope := by
    simp [Layout.host, surrounding, found]
  rw [own, Outline.dimensionsOf_dimensionAround? coherent.rooted
    (coherent.slotScope id slot found)]

theorem isBody_host_surrounding (outline : Outline) {before after : String} (id : SlotId) :
    IsBody outline ((surrounding before after).host outline id) := by
  intro host same
  have own : (surrounding before after).host outline id =
      outline.slots[id]?.bind fun slot => outline.dimensionAround? slot.scope := by
    simp [Layout.host, surrounding]
  rw [own] at same
  rcases Option.bind_eq_some_iff.mp same with ⟨slot, -, around⟩
  exact Outline.isBody_dimensionAround? outline slot.scope host around

end Stencil.Layout
