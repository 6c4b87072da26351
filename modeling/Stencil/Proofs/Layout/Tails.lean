import Stencil.Proofs.Layout.Shallow
import Stencil.Proofs.Layout.Terminated

namespace Stencil.Layout

open Outline (Rooted Coherent Registered)

/-!
# The last value of a row

While the first row of a repetition is read, the sweep keeps where its last value stands:
the greatest offset of the values that are emitted from the row, none of a row inside it.
When the row is ended, this tells at which offset the second row would repeat the value.
If that is behind the last terminator, the sweep awaits a marker there until it does
anything else.
-/

/-- A value is emitted from the row of a repetition itself. -/
def InRow (outline : Outline) (hosts : List (SlotId × Option ScopeId)) (scope : ScopeId)
    (id : SlotId) : Prop :=
  ∃ host, (id, host) ∈ hosts ∧ rowAround? outline host = some scope

/-- The second row of a repetition would have at one place what the first has at another,
and that place is behind the last terminator. -/
def Mirrors (outline : Outline) (scope : ScopeId) (tail place : Nat) : Prop :=
  ∃ node closing last, outline.scopes[scope]? = some node ∧
    outline.closingOf scope = some closing ∧ outline.told Dimension.skipEnd scope = some last ∧
    closing.offset + (tail - node.opened.offset) = place ∧ last < place

/-- The values of a row stand at no greater offset than this. -/
def UpTo (outline : Outline) (hosts : List (SlotId × Option ScopeId)) (scope : ScopeId)
    (tail : Nat) : Prop :=
  ∀ id, InRow outline hosts scope id → ∀ slot, outline.slots[id]? = some slot →
    slot.place.offset ≤ tail

/-- A value of a row stands at this offset. -/
def StandsAt (outline : Outline) (hosts : List (SlotId × Option ScopeId)) (scope : ScopeId)
    (tail : Nat) : Prop :=
  ∃ id slot, InRow outline hosts scope id ∧ outline.slots[id]? = some slot ∧
    slot.place.offset = tail

variable {outline : Outline} {occurrence : Occurrence} {sweep after : Sweep}
  {hosts : List (SlotId × Option ScopeId)} {id : SlotId} {host : Option ScopeId} {slot : Slot}
  {scope : ScopeId} {tail place : Nat} {markers : List Marker}

/-! ## One more value -/

theorem inRow_cons {other : SlotId} : InRow outline ((id, host) :: hosts) scope other ↔
    other = id ∧ rowAround? outline host = some scope ∨ InRow outline hosts scope other := by
  constructor
  · rintro ⟨seat, listed, around⟩
    rcases List.mem_cons.mp listed with new | old
    · cases new
      exact .inl ⟨rfl, around⟩
    · exact .inr ⟨seat, old, around⟩
  · rintro (⟨rfl, around⟩ | ⟨seat, listed, around⟩)
    · exact ⟨host, .head _, around⟩
    · exact ⟨seat, .tail _ listed, around⟩

/-- A value of the row itself may move its end. -/
theorem UpTo.extended (upTo : UpTo outline hosts scope tail)
    (found : outline.slots[id]? = some slot) (stands : slot.place.offset = place) :
    UpTo outline ((id, host) :: hosts) scope (max tail place) := by
  intro other member own foundOwn
  rcases inRow_cons.mp member with ⟨rfl, -⟩ | old
  · rw [found] at foundOwn
    cases foundOwn
    rw [stands]
    exact Nat.le_max_right _ _
  · exact (upTo other old own foundOwn).trans (Nat.le_max_left _ _)

theorem StandsAt.mono (standsAt : StandsAt outline hosts scope tail) :
    StandsAt outline ((id, host) :: hosts) scope tail := by
  rcases standsAt with ⟨other, own, member, found, place⟩
  exact ⟨other, own, inRow_cons.mpr (.inr member), found, place⟩

/-- A value elsewhere does not. -/
theorem UpTo.elsewhere (upTo : UpTo outline hosts scope tail)
    (differs : rowAround? outline host ≠ some scope) :
    UpTo outline ((id, host) :: hosts) scope tail := by
  intro other member
  exact upTo other ((inRow_cons.mp member).resolve_left fun new => differs new.2)

namespace Sweep

/-! ## What is kept of the rows -/

/-- What the sweep keeps of a row is the offset of its last value, or that of its beginning
if it has none. -/
structure Tailed (outline : Outline) (hosts : List (SlotId × Option ScopeId)) (row : OpenRow) :
    Prop where
  start : ∃ node, outline.scopes[row.scope]? = some node ∧ row.start = node.opened.offset
  upTo : UpTo outline hosts row.scope row.tail
  reached : row.tail ≤ row.start ∨ StandsAt outline hosts row.scope row.tail

/-- The sweep awaits a marker at a place. -/
def Awaits (outline : Outline) (sweep : Sweep) (place : Nat) : Prop :=
  ∃ scope tail, sweep.roles.getLast? = some (.separator scope) ∧
    Mirrors outline scope tail place ∧ UpTo outline sweep.plan.hosts scope tail ∧
      StandsAt outline sweep.plan.hosts scope tail

/-- The rows being read have their tails.  If the last thing done was to end a repetition,
the sweep is behind its last terminator and awaits the mirror of its tail, otherwise it
awaits nothing. -/
structure Remembers (outline : Outline) (sweep : Sweep) : Prop where
  rows : ∀ row ∈ sweep.rows, Tailed outline sweep.plan.hosts row
  echo : ∀ place, sweep.echo = some place ↔ Awaits outline sweep place
  resumed : ∀ scope last, sweep.roles.getLast? = some (.separator scope) →
    outline.told Dimension.skipEnd scope = some last → last ≤ sweep.position

/-- A row ends where its last value stands. -/
theorem Tailed.eq_of_mirrors {row : OpenRow} (tailed : Tailed outline hosts row)
    {closing : Place} (ended : outline.closingOf row.scope = some closing) {last : Nat}
    (resumes : outline.told Dimension.skipEnd row.scope = some last)
    (ordered : closing.offset ≤ last) (mirrors : Mirrors outline row.scope tail place)
    (upTo : UpTo outline hosts row.scope tail) (standsAt : StandsAt outline hosts row.scope tail) :
    row.tail = tail ∧ closing.offset + (row.tail - row.start) = place ∧ last < place := by
  rcases mirrors with ⟨node, closing', last', found, ended', resumes', mirror, behind⟩
  cases ended.symm.trans ended'
  cases resumes.symm.trans resumes'
  rcases tailed.start with ⟨node', found', start⟩
  cases found.symm.trans found'
  rcases standsAt with ⟨id, slot, member, known, stands⟩
  have early : tail ≤ row.tail := by
    rw [← stands]
    exact tailed.upTo id member slot known
  have late : row.tail ≤ tail := by
    rcases tailed.reached with empty | ⟨other, own, listed, knownOwn, standsOwn⟩
    · omega
    · rw [← standsOwn]
      exact upTo other listed own knownOwn
  have same := Nat.le_antisymm late early
  exact ⟨same, by rw [same, start]; exact mirror, behind⟩

/-- The sweep remembers nothing of repetitions if the last thing done was something else
than to end one. -/
theorem remembers_of_role (rows : ∀ row ∈ sweep.rows, Tailed outline sweep.plan.hosts row)
    {role : Role} (last : sweep.roles.getLast? = some role)
    (other : ∀ scope, role ≠ .separator scope) (silent : sweep.echo = none) :
    Remembers outline sweep where
  rows := rows
  echo place := by
    rw [silent]
    constructor
    · intro impossible
      cases impossible
    · rintro ⟨scope, tail, separates, -⟩
      rw [last] at separates
      exact absurd (Option.some.inj separates) (other scope)
  resumed scope _ separates := by
    rw [last] at separates
    exact absurd (Option.some.inj separates) (other scope)

theorem Remembers.closed (remembers : Remembers outline sweep) {row : OpenRow}
    {rest : List OpenRow} (rows : sweep.rows = row :: rest) {closing : Place}
    (ended : outline.closingOf row.scope = some closing) (here : closing.offset = place)
    (last : outline.told Dimension.skipEnd row.scope = some row.skipEnd)
    (ordered : place ≤ row.skipEnd) : Remembers outline (sweep.closed row rest place) := by
  have tailed := remembers.rows row (by rw [rows]; exact .head _)
  have more : (sweep.closed row rest place).roles.getLast? = some (.separator row.scope) := by
    have longer : (sweep.closed row rest place).roles = sweep.roles ++ [.separator row.scope] :=
      roles_assign sweep _ _ _
    rw [longer, List.getLast?_concat]
  have resume : max row.skipEnd place = row.skipEnd := Nat.max_eq_left ordered
  refine ⟨fun other listed => remembers.rows other (by rw [rows]; exact .tail _ listed),
    fun awaited => ?_, fun scope other separates told => ?_⟩
  · have echo : (sweep.closed row rest place).echo = some awaited ↔
        row.skipEnd < place + (row.tail - row.start) ∧
          place + (row.tail - row.start) = awaited := by
      simp only [Sweep.closed, resume]
      split
      · next behind => simp [behind]
      · next before => simp [before]
    rw [echo]
    constructor
    · rintro ⟨behind, mirror⟩
      rcases tailed.start with ⟨node, found, start⟩
      refine ⟨row.scope, row.tail, more, ?_, tailed.upTo, tailed.reached.resolve_left (by omega)⟩
      exact ⟨node, closing, row.skipEnd, found, ended, last, by rw [here, ← start, mirror],
        by rw [← mirror]; exact behind⟩
    · rintro ⟨scope, tail, separates, mirrors, upTo, standsAt⟩
      rw [more] at separates
      cases separates
      rcases tailed.eq_of_mirrors ended last (by rw [here]; exact ordered) mirrors upTo
        standsAt with ⟨-, mirror, behind⟩
      rw [here] at mirror
      exact ⟨by rw [mirror]; exact behind, mirror⟩
  · rw [more] at separates
    cases separates
    rw [last] at told
    cases told
    exact Nat.le_max_left _ _

theorem Remembers.opened (remembers : Remembers outline sweep) {node : Scope}
    (found : outline.scopes[scope]? = some node) (begins : node.opened.offset = place)
    (fresh : ∀ id, ¬ InRow outline sweep.plan.hosts scope id) :
    Remembers outline (sweep.opened node scope place) := by
  have more : (sweep.opened node scope place).roles = sweep.roles ++ [.opening scope] :=
    roles_assign sweep _ _ _
  refine remembers_of_role (fun row listed => ?_) (by rw [more, List.getLast?_concat])
    (fun _ => Role.noConfusion) rfl
  rcases List.mem_append.mp listed with new | old
  · rw [Option.mem_toList] at new
    unfold rowOf? at new
    cases kind : node.dimension? with
    | none => simp [kind] at new
    | some dimension =>
      simp only [kind] at new
      rcases Option.map_eq_some_iff.mp new with ⟨closing, -, rfl⟩
      exact ⟨⟨node, found, rfl⟩, fun id member => absurd member (fresh id),
        .inl (Nat.le_of_eq begins.symm)⟩
  · exact remembers.rows row old

/-- A value belongs to the innermost row. -/
theorem Remembers.inserted (remembers : Remembers outline sweep) (once : sweep.reading.Nodup)
    (found : outline.slots[id]? = some slot) (here : slot.place.offset = place)
    (around : rowAround? outline host = sweep.reading.getLast?) :
    Remembers outline (sweep.inserted id host place) := by
  have more : (sweep.inserted id host place).roles = sweep.roles ++ [.leading id] :=
    roles_assign sweep _ _ _
  have kept : ∀ row ∈ extendTail place sweep.rows,
      Tailed outline ((id, host) :: sweep.plan.hosts) row := by
    cases rows : sweep.rows with
    | nil =>
      intro row impossible
      cases impossible
    | cons inner outer =>
      have innermost : rowAround? outline host = some inner.scope := by
        rw [around, reading, rows]
        simp
      intro row listed
      rcases List.mem_cons.mp listed with rfl | behind
      · have tailed := remembers.rows inner (by rw [rows]; exact .head _)
        refine ⟨tailed.start, tailed.upTo.extended found here, ?_⟩
        show max inner.tail place ≤ inner.start ∨
          StandsAt outline _ inner.scope (max inner.tail place)
        rcases Nat.le_total place inner.tail with early | late
        · rw [Nat.max_eq_left early]
          exact tailed.reached.imp_right StandsAt.mono
        · rw [Nat.max_eq_right late]
          exact .inr ⟨id, slot, inRow_cons.mpr (.inl ⟨rfl, innermost⟩), found, here⟩
      · have tailed := remembers.rows row (by rw [rows]; exact .tail _ behind)
        have differs : inner.scope ≠ row.scope := by
          rw [reading, rows, List.nodup_reverse, List.map_cons, List.nodup_cons] at once
          intro same
          exact once.1 (by rw [same]; exact List.mem_map_of_mem behind)
        refine ⟨tailed.start, tailed.upTo.elsewhere ?_, tailed.reached.imp_right StandsAt.mono⟩
        rw [innermost]
        exact fun same => differs (Option.some.inj same)
  exact remembers_of_role kept (by rw [more, List.getLast?_concat]) (fun _ => Role.noConfusion) rfl

theorem Remembers.skipped (remembers : Remembers outline sweep) (place : Nat)
    (slot : Option SlotId) : Remembers outline ((sweep.passed place).skipped slot) := by
  unfold passed
  split
  · exact ⟨remembers.rows, remembers.echo, remembers.resumed⟩
  · next behind =>
    refine ⟨remembers.rows, remembers.echo, fun scope last separates told => ?_⟩
    exact (remembers.resumed scope last separates told).trans (Nat.le_of_not_lt behind)

/-! ## One marker -/

/-- The values of a row are behind its beginning. -/
def RowsBegun (outline : Outline) (point : Nat) (sweep : Sweep) : Prop :=
  ∀ scope id, InRow outline sweep.plan.hosts scope id →
    ∃ node, outline.scopes[scope]? = some node ∧ node.opened.point ≤ point

/-- A marker adds at most its own value to a row, and only to the innermost one. -/
theorem inRow_of_pass (coherent : Coherent outline) (nested : Nested outline after.reading)
    (run : pass outline sweep occurrence = .ok after)
    (member : InRow outline after.plan.hosts scope id) :
    InRow outline sweep.plan.hosts scope id ∨
      occurrence.slot = some id ∧ after.reading.getLast? = some scope := by
  rcases member with ⟨host, listed, around⟩
  rcases hosts_of_pass run id host listed with old | ⟨inserts, slot, found, hosted⟩
  · exact .inl ⟨host, old, around⟩
  · rw [rowAround?_of_hostOf? coherent.rooted nested (coherent.slotScope id slot found) hosted]
      at around
    exact .inr ⟨inserts, around⟩

theorem RowsBegun.pass (coherent : Coherent outline) {point : Nat}
    (begun : RowsBegun outline point sweep) (reads : Reads outline (point + 1) after)
    (run : pass outline sweep occurrence = .ok after) : RowsBegun outline (point + 1) after := by
  intro scope id member
  rcases inRow_of_pass coherent reads.nested run member with old | ⟨-, last⟩
  · rcases begun scope id old with ⟨node, found, early⟩
    exact ⟨node, found, Nat.le_succ_of_le early⟩
  · rcases (reads.reading scope).mp (List.mem_of_getLast? last) with ⟨node, -, found, -, early, -⟩
    exact ⟨node, found, early⟩

theorem closing_le_skipEnd (bounded : Outline.WellBounded markers outline) {closing : Place}
    {last : Nat} (ended : outline.closingOf scope = some closing)
    (resumes : outline.told Dimension.skipEnd scope = some last) : closing.offset ≤ last := by
  rcases Option.bind_eq_some_iff.mp ended with ⟨dimension, known, closes⟩
  rcases Option.bind_eq_some_iff.mp known with ⟨node, found, kind⟩
  rcases (bounded.order scope node dimension closing found kind closes).2.2 with
    ⟨other, told, later⟩
  have same : outline.told Dimension.skipEnd scope = dimension.skipEnd := by
    unfold Outline.told
    rw [known]
    rfl
  rw [same, told] at resumes
  cases resumes
  exact later

section Read

variable {index : Nat} (found : outline.occurrences[index]? = some occurrence)

include found

theorem Remembers.closes (registered : Registered markers outline) {sorted : List Marker}
    (bounded : Outline.WellBounded sorted outline) (rowsEnd : RowsEnd outline sweep)
    (remembers : Remembers outline sweep)
    (run : occurrence.closes.reverse.foldlM (close outline occurrence) sweep = .ok after) :
    Remembers outline after ∧ after.plan.hosts = sweep.plan.hosts := by
  have lasts := lastTerminators_of_wellBounded bounded
  have holds : (Remembers outline after ∧ after.plan.hosts = sweep.plan.hosts) ∧
      RowsEnd outline after := by
    refine foldlM_induction (motive := fun state => (Remembers outline state ∧
        state.plan.hosts = sweep.plan.hosts) ∧ RowsEnd outline state)
      (fun before scope after listed holds run => ?_) ⟨⟨remembers, rfl⟩, rowsEnd⟩ run
    have does : act outline occurrence before (.close scope) = .ok after := run
    have kept := holds.2.act lasts does
    rcases close_eq_ok.mp run with ⟨row, rest, rows, rfl, rfl⟩
    have ended := registered.closingOf_of_closes found (List.mem_reverse.mp listed)
    have last := holds.2 row (by rw [rows]; exact .head _)
    have ordered := closing_le_skipEnd bounded ended last
    exact ⟨⟨holds.1.1.closed rows ended rfl last ordered, holds.1.2⟩, kept⟩
  exact holds.1

theorem Remembers.opens (registered : Registered markers outline)
    (begun : RowsBegun outline index sweep) (remembers : Remembers outline sweep)
    (run : occurrence.opens.foldlM (openRow outline occurrence) sweep = .ok after) :
    Remembers outline after := by
  have holds : Remembers outline after ∧ after.plan.hosts = sweep.plan.hosts := by
    refine foldlM_induction (motive := fun state => Remembers outline state ∧
        state.plan.hosts = sweep.plan.hosts)
      (fun before scope after listed holds run => ?_) ⟨remembers, rfl⟩ run
    rcases openRow_eq_ok.mp run with ⟨node, known, -, -, rfl⟩
    have here := registered.opened index occurrence scope node found listed known
    refine ⟨holds.1.opened known (by rw [here]; rfl) fun id member => ?_, holds.2⟩
    rw [holds.2] at member
    rcases begun scope id member with ⟨again, knownAgain, early⟩
    rw [known] at knownAgain
    cases knownAgain
    rw [here] at early
    exact Nat.not_succ_le_self index early
  exact holds.1

theorem Remembers.inserts (coherent : Coherent outline) (registered : Registered markers outline)
    (nested : Nested outline sweep.reading) (remembers : Remembers outline sweep)
    (run : occurrence.slot.toList.foldlM (insert outline occurrence) sweep = .ok after) :
    Remembers outline after := by
  have holds : Remembers outline after ∧ after.reading = sweep.reading := by
    refine foldlM_induction (motive := fun state => Remembers outline state ∧
        state.reading = sweep.reading)
      (fun before id after listed holds run => ?_) ⟨remembers, rfl⟩ run
    rcases insert_eq_ok.mp run with ⟨slot, host, known, hosted, -, rfl⟩
    rcases registered.placed index occurrence id found (Option.mem_toList.mp listed) with
      ⟨placed, knownPlaced, place, -⟩
    rw [known] at knownPlaced
    cases knownPlaced
    have nestedHere : Nested outline before.reading := by
      rw [holds.2]
      exact nested
    have around := rowAround?_of_hostOf? coherent.rooted nestedHere
      (coherent.slotScope id slot known) hosted
    refine ⟨holds.1.inserted (nestedHere.nodup coherent.rooted) known (by rw [place]; rfl) around, ?_⟩
    rw [reading_inserted, holds.2]
  exact holds.1

theorem Remembers.read (coherent : Coherent outline) (registered : Registered markers outline)
    {sorted : List Marker} (bounded : Outline.WellBounded sorted outline)
    (reads : Reads outline index sweep) (rowsEnd : RowsEnd outline sweep)
    (begun : RowsBegun outline index sweep) (remembers : Remembers outline sweep)
    (run : Sweep.read outline occurrence sweep = .ok after) : Remembers outline after := by
  rcases read_eq_ok.mp run with ⟨closed, opened, first, second, third⟩
  rcases remembers.closes found registered bounded rowsEnd first with ⟨ends, same⟩
  have begunClosed : RowsBegun outline index closed := by
    unfold RowsBegun
    rw [same]
    exact begun
  have begins := ends.opens found registered begunClosed second
  have nested := (reading_opens coherent.rooted
    (reading_closes coherent.rooted reads.nested first).1 second).1
  exact begins.inserts found coherent registered nested third

end Read

theorem Remembers.pass (coherent : Coherent outline) (registered : Registered markers outline)
    {sorted : List Marker} (bounded : Outline.WellBounded sorted outline) {index : Nat}
    (found : outline.occurrences[index]? = some occurrence) (reads : Reads outline index sweep)
    (rowsEnd : RowsEnd outline sweep) (begun : RowsBegun outline index sweep)
    (remembers : Remembers outline sweep)
    (run : Sweep.pass outline sweep occurrence = .ok after) : Remembers outline after := by
  by_cases skips : sweep.Skips occurrence.offset
  · rw [pass_of_skips skips] at run
    rcases skip_eq_ok.mp run with ⟨-, -, rfl⟩
    exact remembers.skipped _ _
  · rw [pass_of_not_skips skips] at run
    exact remembers.read found coherent registered bounded reads rowsEnd begun run

/-! ## The whole sweep -/

theorem remembers_of_run (coherent : Coherent outline) (registered : Registered markers outline)
    {sorted : List Marker} (bounded : Outline.WellBounded sorted outline)
    {taken : List Occurrence} (within : taken <+: outline.occurrences.toList)
    (run : taken.foldlM (Sweep.pass outline) start = .ok sweep) : Remembers outline sweep := by
  have holds : Remembers outline sweep ∧ RowsBegun outline taken.length sweep := by
    refine foldlM_induction_along (motive := fun taken sweep => Remembers outline sweep ∧
      RowsBegun outline taken.length sweep)
      (fun front occurrence before after inside ran holds run => ?_) ⟨⟨?_, ?_, ?_⟩, ?_⟩ run
    · have begins : front ++ [occurrence] <+: outline.occurrences.toList := inside.trans within
      have reads := reads_of_run coherent.rooted registered
        ((List.prefix_append _ _).trans begins) ran
      have readsOn := reads_of_run coherent.rooted registered begins
        (foldlM_concat_eq_ok.mpr ⟨before, ran, run⟩)
      rw [List.length_append] at readsOn ⊢
      have rowsEnd := (progress_of_run (lastTerminators_of_wellBounded bounded) ran).1
      exact ⟨holds.1.pass coherent registered bounded (getElem?_of_isPrefix begins) reads rowsEnd
        holds.2 run, holds.2.pass coherent readsOn run⟩
    · intro row impossible
      cases impossible
    · intro place
      constructor
      · intro impossible
        cases impossible
      · rintro ⟨scope, tail, impossible, -⟩
        cases impossible
    · intro scope last impossible
      cases impossible
    · rintro scope id ⟨host, impossible, -⟩
      cases impossible
  exact holds.1

/-- Behind the end of a repetition no value is added to its row. -/
theorem inRow_of_ended (coherent : Coherent outline) (registered : Registered markers outline)
    {front : List Occurrence} (within : front <+: outline.occurrences.toList)
    (ran : front.foldlM (Sweep.pass outline) start = .ok sweep) {closing : Place}
    (ended : outline.closingOf scope = some closing) (behind : closing.point ≤ front.length)
    (run : outline.occurrences.toList.foldlM (Sweep.pass outline) start = .ok after)
    (member : InRow outline after.plan.hosts scope id) :
    InRow outline sweep.plan.hosts scope id := by
  refine foldlM_induction_along (motive := fun taken state => front <+: taken →
    InRow outline state.plan.hosts scope id → InRow outline sweep.plan.hosts scope id)
    (fun taken occurrence before after inside earlier ih run contains member => ?_) ?_ run within
    member
  · rcases List.prefix_concat_iff.mp contains with same | early
    · have again := foldlM_concat_eq_ok.mpr ⟨before, earlier, run⟩
      rw [← same, ran] at again
      cases again
      exact member
    · have reads := reads_of_run coherent.rooted registered inside
        (foldlM_concat_eq_ok.mpr ⟨before, earlier, run⟩)
      rcases inRow_of_pass coherent reads.nested run member with old | ⟨-, last⟩
      · exact ih early old
      · rcases (reads.reading scope).mp (List.mem_of_getLast? last) with
          ⟨node, other, found, closes, -, going⟩
        rw [Outline.closingOf_eq found, closes] at ended
        cases ended
        have longer := early.length_le
        rw [List.length_append, List.length_singleton] at going
        omega
  · rintro - ⟨host, impossible, -⟩
    cases impossible

/-- A value has one host. -/
theorem host_unique_of_run (coherent : Coherent outline)
    (run : outline.occurrences.toList.foldlM (Sweep.pass outline) start = .ok sweep)
    {other : Option ScopeId} (first : (id, host) ∈ sweep.plan.hosts)
    (second : (id, other) ∈ sweep.plan.hosts) : host = other := by
  refine foldlM_induction_along (motive := fun _ state => (id, host) ∈ state.plan.hosts →
    (id, other) ∈ state.plan.hosts → host = other)
    (fun taken occurrence before after inside ran ih run first second => ?_) ?_ run first second
  · rcases inside with ⟨back, split⟩
    rw [List.append_assoc] at split
    have fresh : occurrence.slot = some id → ∀ seat, (id, seat) ∉ before.plan.hosts := by
      intro inserts seat listed
      rcases (drawn_of_start ran).hosts _ listed with ⟨early, member, its⟩
      exact (slot_ne_of_split coherent split.symm inserts).1 early member its
    rcases hosts_of_pass run id host first with old | ⟨inserts, slot, found, hosted⟩
    · rcases hosts_of_pass run id other second with oldOther | ⟨inserts, -⟩
      · exact ih old oldOther
      · exact absurd old (fresh inserts host)
    · rcases hosts_of_pass run id other second with oldOther | ⟨-, own, foundOwn, hostedOwn⟩
      · exact absurd oldOther (fresh inserts other)
      · rw [found] at foundOwn
        cases foundOwn
        rw [hosted] at hostedOwn
        exact Option.some.inj hostedOwn
  · intro impossible
    cases impossible

end Sweep

end Stencil.Layout
