import Stencil.Proofs.Layout.Conservation
import Stencil.Proofs.Outline.WellFormed

namespace Stencil.Layout

open Outline (Registered ofMarkers)

/-!
# The row behind the end of a repetition

The marker that ends a repetition begins a row that is not emitted.  The sweep goes on
behind it at the last terminator of the outermost repetition that this marker ends, and
never comes back: no piece has text from between.  A row of an inner repetition that is
longer than that of the outer one is not passed in full.
-/

variable {outline : Outline} {occurrence : Occurrence} {sweep after : Sweep} {plan : Plan}
  {markers : List Marker}

/-- The text at an offset is in a piece. -/
def Piece.Contains (piece : Piece) (place : Nat) : Prop :=
  piece.start ≤ place ∧ place < piece.stop

instance (piece : Piece) (place : Nat) : Decidable (piece.Contains place) :=
  inferInstanceAs (Decidable (_ ∧ _))

/-- No text of a range is in any of these pieces. -/
def Spares (pieces : List Piece) (start stop : Nat) : Prop :=
  ∀ piece ∈ pieces, ∀ place, start ≤ place → place < stop → ¬ piece.Contains place

/-- Behind the marker that ends a repetition the sweep goes on here: at the last
terminator of the outermost repetition that the marker ends. -/
def ResumesAt (outline : Outline) (id : ScopeId) (place : Nat) : Prop :=
  ∃ occurrence ∈ outline.occurrences.toList, id ∈ occurrence.closes ∧
    ∃ outer ∈ occurrence.closes.head?, outline.told Dimension.skipEnd outer = some place

/-- Of the repetitions that end where this one ends, the outermost has no earlier last
terminator. -/
def EndsCovered (outline : Outline) (id : ScopeId) : Prop :=
  ∀ occurrence ∈ outline.occurrences.toList, id ∈ occurrence.closes →
    ∀ outer ∈ occurrence.closes.head?, ∀ last ∈ outline.told Dimension.skipEnd id,
      ∃ resume ∈ outline.told Dimension.skipEnd outer, last ≤ resume

instance (outline : Outline) (id : ScopeId) : Decidable (EndsCovered outline id) :=
  inferInstanceAs (Decidable (∀ occurrence ∈ outline.occurrences.toList, _))

theorem Spares.assigned {role : Role} {start stop first last : Nat}
    (spares : Spares sweep.plan.pieces first last) (apart : stop ≤ first ∨ last ≤ start) :
    Spares (sweep.assign role start stop).plan.pieces first last := by
  intro piece listed place behind before contains
  rcases List.mem_append.mp listed with old | new
  · exact spares piece old place behind before contains
  · rw [List.mem_singleton.mp new] at contains
    rcases apart with early | late
    · exact Nat.not_lt_of_le (early.trans behind) contains.2
    · exact Nat.not_lt_of_le (late.trans contains.1) before

namespace Sweep

/-! ## The ends of rows -/

/-- The rows being read will be passed up to the last terminators of their
repetitions. -/
def RowsEnd (outline : Outline) (sweep : Sweep) : Prop :=
  ∀ row ∈ sweep.rows, outline.told Dimension.skipEnd row.scope = some row.skipEnd

/-- A repetition that is ended has a last terminator. -/
def LastTerminators (outline : Outline) : Prop :=
  ∀ (id : Nat) scope dimension closing, outline.scopes[id]? = some scope →
    scope.dimension? = some dimension → dimension.closing = some closing →
      ∃ last, dimension.skipEnd = some last

theorem skipEnd_rowOf? (lasts : LastTerminators outline) {id place : Nat} {scope : Scope}
    (found : outline.scopes[id]? = some scope) {row : OpenRow}
    (made : rowOf? scope id place = some row) :
    outline.told Dimension.skipEnd row.scope = some row.skipEnd := by
  unfold rowOf? at made
  cases kind : scope.dimension? with
  | none => simp [kind] at made
  | some dimension =>
    simp only [kind] at made
    rcases Option.map_eq_some_iff.mp made with ⟨closing, ended, rfl⟩
    rcases lasts id scope dimension closing found kind ended with ⟨last, known⟩
    show (outline.scopes[id]?.bind Scope.dimension?).bind Dimension.skipEnd = some _
    rw [found, Option.bind_some, kind, Option.bind_some, known]
    rfl

theorem RowsEnd.act (lasts : LastTerminators outline) (rowsEnd : RowsEnd outline sweep)
    {action : Action} (run : act outline occurrence sweep action = .ok after) :
    RowsEnd outline after := by
  cases action with
  | close scope =>
    rcases close_eq_ok.mp run with ⟨row, rest, rows, -, rfl⟩
    exact fun other listed => rowsEnd other (by rw [rows]; exact .tail _ listed)
  | openRow id =>
    rcases openRow_eq_ok.mp run with ⟨scope, found, -, -, rfl⟩
    intro row listed
    rcases List.mem_append.mp listed with new | old
    · exact skipEnd_rowOf? lasts found (Option.mem_toList.mp new)
    · exact rowsEnd row old
  | insert id =>
    rcases insert_eq_ok.mp run with ⟨slot, host, -, -, -, rfl⟩
    have kept : ∀ row ∈ extendTail occurrence.offset sweep.rows,
        outline.told Dimension.skipEnd row.scope = some row.skipEnd := by
      cases rows : sweep.rows with
      | nil => exact fun _ impossible => by cases impossible
      | cons inner rest =>
        intro row listed
        rcases List.mem_cons.mp listed with rfl | outer
        · exact rowsEnd inner (by rw [rows]; exact .head _)
        · exact rowsEnd row (by rw [rows]; exact .tail _ outer)
    exact kept

theorem RowsEnd.pass (lasts : LastTerminators outline) (rowsEnd : RowsEnd outline sweep)
    (run : pass outline sweep occurrence = .ok after) : RowsEnd outline after := by
  by_cases skips : sweep.Skips occurrence.offset
  · unfold RowsEnd
    rw [(pieces_skip skips run).2]
    exact rowsEnd
  · rw [pass_of_not_skips skips, read_eq_actions] at run
    exact foldlM_induction (fun _ _ _ _ rowsEnd run => rowsEnd.act lasts run) rowsEnd run

/-! ## The text so far -/

/-- All pieces lie behind the sweep. -/
def Ahead (sweep : Sweep) : Prop := ∀ piece ∈ sweep.plan.pieces, piece.stop ≤ sweep.position

/-- At a marker the pieces moreover end there or before. -/
theorem ahead_act (action : Action)
    (before : ∀ piece ∈ sweep.plan.pieces, piece.stop ≤ occurrence.offset)
    (run : act outline occurrence sweep action = .ok after) :
    after.Ahead ∧ ∀ piece ∈ after.plan.pieces, piece.stop ≤ occurrence.offset := by
  have longer : ∀ (role : Role) (start : Nat),
      ∀ piece ∈ (sweep.assign role start occurrence.offset).plan.pieces,
        piece.stop ≤ occurrence.offset := by
    intro role start piece listed
    rcases List.mem_append.mp listed with old | new
    · exact before piece old
    · rw [List.mem_singleton.mp new]
  cases action with
  | close scope =>
    rcases close_eq_ok.mp run with ⟨row, rest, -, -, rfl⟩
    have shorter := longer (.separator row.scope) (min sweep.position occurrence.offset)
    exact ⟨fun piece listed => (shorter piece listed).trans (Nat.le_max_right _ _), shorter⟩
  | openRow id =>
    rcases openRow_eq_ok.mp run with ⟨scope, -, -, -, rfl⟩
    exact ⟨longer (.opening id) sweep.position, longer (.opening id) sweep.position⟩
  | insert id =>
    rcases insert_eq_ok.mp run with ⟨slot, host, -, -, -, rfl⟩
    exact ⟨longer (.leading id) sweep.position, longer (.leading id) sweep.position⟩

theorem Ahead.acts (ahead : sweep.Ahead)
    (before : ∀ piece ∈ sweep.plan.pieces, piece.stop ≤ occurrence.offset)
    {actions : List Action} (run : actions.foldlM (Sweep.act outline occurrence) sweep = .ok after) :
    after.Ahead ∧ ∀ piece ∈ after.plan.pieces, piece.stop ≤ occurrence.offset :=
  foldlM_induction (motive := fun state => state.Ahead ∧
      ∀ piece ∈ state.plan.pieces, piece.stop ≤ occurrence.offset)
    (fun _ _ _ _ holds run => ahead_act _ holds.2 run) ⟨ahead, before⟩ run

theorem position_le_passed (skips : sweep.Skips occurrence.offset)
    (run : pass outline sweep occurrence = .ok after) : sweep.position ≤ after.position := by
  rw [pass_of_skips skips] at run
  rcases skip_eq_ok.mp run with ⟨-, -, rfl⟩
  show sweep.position ≤ (sweep.passed occurrence.offset).position
  unfold passed
  split
  · exact Nat.le_refl _
  · next behind => exact Nat.le_of_not_lt behind

theorem Ahead.pass (ahead : sweep.Ahead) (run : pass outline sweep occurrence = .ok after) :
    after.Ahead := by
  by_cases skips : sweep.Skips occurrence.offset
  · intro piece listed
    rw [(pieces_skip skips run).1] at listed
    exact (ahead piece listed).trans (position_le_passed skips run)
  · have forward := Nat.le_of_not_lt fun passed => skips (.inl passed)
    rw [pass_of_not_skips skips, read_eq_actions] at run
    exact (ahead.acts (fun piece listed => (ahead piece listed).trans forward) run).1

/-- What holds of a sweep wherever it has come to. -/
theorem progress_of_run (lasts : LastTerminators outline) {taken : List Occurrence}
    (run : taken.foldlM (Sweep.pass outline) start = .ok sweep) :
    RowsEnd outline sweep ∧ sweep.Ahead := by
  refine foldlM_induction (motive := fun sweep => RowsEnd outline sweep ∧ sweep.Ahead)
    (fun _ _ _ _ holds run => ⟨holds.1.pass lasts run, holds.2.pass run⟩) (And.intro ?_ ?_) run
  · exact fun _ impossible => by cases impossible
  · exact fun _ impossible => by cases impossible

/-! ## A range that is passed -/

/-- The sweep is behind a range of the text, and no piece has text of it. -/
structure Beyond (first last : Nat) (sweep : Sweep) : Prop where
  position : last ≤ sweep.position
  pieces : Spares sweep.plan.pieces first last

variable {first last : Nat}

theorem Beyond.close (beyond : sweep.Beyond first last) (forward : last ≤ occurrence.offset)
    {scope : ScopeId} (run : close outline occurrence sweep scope = .ok after) :
    after.Beyond first last := by
  rcases close_eq_ok.mp run with ⟨row, rest, -, -, rfl⟩
  exact ⟨forward.trans (Nat.le_max_right _ _),
    beyond.pieces.assigned (.inr (Nat.le_min.mpr ⟨beyond.position, forward⟩))⟩

theorem Beyond.openRow (beyond : sweep.Beyond first last) {id : ScopeId}
    (run : openRow outline occurrence sweep id = .ok after) : after.Beyond first last := by
  rcases openRow_eq_ok.mp run with ⟨scope, -, -, forward, rfl⟩
  exact ⟨beyond.position.trans forward, beyond.pieces.assigned (.inr beyond.position)⟩

theorem Beyond.insert (beyond : sweep.Beyond first last) {id : SlotId}
    (run : insert outline occurrence sweep id = .ok after) : after.Beyond first last := by
  rcases insert_eq_ok.mp run with ⟨slot, host, -, -, forward, rfl⟩
  exact ⟨beyond.position.trans forward, beyond.pieces.assigned (.inr beyond.position)⟩

/-- What a marker begins and inserts, once it has ended what it ends. -/
theorem Beyond.goOn {closed opened : Sweep} (beyond : closed.Beyond first last)
    (opens : occurrence.opens.foldlM (Sweep.openRow outline occurrence) closed = .ok opened)
    (inserts : occurrence.slot.toList.foldlM (Sweep.insert outline occurrence) opened = .ok after) :
    after.Beyond first last := by
  have between : opened.Beyond first last :=
    foldlM_induction (fun _ _ _ _ beyond run => beyond.openRow run) beyond opens
  exact foldlM_induction (fun _ _ _ _ beyond run => beyond.insert run) between inserts

theorem Beyond.pass (beyond : sweep.Beyond first last)
    (run : pass outline sweep occurrence = .ok after) : after.Beyond first last := by
  by_cases skips : sweep.Skips occurrence.offset
  · refine ⟨beyond.position.trans (position_le_passed skips run), ?_⟩
    rw [(pieces_skip skips run).1]
    exact beyond.pieces
  · have forward := Nat.le_of_not_lt fun passed => skips (.inl passed)
    rw [pass_of_not_skips skips] at run
    rcases read_eq_ok.mp run with ⟨closed, opened, closes, opens, inserts⟩
    have behind : closed.Beyond first last :=
      foldlM_induction (fun _ _ _ _ ended run => ended.close (beyond.position.trans forward) run)
        beyond closes
    exact behind.goOn opens inserts

/-- The marker that ends repetitions takes the sweep to the last terminator of the
outermost of them. -/
theorem beyond_of_closes (lasts : LastTerminators outline) (rowsEnd : RowsEnd outline sweep) (ahead : sweep.Ahead)
    {outer : ScopeId} (ends : outer ∈ occurrence.closes.head?)
    (resumes : outline.told Dimension.skipEnd outer = some last)
    (run : pass outline sweep occurrence = .ok after) :
    after.Beyond occurrence.offset last := by
  rcases List.head?_eq_some_iff.mp ends with ⟨inner, closes⟩
  by_cases skips : sweep.Skips occurrence.offset
  · rw [pass_of_skips skips] at run
    rcases skip_eq_ok.mp run with ⟨none, -, -⟩
    rw [closes] at none
    cases none
  · have forward := Nat.le_of_not_lt fun passed => skips (.inl passed)
    rw [pass_of_not_skips skips] at run
    rcases read_eq_ok.mp run with ⟨closed, opened, first, opens, inserts⟩
    rw [closes, List.reverse_cons] at first
    rcases foldlM_concat_eq_ok.mp first with ⟨between, inside, outermost⟩
    have early : ∀ piece ∈ sweep.plan.pieces, piece.stop ≤ occurrence.offset :=
      fun piece listed => (ahead piece listed).trans forward
    have innerEnds : inner.reverse.foldlM (fun sweep scope =>
        act outline occurrence sweep (.close scope)) sweep = .ok between := inside
    have ends : RowsEnd outline between ∧
        ∀ piece ∈ between.plan.pieces, piece.stop ≤ occurrence.offset :=
      foldlM_induction (motive := fun state => RowsEnd outline state ∧
          ∀ piece ∈ state.plan.pieces, piece.stop ≤ occurrence.offset)
        (fun _ _ _ _ holds run => ⟨holds.1.act lasts run, (ahead_act _ holds.2 run).2⟩)
        ⟨rowsEnd, early⟩ innerEnds
    have behind : closed.Beyond occurrence.offset last := by
      have stops := (ahead_act (.close outer) ends.2 outermost).2
      rcases close_eq_ok.mp outermost with ⟨row, rest, rows, named, rfl⟩
      have known := ends.1 row (by rw [rows]; exact .head _)
      rw [named, resumes] at known
      refine ⟨(Nat.le_of_eq (Option.some.inj known)).trans (Nat.le_max_left _ _), ?_⟩
      intro piece listed place behind _ contains
      exact Nat.not_lt_of_le ((stops piece listed).trans behind) contains.2
    exact behind.goOn opens inserts

/-- Behind the marker that ends a repetition the row is passed for good. -/
theorem beyond_of_run (lasts : LastTerminators outline) {front back : List Occurrence}
    {outer : ScopeId} (ends : outer ∈ occurrence.closes.head?)
    (resumes : outline.told Dimension.skipEnd outer = some last)
    (run : (front ++ occurrence :: back).foldlM (Sweep.pass outline) start = .ok sweep) :
    sweep.Beyond occurrence.offset last := by
  rcases foldlM_append_eq_ok.mp run with ⟨before, early, late⟩
  rcases foldlM_cons_eq_ok.mp late with ⟨at_, passed, late⟩
  have progress := progress_of_run lasts early
  have begun := beyond_of_closes lasts progress.1 progress.2 ends resumes passed
  exact foldlM_induction (fun _ _ _ _ beyond run => beyond.pass run) begun late

end Sweep

/-! ## Documents -/

theorem lastTerminators_of_wellBounded (bounded : Outline.WellBounded markers outline) :
    Sweep.LastTerminators outline := by
  intro id scope dimension closing found kind ended
  rcases (bounded.order id scope dimension closing found kind ended).2.2 with ⟨last, known, -⟩
  exact ⟨last, known⟩

/-- Only one marker ends a repetition, at the place of its end. -/
theorem eq_of_closes (registered : Registered markers outline) {id : ScopeId} {closing : Place}
    (ended : outline.closingOf id = some closing) {other : Occurrence}
    (listed : occurrence ∈ outline.occurrences.toList) (closes : id ∈ occurrence.closes)
    (otherListed : other ∈ outline.occurrences.toList) (otherCloses : id ∈ other.closes) :
    occurrence = other ∧ occurrence.offset = closing.offset := by
  rcases Array.getElem?_of_mem (Array.mem_toList_iff.mp listed) with ⟨index, found⟩
  rcases Array.getElem?_of_mem (Array.mem_toList_iff.mp otherListed) with ⟨place, otherFound⟩
  have here := registered.closingOf_of_closes found closes
  have there := registered.closingOf_of_closes otherFound otherCloses
  rw [ended] at here there
  cases here
  exact ⟨Outline.occurrence_eq_of_point found otherFound
    (congrArg Place.point (Option.some.inj there)), rfl⟩

theorem exists_closes (registered : Registered markers outline) {id : ScopeId} {closing : Place}
    (ended : outline.closingOf id = some closing) :
    ∃ occurrence ∈ outline.occurrences.toList, id ∈ occurrence.closes := by
  rcases (registered.closing id closing).mp ended with ⟨index, occurrence, found, closes, -⟩
  exact ⟨occurrence, Array.mem_toList_iff.mpr (Array.mem_of_getElem? found), closes⟩

/-- Behind the marker that ends a repetition the sweep stays behind the place where it
goes on there, and nothing is emitted from between. -/
theorem beyond_of_resumesAt (lasts : Sweep.LastTerminators outline)
    (registered : Registered markers outline) {id : ScopeId} {closing : Place}
    (ended : outline.closingOf id = some closing) {resume : Nat}
    (resumes : ResumesAt outline id resume) {front back : List Occurrence}
    (split : outline.occurrences.toList = front ++ back)
    (behind : ∃ occurrence ∈ front, id ∈ occurrence.closes)
    (run : front.foldlM (Sweep.pass outline) .start = .ok sweep) :
    sweep.Beyond closing.offset resume := by
  rcases resumes with ⟨occurrence, listed, closes, outer, ends, resumes⟩
  rcases behind with ⟨other, early, otherCloses⟩
  have otherListed : other ∈ outline.occurrences.toList := by
    rw [split]
    exact List.mem_append_left _ early
  rcases eq_of_closes registered ended listed closes otherListed otherCloses with ⟨rfl, place⟩
  rcases List.append_of_mem early with ⟨before, after, rfl⟩
  rw [← place]
  exact Sweep.beyond_of_run lasts ends resumes run

/-- The sweep goes on no earlier than at the last terminator of a covered repetition. -/
theorem EndsCovered.resumesAt {id : ScopeId} (covered : EndsCovered outline id)
    (ends : ∃ occurrence ∈ outline.occurrences.toList, id ∈ occurrence.closes) {last : Nat}
    (terminated : outline.told Dimension.skipEnd id = some last) :
    ∃ resume, ResumesAt outline id resume ∧ last ≤ resume := by
  rcases ends with ⟨occurrence, listed, closes⟩
  cases outermost : occurrence.closes.head? with
  | none =>
    rw [List.head?_eq_none_iff.mp outermost] at closes
    cases closes
  | some outer =>
    rcases covered occurrence listed closes outer outermost last terminated with
      ⟨resume, known, later⟩
    exact ⟨resume, ⟨occurrence, listed, closes, outer, outermost, known⟩, later⟩

/-- The row behind the end of a covered repetition is passed up to its last terminator: no
piece of the document has text from between, and the sweep does not come back. -/
theorem terminated_row_spared {policy : Unterminated} {text : String} {layout : Layout}
    (accepted : ofMarkers markers policy = .ok outline) (laid : ofText outline text = .ok layout)
    {id : ScopeId} {closing : Place} {last : Nat}
    (ended : outline.closingOf id = some closing)
    (terminated : outline.told Dimension.skipEnd id = some last)
    (covered : EndsCovered outline id) :
    (∃ plan, Plan.make outline (Text.byteSize text.toList) = .ok plan ∧
      layout = ofPlan outline plan text.toList ∧ Spares plan.pieces closing.offset last) ∧
    ∀ front back sweep, outline.occurrences.toList = front ++ back →
      (∃ occurrence ∈ front, id ∈ occurrence.closes) →
      front.foldlM (Sweep.pass outline) .start = .ok sweep → last ≤ sweep.position := by
  have lasts := lastTerminators_of_wellBounded (Outline.wellFormed_of_ofMarkers accepted).dimensions
  have registered := Outline.registered_of_ofMarkers accepted
  have ends := exists_closes registered ended
  rcases covered.resumesAt ends terminated with ⟨resume, resumes, later⟩
  constructor
  · rcases ofText_eq_ok.mp laid with ⟨-, plan, made, rfl⟩
    refine ⟨plan, made, rfl, ?_⟩
    rcases bind_eq_ok.mp made with ⟨sweep, swept, finished⟩
    rcases finish_eq_ok.mp finished with ⟨-, within, rfl⟩
    have beyond := beyond_of_resumesAt lasts registered ended resumes (List.append_nil _).symm
      ends swept
    have spared : Spares (sweep.assign (lastRole outline) sweep.position
        (Text.byteSize text.toList)).plan.pieces closing.offset resume :=
      beyond.pieces.assigned (.inr beyond.position)
    intro piece listed place behind before
    exact spared piece listed place behind (before.trans_le later)
  · intro front back sweep split behind run
    have beyond := beyond_of_resumesAt lasts registered ended resumes split behind run
    exact later.trans beyond.position

/-- Both repetitions end at one marker, and both have their last terminator at another. -/
def pairedEnds : List Marker :=
  [⟨0, "d.m[i][j].v"⟩, ⟨5, "d.m[i+1][j+1].v"⟩, ⟨9, "d.m[i+1][j+1].v"⟩]

theorem terminated_row_spared_pairedEnds :
    ∃ outline layout, ofMarkers pairedEnds .permissive = .ok outline ∧
      ofText outline "0123456789" = .ok layout ∧
      (∃ plan, Plan.make outline (Text.byteSize "0123456789".toList) = .ok plan ∧
        layout = ofPlan outline plan "0123456789".toList ∧ Spares plan.pieces 5 9) ∧
      ∀ front back sweep, outline.occurrences.toList = front ++ back →
        (∃ occurrence ∈ front, 2 ∈ occurrence.closes) →
        front.foldlM (Sweep.pass outline) .start = .ok sweep → 9 ≤ sweep.position := by
  have fits : (do
      let outline ← ofMarkers pairedEnds .permissive
      let layout ← ofText outline "0123456789"
      if outline.closingOf 2 = some ⟨5, 2⟩ ∧ outline.told Dimension.skipEnd 2 = some 9 ∧
          EndsCovered outline 2 then .ok layout
        else .error (.stopped 5 9) : Except Error Layout).isOk = true := by
    decide +kernel
  rcases exists_of_isOk fits with ⟨_, run⟩
  rcases bind_eq_ok.mp run with ⟨outline, accepted, run⟩
  rcases bind_eq_ok.mp run with ⟨layout, laid, run⟩
  split at run
  · next known =>
    rcases known with ⟨ended, terminated, covered⟩
    exact ⟨outline, layout, accepted, laid,
      terminated_row_spared accepted laid ended terminated covered⟩
  · cases run

/-- Only the inner one of two repetitions that end at one marker has a later terminator. -/
def longerInside : List Marker :=
  [⟨0, "d.m[i][j].v"⟩, ⟨5, "d.m[i+1][j+1].v"⟩, ⟨9, "d.m[i][j+1].v"⟩]

/-- The row of the inner repetition is not passed to its end: the text between its two
terminators is emitted behind the document. -/
theorem terminated_row_emitted :
    ∃ outline layout plan, ofMarkers longerInside .permissive = .ok outline ∧
      ofText outline "0123456789" = .ok layout ∧
      Plan.make outline (Text.byteSize "0123456789".toList) = .ok plan ∧
      outline.closingOf 2 = some ⟨5, 2⟩ ∧ outline.told Dimension.skipEnd 2 = some 9 ∧
      ¬ Spares plan.pieces 5 9 ∧ layout.after = "56789" := by
  have leaks : (do
      let outline ← ofMarkers longerInside .permissive
      let plan ← Plan.make outline (Text.byteSize "0123456789".toList)
      let layout ← ofText outline "0123456789"
      if outline.closingOf 2 = some ⟨5, 2⟩ ∧ outline.told Dimension.skipEnd 2 = some 9 ∧
          (∃ piece ∈ plan.pieces, piece.Contains 5) ∧ layout.after = "56789" then .ok layout
        else .error (.stopped 5 9) : Except Error Layout).isOk = true := by
    decide +kernel
  rcases exists_of_isOk leaks with ⟨_, run⟩
  rcases bind_eq_ok.mp run with ⟨outline, accepted, run⟩
  rcases bind_eq_ok.mp run with ⟨plan, made, run⟩
  rcases bind_eq_ok.mp run with ⟨layout, laid, run⟩
  split at run
  · next known =>
    rcases known with ⟨ended, terminated, ⟨piece, listed, contains⟩, behind⟩
    refine ⟨outline, layout, plan, accepted, laid, made, ended, terminated, ?_, behind⟩
    exact fun spares => spares piece listed 5 (by decide) (by decide) contains
  · cases run

end Stencil.Layout
