import Stencil.Proofs.Layout.Composed
import Stencil.Proofs.Outline.Origins
import Stencil.Proofs.Outline.WellFormed

namespace Stencil

/-!
# Documents without repetitions

Where markers neither begin nor end repetitions, none is skipped, and the text between
each two of them precedes the value of the second.  So a document laid out around its
markers is the text cut at their offsets, with a value at each cut.
-/

/-- A text from an offset on, cut at some offsets with something put in at each cut.
There is none if the text cannot be cut there. -/
def Text.interleave? (cs : List Char) : Nat → List (Nat × String) → Option (List Char)
  | start, [] => slice? start (byteSize cs) cs
  | start, (place, inserted) :: more =>
    (slice? start place cs).bind fun front =>
      (interleave? cs place more).map fun back => front ++ inserted.toList ++ back

namespace Layout

open Outline (ofMarkers)

variable {outline : Outline} {sweep after : Sweep} {occurrence : Occurrence} {plan : Plan}
  {cs : List Char}

/-- All markers of an outline insert values, and no value lies in a dimension. -/
structure Sequential (outline : Outline) : Prop where
  dimensions : ∀ id, outline.dimensionsAround id = []
  repetitions : ∀ id, outline.repetitionsAround id = []
  inserts : ∀ occurrence ∈ outline.occurrences.toList,
    occurrence.opens = [] ∧ occurrence.closes = [] ∧ ∃ id, occurrence.slot = some id

/-! ## The sweep -/

namespace Sweep

/-- No repetition is being read, nothing is to be skipped, and all values so far are
emitted from the top level. -/
structure Level (sweep : Sweep) : Prop where
  rows : sweep.rows = []
  echo : sweep.echo = none
  dropped : sweep.plan.dropped = []
  hosts : ∀ seat ∈ sweep.plan.hosts, seat.2 = none

theorem level_start : Level start where
  rows := rfl
  echo := rfl
  dropped := rfl
  hosts _ impossible := absurd impossible List.not_mem_nil

theorem Level.inserted (level : sweep.Level) (id : SlotId) (place : Nat) :
    (sweep.inserted id none place).Level where
  rows := by
    show extendTail place sweep.rows = []
    rw [level.rows]
    rfl
  echo := rfl
  dropped := level.dropped
  hosts seat listed := by
    rcases List.mem_cons.mp listed with rfl | old
    · rfl
    · exact level.hosts seat old

/-- A marker inserts its value. -/
theorem Level.pass (level : sweep.Level) (sequential : Sequential outline)
    (listed : occurrence ∈ outline.occurrences.toList)
    (forward : sweep.position ≤ occurrence.offset)
    (run : Sweep.pass outline sweep occurrence = .ok after) :
    ∃ id, occurrence.slot = some id ∧ after = sweep.inserted id none occurrence.offset := by
  rcases sequential.inserts occurrence listed with ⟨opens, closes, id, slot⟩
  have reads : ¬ sweep.Skips occurrence.offset := by
    rintro (before | echo)
    · exact Nat.not_lt_of_le forward before
    · rw [level.echo] at echo
      cases echo
  rw [pass_of_not_skips reads, read_eq_ok, opens, closes, slot] at run
  rcases run with ⟨_, _, closed, opened, inserted⟩
  cases closed
  cases opened
  rcases foldlM_cons_eq_ok.mp inserted with ⟨behind, inserted, rest⟩
  cases foldlM_nil_eq_ok.mp rest
  rcases insert_eq_ok.mp inserted with ⟨value, host, -, hosted, -, rfl⟩
  rw [sequential.dimensions, sequential.repetitions, reading, level.rows] at hosted
  cases hosted
  exact ⟨id, slot, rfl⟩

/-- The pieces from an offset on: one before each value, and one behind them. -/
def piecesFrom (last : Role) (length : Nat) : Nat → List Occurrence → List Piece
  | start, [] => [⟨last, start, length⟩]
  | start, occurrence :: more =>
    occurrence.slot.toList.map (fun id => ⟨.leading id, start, occurrence.offset⟩) ++
      piecesFrom last length occurrence.offset more

theorem plan_of_level {length : Nat} (sequential : Sequential outline)
    {occurrences : List Occurrence}
    (known : ∀ occurrence ∈ occurrences, occurrence ∈ outline.occurrences.toList)
    (ascending : occurrences.Pairwise fun left right => left.offset ≤ right.offset) :
    ∀ {sweep : Sweep}, sweep.Level →
      (∀ occurrence ∈ occurrences, sweep.position ≤ occurrence.offset) →
      occurrences.foldlM (Sweep.pass outline) sweep = .ok after →
      finish outline length after = .ok plan →
      plan.pieces = sweep.plan.pieces ++
          piecesFrom (lastRole outline) length sweep.position occurrences ∧
        plan.dropped = [] ∧ ∀ seat ∈ plan.hosts, seat.2 = none := by
  induction occurrences with
  | nil =>
    intro sweep level _ run finished
    cases foldlM_nil_eq_ok.mp run
    rcases finish_eq_ok.mp finished with ⟨-, -, rfl⟩
    exact ⟨rfl, level.dropped, level.hosts⟩
  | cons occurrence more ih =>
    intro sweep level forward run finished
    rcases foldlM_cons_eq_ok.mp run with ⟨between, passed, run⟩
    rcases level.pass sequential (known occurrence (.head _)) (forward occurrence (.head _)) passed
      with ⟨id, slot, rfl⟩
    rcases List.pairwise_cons.mp ascending with ⟨behind, ascending⟩
    rcases ih (fun other member => known other (.tail _ member)) ascending
      (level.inserted id occurrence.offset) behind run finished with ⟨pieces, rest⟩
    refine ⟨?_, rest⟩
    rw [pieces, piecesFrom, slot]
    show (sweep.plan.pieces ++ [_]) ++ _ = sweep.plan.pieces ++ ([_] ++ _)
    rw [List.append_assoc]
    rfl

end Sweep

/-! ## The text -/

/-- What precedes the value of an occurrence. -/
def leadingAt (layout : Layout) (occurrence : Occurrence) : String :=
  (occurrence.slot.map layout.leading).getD ""

/-- Slices that follow each other, with something between each two, make up the text with
insertions. -/
theorem interleave?_of_slices {last : Role} (lead : Role → String) (shown : Occurrence → String)
    (occurrences : List Occurrence) :
    ∀ {start : Nat}, (∀ occurrence ∈ occurrences, ∃ id, occurrence.slot = some id) →
      (∀ piece ∈ Sweep.piecesFrom last (Text.byteSize cs) start occurrences,
        Text.slice? piece.start piece.stop cs = some (lead piece.role).toList) →
      Text.interleave? cs start
          (occurrences.map fun occurrence => (occurrence.offset, shown occurrence)) =
        some (String.join (occurrences.map fun occurrence =>
          (occurrence.slot.map fun id => lead (.leading id)).getD "" ++ shown occurrence) ++
            lead last).toList := by
  induction occurrences with
  | nil =>
    intro start _ slices
    rw [List.map_nil, List.map_nil, String.join_nil, String.empty_append]
    exact slices ⟨last, start, Text.byteSize cs⟩ (.head _)
  | cons occurrence more ih =>
    intro start inserts slices
    rcases inserts occurrence (.head _) with ⟨id, slot⟩
    rw [Sweep.piecesFrom, slot] at slices
    have own := slices ⟨.leading id, start, occurrence.offset⟩ (.head _)
    have rest := ih (fun other member => inserts other (.tail _ member))
      fun piece member => slices piece (.tail _ member)
    rw [List.map_cons, List.map_cons, Text.interleave?, own, Option.bind_some, rest,
      Option.map_some, slot, String.join_cons]
    simp only [Option.map_some, Option.getD_some, String.toList_append, List.append_assoc]

/-- Without repetitions all values are emitted, from the top level. -/
theorem emitted_of_flat {plan : Plan} {text : String} {id : SlotId} (bound : id < outline.slots.size)
    (dropped : plan.dropped = []) (hosts : ∀ seat ∈ plan.hosts, seat.2 = none) :
    (ofPlan outline plan text.toList).omits id = false ∧
      (ofPlan outline plan text.toList).host outline id = none := by
  rw [omits_ofPlan outline plan text.toList bound, host_ofPlan outline plan text.toList bound,
    dropped]
  refine ⟨rfl, ?_⟩
  unfold Plan.host
  cases seated : plan.hosts.lookup id with
  | none => rfl
  | some host =>
    rcases List.lookup_eq_some_iff.mp seated with ⟨front, back, split, -⟩
    exact hosts (id, host) (by simp [split])

/-- What precedes the value of a marker is cut for it. -/
theorem leadingAt_ofPlan {markers : List Marker} (registered : Outline.Registered markers outline)
    (plan : Plan) (text : String) {occurrence : Occurrence}
    (member : occurrence ∈ outline.occurrences.toList) :
    (ofPlan outline plan text.toList).leadingAt occurrence =
      (occurrence.slot.map fun id => cut plan text.toList (.leading id)).getD "" := by
  cases slot : occurrence.slot with
  | none => simp only [leadingAt, slot, Option.map_none, Option.getD_none]
  | some id =>
    have bound := slot_lt_of_registered registered occurrence member id slot
    simp only [leadingAt, slot, Option.map_some, Option.getD_some]
    exact leading_ofPlan outline plan text.toList bound

/-- A document without repetitions: all values are emitted, from the top level, and with
the text around them they make up the text with insertions. -/
theorem interleave?_of_ofText {markers : List Marker} {policy : Unterminated} {text : String}
    {layout : Layout} (accepted : ofMarkers markers policy = .ok outline)
    (sequential : Sequential outline) (laid : ofText outline text = .ok layout) :
    (∀ id, id < outline.slots.size →
        layout.omits id = false ∧ layout.host outline id = none) ∧
      ∀ shown : Occurrence → String,
        Text.interleave? text.toList 0 (outline.occurrences.toList.map fun occurrence =>
            (occurrence.offset, shown occurrence)) =
          some (layout.before ++ String.join (outline.occurrences.toList.map fun occurrence =>
            layout.leadingAt occurrence ++ shown occurrence) ++ layout.after).toList := by
  rcases document_of_ofText accepted laid with ⟨plan, rfl, document⟩
  have registered := Outline.registered_of_ofMarkers accepted
  rcases bind_eq_ok.mp document.made with ⟨sweep, swept, finished⟩
  have ascending := List.pairwise_map.mp (Outline.wellRecorded_of_registered registered).ascending
  rcases Sweep.plan_of_level sequential (fun _ member => member) ascending Sweep.level_start
    (fun _ _ => Nat.zero_le _) swept finished with ⟨pieces, dropped, hosts⟩
  constructor
  · exact fun id bound => emitted_of_flat bound dropped hosts
  · intro shown
    have whole := interleave?_of_slices (cut plan text.toList) shown outline.occurrences.toList
      (fun occurrence member => (sequential.inserts occurrence member).2.2) (fun piece member => by
        have listed : piece ∈ plan.pieces := by
          rw [pieces]
          exact List.mem_append_right _ member
        rcases document.cuttable piece listed with ⟨forward, starts, stops⟩
        exact slice_of_piece document.planned.once listed forward starts stops)
    have leads : (outline.occurrences.toList.map fun occurrence =>
        (ofPlan outline plan text.toList).leadingAt occurrence ++ shown occurrence) =
        outline.occurrences.toList.map fun occurrence =>
          (occurrence.slot.map fun id => cut plan text.toList (.leading id)).getD "" ++
            shown occurrence :=
      List.map_congr_left fun occurrence member => by
        rw [leadingAt_ofPlan registered plan text member]
    rw [leads, document.before, document.after]
    refine whole.trans (congrArg (some ∘ String.toList) ?_)
    cases empty : outline.occurrences.isEmpty with
    | true =>
      have none : outline.occurrences.toList = [] := by simpa using empty
      rw [none]
      simp
    | false => simp

end Layout

end Stencil
