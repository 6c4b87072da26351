import Stencil.Proofs.Layout.Refusal
import Stencil.Proofs.Outline.Lookups
import Stencil.Proofs.Text.Slices

namespace Stencil.Layout

open Outline (Registered)

/-!
# The text that a sweep asks for

Every end or beginning of a repetition and every value asks for the text up to its
marker, and the end of the document for what is left.  If the markers stand within the
text, each between two characters or at an end, then so do both ends of all that is
asked for.  That no range ends before it begins takes more, since the sweep stands
behind a marker that ended a repetition: such a marker must not ask for anything else.
-/

variable {outline : Outline} {occurrence : Occurrence} {sweep after : Sweep} {error : Error}
  {fits : Nat → Prop} {markers : List Marker} {start stop : Nat}

namespace Sweep

/-! ## Between two actions -/

/-- The sweep at a marker that is read, some of its actions still to come. -/
structure Amid (outline : Outline) (occurrence : Occurrence) (ahead : List Action)
    (sweep : Sweep) : Prop where
  reached : ∃ front before behind, front ++ [occurrence] <+: outline.occurrences.toList ∧
    front.foldlM (pass outline) Sweep.start = .ok before ∧ ¬ before.Skips occurrence.offset ∧
    actionsOf occurrence = behind ++ ahead ∧
    behind.foldlM (act outline occurrence) before = .ok sweep

variable {action : Action} {ahead : List Action}

theorem Amid.next (amid : Amid outline occurrence (action :: ahead) sweep)
    (run : act outline occurrence sweep action = .ok after) :
    Amid outline occurrence ahead after := by
  rcases amid.reached with ⟨front, before, behind, within, ran, reads, split, done⟩
  refine ⟨front, before, behind ++ [action], within, ran, reads, ?_,
    foldlM_concat_eq_ok.mpr ⟨sweep, done, run⟩⟩
  rw [split, List.append_assoc]
  rfl

theorem Amid.listed (amid : Amid outline occurrence ahead sweep) :
    occurrence ∈ outline.occurrences.toList := by
  rcases amid.reached with ⟨front, before, behind, ⟨back, whole⟩, -⟩
  rw [← whole]
  simp

theorem Amid.mem (amid : Amid outline occurrence (action :: ahead) sweep) :
    action ∈ actionsOf occurrence := by
  rcases amid.reached with ⟨front, before, behind, within, ran, reads, split, done⟩
  rw [split]
  simp

theorem Amid.stands (amid : Amid outline occurrence ahead sweep)
    (registered : Registered markers outline) (ends : Outline.EndsAt fits outline)
    (begins : fits 0) (here : ∀ occurrence ∈ outline.occurrences.toList, fits occurrence.offset) :
    Stands fits sweep := by
  have place := here occurrence amid.listed
  rcases amid.reached with ⟨front, before, behind, within, ran, reads, split, done⟩
  have early := stands_of_run registered ends begins here
    ((List.prefix_append _ _).trans within) ran
  refine foldlM_induction (fun before action after member stands run => ?_) early done
  exact stands.act registered ends (getElem?_of_isPrefix within) place
    (by rw [split]; exact List.mem_append_left _ member) run

/-- A marker that ends nothing is never behind the sweep. -/
theorem Amid.forward (amid : Amid outline occurrence ahead sweep) :
    occurrence.closes = [] → sweep.position ≤ occurrence.offset := by
  rcases amid.reached with ⟨front, before, behind, within, ran, reads, split, done⟩
  have begun : before.position ≤ occurrence.offset :=
    Nat.le_of_not_lt fun passed => reads (.inl passed)
  exact forward_of_actions (by rw [split]; exact List.subset_append_left _ _) (fun _ => begun) done

/-! ## Asking for text -/

/-- An attempt to make a longer plan asks for a range of the text: the range becomes the
last piece, or the program stops at it. -/
def AsksFor (outcome : Except Error Plan) (start stop : Nat) : Prop :=
  outcome = .error (.stopped start stop) ∨
    ∃ plan role, outcome = .ok plan ∧ plan.pieces.getLast? = some ⟨role, start, stop⟩

/-- Some action or the end of the document asks for a range of the text. -/
inductive Asked (outline : Outline) (length start stop : Nat) : Prop where
  | action (occurrence : Occurrence) (action : Action) (ahead : List Action) (sweep : Sweep)
      (amid : Amid outline occurrence (action :: ahead) sweep)
      (asks : AsksFor ((act outline occurrence sweep action).map Sweep.plan) start stop)
  | rest (sweep : Sweep)
      (swept : outline.occurrences.toList.foldlM (pass outline) Sweep.start = .ok sweep)
      (asks : AsksFor (finish outline length sweep) start stop)

theorem take_stopped {role : Role} {place : Nat}
    (run : sweep.take role place = .error (.stopped start stop)) :
    start = sweep.position ∧ stop = place := by
  unfold take at run
  split at run
  · cases run
  · cases run
    exact ⟨rfl, rfl⟩

theorem openRow_stopped {id : ScopeId}
    (run : openRow outline occurrence sweep id = .error (.stopped start stop)) :
    start = sweep.position ∧ stop = occurrence.offset := by
  unfold openRow at run
  split at run
  · cases run
  · simp only at run
    split at run
    · exact take_stopped (map_eq_error.mp run)
    · cases run

theorem insert_stopped {id : SlotId}
    (run : insert outline occurrence sweep id = .error (.stopped start stop)) :
    start = sweep.position ∧ stop = occurrence.offset := by
  unfold insert at run
  split at run
  · cases run
  · simp only at run
    split at run
    · unfold outOfPlace at run
      split at run <;> cases run
    · exact take_stopped (map_eq_error.mp run)

/-- An action that stops the program wanted the text up to its marker. -/
theorem act_stopped (run : act outline occurrence sweep action = .error (.stopped start stop)) :
    start = sweep.position ∧ stop = occurrence.offset := by
  cases action with
  | close scope =>
    rcases refusal_of_close run with ⟨path, offset, fault, other, impossible⟩
    cases impossible
  | openRow id => exact openRow_stopped run
  | insert id => exact insert_stopped run

theorem finish_stopped {length : Nat}
    (run : finish outline length sweep = .error (.stopped start stop)) :
    start = sweep.position ∧ stop = length := by
  unfold finish at run
  split at run
  · cases run
  · exact take_stopped (map_eq_error.mp run)

/-- The last piece of a plan is one of its pieces. -/
theorem Stands.last (stands : Stands fits sweep) {role : Role}
    (last : sweep.plan.pieces.getLast? = some ⟨role, start, stop⟩) :
    start ≤ stop ∧ fits start ∧ fits stop :=
  stands.pieces _ (List.mem_of_getLast? last)

/-- What is left of a text is its last piece. -/
theorem Stands.finished (stands : Stands fits sweep) {length : Nat} (stops : fits length)
    {plan : Plan} (run : finish outline length sweep = .ok plan) {role : Role}
    (last : plan.pieces.getLast? = some ⟨role, start, stop⟩) :
    start ≤ stop ∧ fits start ∧ fits stop := by
  rcases finish_eq_ok.mp run with ⟨-, within, rfl⟩
  exact stands.assigned within stands.position stops _ (List.mem_of_getLast? last)

/-- Both ends of what is asked for are places of the kind that markers have. -/
theorem Asked.places {length : Nat} (asked : Asked outline length start stop)
    (registered : Registered markers outline) (ends : Outline.EndsAt fits outline)
    (begins : fits 0) (stops : fits length)
    (here : ∀ occurrence ∈ outline.occurrences.toList, fits occurrence.offset) :
    fits start ∧ fits stop := by
  cases asked with
  | action occurrence action ahead sweep amid asks =>
    rcases asks with stopped | ⟨plan, role, done, last⟩
    · rcases act_stopped (map_eq_error.mp stopped) with ⟨rfl, rfl⟩
      exact ⟨(amid.stands registered ends begins here).position, here _ amid.listed⟩
    · rcases map_eq_ok.mp done with ⟨after, run, rfl⟩
      exact (((amid.next run).stands registered ends begins here).last last).2
  | rest sweep swept asks =>
    have stands := stands_of_run registered ends begins here (List.prefix_refl _) swept
    rcases asks with stopped | ⟨plan, role, done, last⟩
    · rcases finish_stopped stopped with ⟨rfl, rfl⟩
      exact ⟨stands.position, stops⟩
    · exact (stands.finished stops done last).2

/-- No range that is asked for ends before it begins, if no marker ends a repetition and
asks for something else as well. -/
theorem Asked.forward {length : Nat} (asked : Asked outline length start stop)
    (orderly : Orderly outline) (registered : Registered markers outline)
    (ends : Outline.EndsAt (· ≤ length) outline)
    (within : ∀ occurrence ∈ outline.occurrences.toList, occurrence.offset ≤ length) :
    start ≤ stop := by
  cases asked with
  | action occurrence action ahead sweep amid asks =>
    rcases asks with stopped | ⟨plan, role, done, last⟩
    · rcases refusal_of_act orderly amid.listed amid.mem amid.forward (map_eq_error.mp stopped) with
        ⟨path, offset, fault, other, impossible⟩
      cases impossible
    · rcases map_eq_ok.mp done with ⟨after, run, rfl⟩
      exact (((amid.next run).stands registered ends (Nat.zero_le _) within).last last).1
  | rest sweep swept asks =>
    have stands := stands_of_run registered ends (Nat.zero_le _) within (List.prefix_refl _) swept
    rcases asks with stopped | ⟨plan, role, done, last⟩
    · rcases refusal_of_finish stands.position stopped with ⟨path, offset, fault, other, impossible⟩
      cases impossible
    · exact (stands.finished (Nat.le_refl _) done last).1

end Sweep

/-! ## Texts -/

/-- A range that can be cut out of a text. -/
structure Cuts (text : String) (start stop : Nat) : Prop where
  forward : start ≤ stop
  within : stop ≤ Text.byteSize text.toList
  starts : Text.isBoundary start text.toList = true
  stops : Text.isBoundary stop text.toList = true

/-- Nothing is asked of a text that it does not have. -/
structure Readable (outline : Outline) (text : String) : Prop where
  ranges : ∀ start stop, Sweep.Asked outline (Text.byteSize text.toList) start stop →
    Cuts text start stop
  rows : ∀ occurrence ahead sweep, Sweep.Amid outline occurrence ahead sweep →
    ∀ row ∈ sweep.rows, row.start ≤ row.tail
  slots : ∀ occurrence ∈ outline.occurrences.toList, ∀ id ∈ occurrence.slot,
    id < outline.slots.size

theorem readable_of_fits {growth : Outline.Growth} (plain : Outline.PlainMarkers markers)
    (run : markers.foldlM Outline.grow Outline.Growth.start = .ok growth) {text : String}
    (fits : Fits growth.outline text) : Readable growth.outline text := by
  have registered := Outline.registered_of_growth run
  have within : ∀ occurrence ∈ growth.outline.occurrences.toList,
      occurrence.offset ≤ Text.byteSize text.toList :=
    fun occurrence listed => (offsetFault?_eq_none.mp (fits occurrence listed)).1
  have here : ∀ occurrence ∈ growth.outline.occurrences.toList,
      occurrence.offset ≤ Text.byteSize text.toList ∧
        Text.isBoundary occurrence.offset text.toList = true :=
    fun occurrence listed => offsetFault?_eq_none.mp (fits occurrence listed)
  have begins := And.intro (Nat.zero_le (Text.byteSize text.toList)) (Text.isBoundary_zero text.toList)
  have stops := And.intro (Nat.le_refl (Text.byteSize text.toList))
    (Text.isBoundary_byteSize text.toList)
  have ends : Outline.EndsAt (fun place => place ≤ Text.byteSize text.toList ∧
      Text.isBoundary place text.toList = true) growth.outline := endsAt_of_fits run here
  constructor
  · intro start stop asked
    have kinds := asked.places registered ends begins stops here
    have forward := asked.forward (orderly_of_growth plain run) registered
      (endsAt_of_fits run within) within
    exact ⟨forward, kinds.2.1, kinds.1.2, kinds.2.2⟩
  · intro occurrence ahead sweep amid row listed
    exact ((amid.stands registered ends begins here).rows row listed).2
  · exact slot_lt_of_registered registered

/-- An offset that is no place in the text is reported. -/
theorem ofSource_of_offsetFault? {cs : List Char}
    (faulty : offsetFault? cs occurrence = some error) : error.OfSource := by
  unfold offsetFault? at faulty
  split at faulty
  · cases faulty
    exact trivial
  · split at faulty
    · cases faulty
    · cases faulty
      exact trivial

/-- The program stops only at a range that it asked for. -/
theorem asked_of_stopped {text : String} (run : ofText outline text = .error (.stopped start stop)) :
    Fits outline text ∧ Sweep.Asked outline (Text.byteSize text.toList) start stop := by
  rcases ofText_eq_error run with ⟨occurrence, -, same⟩ | ⟨faultless, fails⟩
  · exact (ofSource_of_offsetFault? same).elim
  refine ⟨fits_of_findSome? faultless, ?_⟩
  rcases bind_eq_error.mp fails with fails | ⟨sweep, swept, fails⟩
  · rcases foldlM_eq_error fails with ⟨front, occurrence, back, before, whole, ran, fails⟩
    have within : front ++ [occurrence] <+: outline.occurrences.toList := by
      rw [whole]
      exact ⟨back, by simp⟩
    by_cases skips : before.Skips occurrence.offset
    · rw [Sweep.pass_of_skips skips] at fails
      rcases Sweep.refusal_of_skip fails with ⟨path, offset, fault, other, impossible⟩
      cases impossible
    · rw [Sweep.pass_of_not_skips skips, Sweep.read_eq_actions] at fails
      rcases foldlM_eq_error fails with ⟨behind, action, ahead, sweep, split, done, fails⟩
      exact .action occurrence action ahead sweep
        ⟨front, before, behind, within, ran, skips, split, done⟩ (.inl (map_eq_error.mpr fails))
  · exact .rest sweep swept (.inl fails)

end Stencil.Layout
