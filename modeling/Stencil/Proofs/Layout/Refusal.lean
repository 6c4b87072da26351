import Stencil.Proofs.Layout.Standing

namespace Stencil.Layout

open Outline (Rooted Registered OpensScopes)

/-!
# Why a document is refused

If the markers stand within the text, a document is refused for one reason only: its
repetitions are not nested like the dimensions they belong to, or a value stands
outside its repetition.  In particular the sweep never asks for a text that ends
before it begins.  It could do so behind a marker that ends a repetition and goes on
in it, but such a marker neither begins another nor inserts a value.
-/

variable {outline : Outline} {occurrence : Occurrence} {sweep after : Sweep} {error : Error}

/-- An error about the nesting of repetitions. -/
def Refusal (error : Error) : Prop :=
  ∃ path offset fault other, error = .brokenRepetition path offset fault other

/-- Occurrences that name what exists, and of which none ends a repetition and does
something else as well. -/
structure Orderly (outline : Outline) : Prop where
  opens : ∀ occurrence ∈ outline.occurrences.toList, ∀ id ∈ occurrence.opens,
    id < outline.scopes.size
  slots : ∀ occurrence ∈ outline.occurrences.toList, ∀ id ∈ occurrence.slot,
    id < outline.slots.size
  ends : ∀ occurrence ∈ outline.occurrences.toList, occurrence.closes ≠ [] →
    occurrence.opens = [] ∧ occurrence.slot = none

/-- Occurrences that name what exists. -/
structure Known (outline : Outline) : Prop where
  opens : OpensScopes outline
  slots : ∀ occurrence ∈ outline.occurrences.toList, ∀ id ∈ occurrence.slot,
    id < outline.slots.size

theorem Orderly.known (orderly : Orderly outline) : Known outline :=
  ⟨orderly.opens, orderly.slots⟩

theorem slot_lt_of_registered {markers : List Marker} (registered : Registered markers outline) :
    ∀ occurrence ∈ outline.occurrences.toList, ∀ id ∈ occurrence.slot,
      id < outline.slots.size := by
  intro occurrence listed id itsSlot
  rcases List.getElem?_of_mem listed with ⟨index, found⟩
  rw [Array.getElem?_toList] at found
  rcases registered.placed index occurrence id found itsSlot with ⟨slot, foundSlot, -⟩
  exact (Array.getElem?_eq_some_iff.mp foundSlot).1

theorem orderly_of_growth {markers : List Marker} {growth : Outline.Growth}
    (plain : Outline.PlainMarkers markers)
    (run : markers.foldlM Outline.grow Outline.Growth.start = .ok growth) :
    Orderly growth.outline where
  opens := Outline.opensScopes_of_growth run
  slots := slot_lt_of_registered (Outline.registered_of_growth run)
  ends occurrence listed closes :=
    ⟨(Outline.opens_or_closes_of_growth plain run occurrence listed).resolve_right closes,
      Outline.slot_eq_none_of_closes run occurrence listed closes⟩

theorem known_of_growth {markers : List Marker} {growth : Outline.Growth}
    (run : markers.foldlM Outline.grow Outline.Growth.start = .ok growth) :
    Known growth.outline :=
  ⟨Outline.opensScopes_of_growth run,
    slot_lt_of_registered (Outline.registered_of_growth run)⟩

namespace Sweep

/-- A sweep can be refused, or it stops at a place behind which it stands. -/
def RefusedOrStopped (sweep : Sweep) (place : Nat) (error : Error) : Prop :=
  Refusal error ∨ place < sweep.position ∧ error = .stopped sweep.position place

/-- A sweep that does not stand behind the place does not stop there. -/
theorem RefusedOrStopped.refusal {place : Nat} (outcome : RefusedOrStopped sweep place error)
    (forward : sweep.position ≤ place) : Refusal error :=
  outcome.resolve_right fun stopped => Nat.not_lt_of_le forward stopped.1

theorem refusal_misplaced (fault : RepetitionFault) (other : Option ScopeId) :
    Refusal (misplaced outline occurrence fault other) := ⟨_, _, _, _, rfl⟩

theorem take_eq_error {role : Role} {stop : Nat} (run : sweep.take role stop = .error error) :
    RefusedOrStopped sweep stop error := by
  unfold take at run
  split at run
  · cases run
  · next backward =>
    cases run
    exact .inr ⟨Nat.lt_of_not_le backward, rfl⟩

theorem refusal_of_skip (run : skip outline occurrence sweep = .error error) : Refusal error := by
  unfold skip at run
  split at run
  · cases run
    exact refusal_misplaced _ _
  · split at run
    · cases run
      exact refusal_misplaced _ _
    · cases run

theorem refusal_of_close {scope : ScopeId}
    (run : close outline occurrence sweep scope = .error error) : Refusal error := by
  unfold close at run
  split at run
  · cases run
    exact refusal_misplaced _ _
  · split at run
    · cases run
    · cases run
      exact refusal_misplaced _ _

theorem openRow_eq_error {id : ScopeId} (known : id < outline.scopes.size)
    (run : openRow outline occurrence sweep id = .error error) :
    RefusedOrStopped sweep occurrence.offset error := by
  unfold openRow at run
  rw [Array.getElem?_eq_getElem known] at run
  simp only at run
  split at run
  · exact take_eq_error (map_eq_error.mp run)
  · cases run
    exact .inl (refusal_misplaced _ _)

theorem insert_eq_error {id : SlotId} (known : id < outline.slots.size)
    (run : insert outline occurrence sweep id = .error error) :
    RefusedOrStopped sweep occurrence.offset error := by
  unfold insert at run
  rw [Array.getElem?_eq_getElem known] at run
  simp only at run
  split at run
  · cases run
    unfold outOfPlace
    split
    · exact .inl (refusal_misplaced _ _)
    · exact .inl (refusal_misplaced _ _)
  · exact take_eq_error (map_eq_error.mp run)

/-- An action at a marker that names what exists is refused or stops. -/
theorem act_eq_error (known : Known outline) (listed : occurrence ∈ outline.occurrences.toList)
    {action : Action} (member : action ∈ actionsOf occurrence)
    (run : act outline occurrence sweep action = .error error) :
    RefusedOrStopped sweep occurrence.offset error := by
  cases action with
  | close scope => exact .inl (refusal_of_close run)
  | openRow id =>
    have opens : id ∈ occurrence.opens := by simpa [actionsOf] using member
    exact openRow_eq_error (known.opens occurrence listed id opens) run
  | insert id =>
    have slot : occurrence.slot = some id := by simpa [actionsOf] using member
    exact insert_eq_error (known.slots occurrence listed id (by rw [slot]; rfl)) run

theorem pass_eq_error (known : Known outline) (listed : occurrence ∈ outline.occurrences.toList)
    (run : pass outline sweep occurrence = .error error) :
    ∃ before, RefusedOrStopped before occurrence.offset error := by
  by_cases skips : sweep.Skips occurrence.offset
  · rw [pass_of_skips skips] at run
    exact ⟨sweep, .inl (refusal_of_skip run)⟩
  · rw [pass_of_not_skips skips, read_eq_actions] at run
    rcases foldlM_eq_error run with ⟨front, action, back, before, split, -, fails⟩
    exact ⟨before, act_eq_error known listed (by rw [split]; simp) fails⟩

theorem finish_eq_error {length : Nat} (run : finish outline length sweep = .error error) :
    RefusedOrStopped sweep length error := by
  unfold finish at run
  split at run
  · cases run
    exact .inl ⟨_, _, _, _, rfl⟩
  · exact take_eq_error (map_eq_error.mp run)

/-- A marker that ends nothing is never behind the sweep. -/
theorem forward_of_act {action : Action} (member : action ∈ actionsOf occurrence)
    (run : act outline occurrence sweep action = .ok after) (closes : occurrence.closes = []) :
    after.position ≤ occurrence.offset := by
  cases action with
  | close scope => simp [actionsOf, closes] at member
  | openRow id =>
    rcases openRow_eq_ok.mp run with ⟨scope, -, -, -, rfl⟩
    exact Nat.le_refl _
  | insert id =>
    rcases insert_eq_ok.mp run with ⟨slot, host, -, -, -, rfl⟩
    exact Nat.le_refl _

theorem forward_of_actions {actions : List Action} (within : actions ⊆ actionsOf occurrence)
    (forward : occurrence.closes = [] → sweep.position ≤ occurrence.offset)
    (run : actions.foldlM (act outline occurrence) sweep = .ok after) :
    occurrence.closes = [] → after.position ≤ occurrence.offset :=
  foldlM_induction
    (motive := fun state => occurrence.closes = [] → state.position ≤ occurrence.offset)
    (fun _ _ _ member _ run => forward_of_act (within member) run) forward run

theorem refusal_of_act (orderly : Orderly outline)
    (listed : occurrence ∈ outline.occurrences.toList) {action : Action}
    (member : action ∈ actionsOf occurrence)
    (forward : occurrence.closes = [] → sweep.position ≤ occurrence.offset)
    (run : act outline occurrence sweep action = .error error) : Refusal error := by
  -- A marker that does more than to end repetitions ends none.
  have endless : occurrence.opens ≠ [] ∨ occurrence.slot ≠ none → occurrence.closes = [] := by
    intro more
    by_contra closes
    have only := orderly.ends occurrence listed closes
    exact more.elim (fun opens => opens only.1) fun slot => slot only.2
  cases action with
  | close scope => exact refusal_of_close run
  | openRow id =>
    have opens : id ∈ occurrence.opens := by simpa [actionsOf] using member
    exact (act_eq_error orderly.known listed member run).refusal
      (forward (endless (.inl (List.ne_nil_of_mem opens))))
  | insert id =>
    have slot : occurrence.slot = some id := by simpa [actionsOf] using member
    exact (act_eq_error orderly.known listed member run).refusal
      (forward (endless (.inr (by simp [slot]))))

theorem refusal_of_read (orderly : Orderly outline)
    (listed : occurrence ∈ outline.occurrences.toList)
    (forward : sweep.position ≤ occurrence.offset)
    (run : read outline occurrence sweep = .error error) : Refusal error := by
  rw [read_eq_actions] at run
  rcases foldlM_eq_error run with ⟨front, action, back, before, split, ran, fails⟩
  have within : front ⊆ actionsOf occurrence := by
    rw [split]
    exact List.subset_append_left _ _
  exact refusal_of_act orderly listed (by rw [split]; simp)
    (forward_of_actions within (fun _ => forward) ran) fails

theorem refusal_of_pass (orderly : Orderly outline)
    (listed : occurrence ∈ outline.occurrences.toList)
    (run : pass outline sweep occurrence = .error error) : Refusal error := by
  unfold pass at run
  split at run
  · exact refusal_of_skip run
  · next forward =>
    split at run
    · exact refusal_of_skip run
    · exact refusal_of_read orderly listed (Nat.le_of_not_lt forward) run

theorem refusal_of_finish {length : Nat} (within : sweep.position ≤ length)
    (run : finish outline length sweep = .error error) : Refusal error :=
  (finish_eq_error run).refusal within

end Sweep

/-! ## Plans and layouts -/

variable {markers : List Marker}

theorem refusal_of_make (orderly : Orderly outline) (registered : Registered markers outline)
    {length : Nat} (ends : Outline.EndsAt (· ≤ length) outline)
    (within : ∀ occurrence ∈ outline.occurrences.toList, occurrence.offset ≤ length)
    (run : Plan.make outline length = .error error) : Refusal error := by
  rcases bind_eq_error.mp run with fails | ⟨sweep, swept, fails⟩
  · rcases foldlM_eq_error fails with ⟨front, occurrence, back, before, split, -, fails⟩
    exact Sweep.refusal_of_pass orderly (by rw [split]; simp) fails
  · have stands := Sweep.stands_of_run registered ends (Nat.zero_le _) within (List.prefix_refl _)
      swept
    exact Sweep.refusal_of_finish stands.position fails

/-- A text fits an outline if all markers stand between two of its characters, at its
beginning or at its end. -/
def Fits (outline : Outline) (text : String) : Prop :=
  ∀ occurrence ∈ outline.occurrences.toList, offsetFault? text.toList occurrence = none

theorem offsetFault?_eq_none {cs : List Char} :
    offsetFault? cs occurrence = none ↔
      occurrence.offset ≤ Text.byteSize cs ∧ Text.isBoundary occurrence.offset cs = true := by
  unfold offsetFault?
  split
  · next past =>
    constructor
    · intro impossible
      cases impossible
    · rintro ⟨within, -⟩
      exact absurd past (Nat.not_lt_of_le within)
  · next within =>
    split
    · next boundary => simp [Nat.le_of_not_lt within, boundary]
    · next inside =>
      constructor
      · intro impossible
        cases impossible
      · rintro ⟨-, boundary⟩
        exact absurd boundary inside

theorem fits_of_findSome? {text : String}
    (faultless : outline.occurrences.toList.findSome? (offsetFault? text.toList) = none) :
    Fits outline text := List.findSome?_eq_none_iff.mp faultless

/-- A text that fits is refused for its nesting only. -/
theorem refusal_of_ofText (orderly : Orderly outline) (registered : Registered markers outline)
    {text : String} (ends : Outline.EndsAt (· ≤ Text.byteSize text.toList) outline)
    (fits : Fits outline text) (run : ofText outline text = .error error) : Refusal error := by
  have faultless := List.findSome?_eq_none_iff.mpr fits
  simp only [ofText, faultless] at run
  exact refusal_of_make orderly registered ends
    (fun occurrence listed => (offsetFault?_eq_none.mp (fits occurrence listed)).1)
    (map_eq_error.mp run)

/-- The ends of dimensions stand where markers stand. -/
theorem endsAt_of_fits {growth : Outline.Growth} {fits : Nat → Prop}
    (run : markers.foldlM Outline.grow Outline.Growth.start = .ok growth)
    (here : ∀ occurrence ∈ growth.outline.occurrences.toList, fits occurrence.offset) :
    Outline.EndsAt fits growth.outline := by
  apply Outline.endsAt_of_growth run
  intro marker member
  rw [← (Outline.registered_of_growth run).recorded] at member
  rcases List.mem_map.mp member with ⟨occurrence, listed, rfl⟩
  exact here occurrence listed

end Stencil.Layout
