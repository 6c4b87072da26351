import Mathlib.Data.List.TakeWhile

namespace Stencil.Text

/-!
# Where a run of characters ends

Two texts that begin with runs of one kind of characters, each run followed by a
character of another kind or by nothing, are equal only if the runs are equal and
what follows them is.
-/

/-- The text does not begin with a character of the kind. -/
def StopsAt (kind : Char → Prop) (behind : List Char) : Prop :=
  ∀ c rest, behind = c :: rest → ¬ kind c

theorem stopsAt_nil (kind : Char → Prop) : StopsAt kind [] :=
  fun _ _ impossible => nomatch impossible

theorem stopsAt_cons {kind : Char → Prop} {c : Char} {rest : List Char} (other : ¬ kind c) :
    StopsAt kind (c :: rest) := by
  intro d more same
  cases same
  exact other

theorem stopsAt_of_eq_false {kind : Char → Bool} {c : Char} {rest : List Char}
    (other : kind c = false) : StopsAt (fun c => kind c = true) (c :: rest) :=
  stopsAt_cons (Bool.eq_false_iff.mp other)

/-! ## Taking runs -/

section Taking

variable {kind : Char → Bool} {front back : List Char} (run : ∀ c ∈ front, kind c = true)
  (stops : StopsAt (fun c => kind c = true) back)

include run stops

theorem takeWhile_of_stopsAt : (front ++ back).takeWhile kind = front := by
  rw [List.takeWhile_append_of_pos run]
  cases back with
  | nil => rw [List.takeWhile_nil, List.append_nil]
  | cons c rest => rw [List.takeWhile_cons_of_neg (stops c rest rfl), List.append_nil]

theorem dropWhile_of_stopsAt : (front ++ back).dropWhile kind = back := by
  rw [List.dropWhile_append_of_pos run]
  cases back with
  | nil => rw [List.dropWhile_nil]
  | cons c rest => rw [List.dropWhile_cons_of_neg (stops c rest rfl)]

end Taking

/-! ## Telling runs apart -/

/-- Two runs with what follows them. -/
theorem run_split {kind : Char → Prop} {front other back more : List Char}
    (run : ∀ c ∈ front, kind c) (otherRun : ∀ c ∈ other, kind c) (stops : StopsAt kind back)
    (alsoStops : StopsAt kind more) (same : front ++ back = other ++ more) :
    front = other ∧ back = more := by
  induction front generalizing other with
  | nil =>
    cases other with
    | nil => exact ⟨rfl, same⟩
    | cons c rest => exact absurd (otherRun c (.head _)) (stops c _ same)
  | cons c rest ih =>
    cases other with
    | nil => exact absurd (run c (.head _)) (alsoStops c _ same.symm)
    | cons d others =>
      obtain rfl : c = d := List.head_eq_of_cons_eq same
      obtain ⟨rfl, rfl⟩ := ih (fun c member => run c (.tail _ member))
        (fun c member => otherRun c (.tail _ member)) (List.tail_eq_of_cons_eq same)
      exact ⟨rfl, rfl⟩

end Stencil.Text
