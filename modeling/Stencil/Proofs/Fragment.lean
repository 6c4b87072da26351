import Mathlib.Data.List.Nodup
import Stencil.Fragment
import Stencil.Proofs.Sorting

namespace Stencil

/-!
# Putting fragments in order

Positions in one body differ in the point behind what they have in common.  So the
text of fragments is that of groups one after the other as long as no group
reaches into another.
-/

namespace Position

theorem atMost_nil (position : Position) : atMost [] position = true := by
  cases position <;> rfl

theorem atMost_cons_self (a : Nat) (left right : Position) :
    atMost (a :: left) (a :: right) = atMost left right := by
  simp [atMost, order]

theorem atMost_cons_of_lt {a b : Nat} (less : a < b) (left right : Position) :
    atMost (a :: left) (b :: right) = true := by
  simp [atMost, order, Nat.compare_eq_lt.mpr less]

theorem atMost_cons_of_gt {a b : Nat} (greater : b < a) (left right : Position) :
    atMost (a :: left) (b :: right) = false := by
  simp [atMost, order, Nat.compare_eq_gt.mpr greater]

theorem atMost_cons_of_ne {a b : Nat} (different : a ≠ b) (left right : Position) :
    atMost (a :: left) (b :: right) = decide (a ≤ b) := by
  rcases Nat.lt_or_gt_of_ne different with less | greater
  · rw [atMost_cons_of_lt less, decide_eq_true (Nat.le_of_lt less)]
  · rw [atMost_cons_of_gt greater, decide_eq_false (Nat.not_le_of_lt greater)]

/-- What positions have in common makes no difference. -/
theorem atMost_append (here left right : Position) :
    atMost (here ++ left) (here ++ right) = atMost left right := by
  induction here with
  | nil => rfl
  | cons a rest ih => rw [List.cons_append, List.cons_append, atMost_cons_self, ih]

theorem atMost_trans {left : Position} : ∀ {middle right : Position},
    atMost left middle = true → atMost middle right = true → atMost left right = true := by
  induction left with
  | nil => exact fun _ _ => atMost_nil _
  | cons a left ih =>
    intro middle right early late
    match middle, right, early, late with
    | b :: middle, c :: right, early, late =>
      rcases Nat.lt_trichotomy a b with less | same | greater
      · rcases Nat.lt_trichotomy b c with alsoLess | alsoSame | alsoGreater
        · exact atMost_cons_of_lt (Nat.lt_trans less alsoLess) _ _
        · exact atMost_cons_of_lt (alsoSame ▸ less) _ _
        · rw [atMost_cons_of_gt alsoGreater] at late
          cases late
      · subst same
        rcases Nat.lt_trichotomy a c with less | alsoSame | greater
        · exact atMost_cons_of_lt less _ _
        · subst alsoSame
          rw [atMost_cons_self] at early late ⊢
          exact ih early late
        · rw [atMost_cons_of_gt greater] at late
          cases late
      · rw [atMost_cons_of_gt greater] at early
        cases early

theorem atMost_total {left : Position} : ∀ {right : Position},
    atMost left right = false → atMost right left = true := by
  induction left with
  | nil =>
    intro right behind
    rw [atMost_nil] at behind
    cases behind
  | cons a left ih =>
    intro right behind
    cases right with
    | nil => exact atMost_nil _
    | cons b right =>
      rcases Nat.lt_trichotomy a b with less | same | greater
      · rw [atMost_cons_of_lt less] at behind
        cases behind
      · subst same
        rw [atMost_cons_self] at behind ⊢
        exact ih behind
      · exact atMost_cons_of_lt greater _ _

theorem atMost_antisymm {left : Position} : ∀ {right : Position},
    atMost left right = true → atMost right left = true → left = right := by
  induction left with
  | nil =>
    intro right _ behind
    cases right with
    | nil => rfl
    | cons b right => cases behind
  | cons a left ih =>
    intro right before behind
    cases right with
    | nil => cases before
    | cons b right =>
      rcases Nat.lt_trichotomy a b with less | same | greater
      · rw [atMost_cons_of_gt less] at behind
        cases behind
      · subst same
        rw [atMost_cons_self] at before behind
        rw [ih before behind]
      · rw [atMost_cons_of_gt greater] at before
        cases before

/-- Points that differ make positions that differ. -/
theorem append_cons_ne {here left right : Position} {a b : Nat} (different : a ≠ b) :
    here ++ a :: left ≠ here ++ b :: right := by
  intro same
  exact different (List.cons.inj (List.append_cancel_left same)).1

end Position

namespace Fragment

/-- Whether a fragment does not come after another. -/
def atMost (left right : Fragment) : Bool := left.position.atMost right.position

theorem documentText_eq (fragments : List Fragment) :
    documentText fragments = String.join ((orderBy atMost fragments).map text) := rfl

/-- Fragments that come first are shown first. -/
theorem documentText_append {front back : List Fragment}
    (precedes : ∀ a ∈ front, ∀ b ∈ back, a.atMost b = true) :
    documentText (front ++ back) = documentText front ++ documentText back := by
  rw [documentText_eq, orderBy_append precedes, List.map_append, String.join_append]
  rfl

theorem documentText_nil : documentText [] = "" := rfl

theorem documentText_singleton (fragment : Fragment) : documentText [fragment] = fragment.text := by
  simp [documentText_eq, orderBy, insertOrdered, String.join]

theorem commute_of_atMost {left right : Fragment} (before : left.atMost right = true)
    (strict : right.atMost left = false) : Commute atMost left right :=
  insertOrdered_comm before strict fun _ further => Position.atMost_trans before further

/-! ## Distinct positions -/

/-- No two fragments stand at one position. -/
def Distinct (fragments : List Fragment) : Prop :=
  fragments.Pairwise fun left right => left.position ≠ right.position

theorem nodup_positions_iff {fragments : List Fragment} :
    (fragments.map position).Nodup ↔ Distinct fragments :=
  List.pairwise_map

/-- How fragments at distinct positions were arranged makes no difference. -/
theorem documentText_eq_of_perm {fragments others : List Fragment} (distinct : Distinct fragments)
    (perm : others.Perm fragments) : documentText others = documentText fragments := by
  have positions : (fragments.map position).Nodup := nodup_positions_iff.mpr distinct
  rw [documentText_eq, documentText_eq]
  have ordered : orderBy atMost others = orderBy atMost fragments := by
    apply orderBy_eq_of_perm _ _ perm
    · intro a first b second before behind
      exact List.inj_on_of_nodup_map positions first second
        (Position.atMost_antisymm before behind)
    · exact fun a b behind => Position.atMost_total behind
    · exact fun a b c early late => Position.atMost_trans early late
  rw [ordered]

end Fragment

end Stencil
