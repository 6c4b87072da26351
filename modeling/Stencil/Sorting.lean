namespace Stencil

/-!
# Stable ordering by insertion

Markers are ordered by offset and fragments by position, and in both cases
equal keys have to keep the order in which they came.  Inserting each element
in front of the first one it does not exceed does that.  The cost is the number
of pairs out of order, which is small here: both lists arrive almost sorted.

The recursion is structural, so a sorted closed list can be computed inside a
proof.
-/

/-- Put `a` before the first element it is at most equal to. -/
def insertOrdered {α : Type} (atMost : α → α → Bool) (a : α) : List α → List α
  | [] => [a]
  | b :: rest => if atMost a b then a :: b :: rest else b :: insertOrdered atMost a rest

/-- Order a list by `atMost`, equal elements staying in their order. -/
def orderBy {α : Type} (atMost : α → α → Bool) (items : List α) : List α :=
  items.foldr (insertOrdered atMost) []

theorem perm_insertOrdered {α : Type} (atMost : α → α → Bool) (a : α) (items : List α) :
    (insertOrdered atMost a items).Perm (a :: items) := by
  induction items with
  | nil => exact .refl _
  | cons b rest ih =>
    unfold insertOrdered
    split
    · exact .refl _
    · exact (ih.cons b).trans (.swap a b rest)

/-- Ordering rearranges: nothing is lost, added or repeated. -/
theorem perm_orderBy {α : Type} (atMost : α → α → Bool) (items : List α) :
    (orderBy atMost items).Perm items := by
  induction items with
  | nil => exact .refl _
  | cons a rest ih => exact (perm_insertOrdered atMost a _).trans (ih.cons a)

@[simp]
theorem length_orderBy {α : Type} (atMost : α → α → Bool) (items : List α) :
    (orderBy atMost items).length = items.length :=
  (perm_orderBy atMost items).length_eq

end Stencil
