namespace Stencil

/-!
# Tables ordered by name

A table maps names to entries and is listed in ascending order of the names,
each name once.  The order is that of code points, which is also the order of
the UTF-8 forms.
-/

/-- Put an entry in its place, replacing the one of that name. -/
def insertNamed {α : Type} (name : String) (entry : α) :
    List (String × α) → List (String × α)
  | [] => [(name, entry)]
  | (other, held) :: rest =>
    if name = other then (name, entry) :: rest
    else if name < other then (name, entry) :: (other, held) :: rest
    else (other, held) :: insertNamed name entry rest

/-- The names of a table, ascending and without repetition. -/
def Ascending {α : Type} (table : List (String × α)) : Prop :=
  table.Pairwise fun left right => left.1 < right.1

/-- An entry of the new table is the inserted one or an old one. -/
theorem mem_insertNamed {α : Type} {name : String} {entry : α} {table : List (String × α)}
    {item : String × α} (h : item ∈ insertNamed name entry table) :
    item = (name, entry) ∨ item ∈ table := by
  induction table with
  | nil => simpa [insertNamed] using h
  | cons head rest ih =>
    unfold insertNamed at h
    split at h
    · rcases List.mem_cons.1 h with rfl | h
      · exact .inl rfl
      · exact .inr (.tail _ h)
    · split at h
      · exact List.mem_cons.1 h
      · rcases List.mem_cons.1 h with rfl | h
        · exact .inr (.head _)
        · exact (ih h).imp_right (.tail _)

/-- Insertion keeps a table in order. -/
theorem Ascending.insertNamed {α : Type} {table : List (String × α)} (ordered : Ascending table)
    (name : String) (entry : α) : Ascending (insertNamed name entry table) := by
  induction table with
  | nil => exact List.pairwise_singleton _ _
  | cons head rest ih =>
    obtain ⟨below, tail⟩ := List.pairwise_cons.1 ordered
    unfold Stencil.insertNamed
    split
    · next same =>
      exact List.pairwise_cons.2 ⟨fun item h => by simpa [same] using below item h, tail⟩
    · next different =>
      split
      · next less =>
        refine List.pairwise_cons.2 ⟨fun item h => ?_, ordered⟩
        rcases List.mem_cons.1 h with rfl | h
        · exact less
        · exact String.lt_trans less (below item h)
      · next notLess =>
        refine List.pairwise_cons.2 ⟨fun item h => ?_, ih tail⟩
        rcases mem_insertNamed h with rfl | h
        · exact Std.lt_of_le_of_ne (String.not_lt.1 notLess) (Ne.symm different)
        · exact below item h

/-- The entry just inserted is found under its name. -/
theorem lookup_insertNamed_self {α : Type} (name : String) (entry : α)
    (table : List (String × α)) : (insertNamed name entry table).lookup name = some entry := by
  induction table with
  | nil => simp [insertNamed]
  | cons head rest ih =>
    obtain ⟨key, held⟩ := head
    unfold insertNamed
    split
    · simp
    · next different =>
      split
      · simp
      · simpa [List.lookup_cons, beq_eq_false_iff_ne.2 different] using ih

/-- Insertion changes nothing under other names. -/
theorem lookup_insertNamed_of_ne {α : Type} {name other : String} (different : other ≠ name)
    (entry : α) (table : List (String × α)) :
    (insertNamed name entry table).lookup other = table.lookup other := by
  induction table with
  | nil => simp [insertNamed, List.lookup_cons, List.lookup_nil, beq_eq_false_iff_ne.2 different]
  | cons head rest ih =>
    obtain ⟨key, held⟩ := head
    unfold insertNamed
    split
    · next same => subst same; simp [List.lookup_cons, beq_eq_false_iff_ne.2 different]
    · split
      · simp [List.lookup_cons, beq_eq_false_iff_ne.2 different]
      · simp only [List.lookup_cons, ih]

end Stencil
