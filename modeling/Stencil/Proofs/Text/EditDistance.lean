import Mathlib.Order.Bounds.Basic
import Stencil.Text.EditDistance

namespace Stencil.Text

/-!
# The fewest edits

A text is edited character by character, and the distance of two texts is the least number
of edits that lead from one to the other.  A recursion from the front of both finds it: there
the first characters are matched, or one of them is edited.  That many edits are enough, since
every case of the recursion is an edit in front; and they are needed, since one more edit,
wherever it is made, changes what the recursion finds by one at most.

The rows of the computation hold what the recursion finds for beginnings of the texts, which
grow at their ends.  So both are compared on reversed texts, where a beginning grows in front.
-/

/-! ## Edits -/

/-- One character is inserted, deleted or replaced. -/
inductive Edit : List Char → List Char → Prop
  | insert (front : List Char) (c : Char) (back : List Char) :
      Edit (front ++ back) (front ++ c :: back)
  | delete (front : List Char) (c : Char) (back : List Char) :
      Edit (front ++ c :: back) (front ++ back)
  | substitute (front : List Char) (c d : Char) (back : List Char) :
      Edit (front ++ c :: back) (front ++ d :: back)

/-- So many edits, one after the other, turn a text into another. -/
inductive Edits : Nat → List Char → List Char → Prop
  | none (cs : List Char) : Edits 0 cs cs
  | more {count : Nat} {first middle last : List Char} (edits : Edits count first middle)
      (edit : Edit middle last) : Edits (count + 1) first last

/-- The edit distance of two texts: the least number of edits from the one to the other. -/
def Distance (first second : List Char) (count : Nat) : Prop :=
  IsLeast {count | Edits count first second} count

variable {count : Nat} {first middle last second : List Char}

theorem Edit.cons (edit : Edit first last) (c : Char) : Edit (c :: first) (c :: last) := by
  cases edit with
  | insert front d back => exact .insert (c :: front) d back
  | delete front d back => exact .delete (c :: front) d back
  | substitute front d e back => exact .substitute (c :: front) d e back

theorem Edit.reverse (edit : Edit first last) : Edit first.reverse last.reverse := by
  cases edit with
  | insert front c back =>
    simpa using Edit.insert back.reverse c front.reverse
  | delete front c back =>
    simpa using Edit.delete back.reverse c front.reverse
  | substitute front c d back =>
    simpa using Edit.substitute back.reverse c d front.reverse

theorem Edits.cons (edits : Edits count first last) (c : Char) :
    Edits count (c :: first) (c :: last) := by
  induction edits with
  | none cs => exact .none _
  | more _ edit ih => exact .more ih (edit.cons c)

theorem Edits.reverse (edits : Edits count first last) :
    Edits count first.reverse last.reverse := by
  induction edits with
  | none cs => exact .none _
  | more _ edit ih => exact .more ih edit.reverse

/-- One edit more, made first. -/
theorem Edits.behind (edit : Edit first middle) (edits : Edits count middle last) :
    Edits (count + 1) first last := by
  induction edits with
  | none cs => exact .more (.none _) edit
  | more _ later ih => exact .more (ih edit) later

theorem edits_reverse_iff : Edits count first.reverse second.reverse ↔ Edits count first second :=
  ⟨fun edits => by simpa using edits.reverse, Edits.reverse⟩

/-! ## The recursion -/

/-- The fewest edits, found from the front: the first characters are matched, or one of
them is edited. -/
def fewestEdits : List Char → List Char → Nat
  | [], second => second.length
  | first, [] => first.length
  | a :: first, b :: second =>
    min (min (fewestEdits first second + if a == b then 0 else 1)
      (fewestEdits first (b :: second) + 1)) (fewestEdits (a :: first) second + 1)
termination_by first second => first.length + second.length

@[simp] theorem fewestEdits_nil (second : List Char) : fewestEdits [] second = second.length := by
  rw [fewestEdits]

@[simp] theorem fewestEdits_nil_right (first : List Char) :
    fewestEdits first [] = first.length := by
  cases first with
  | nil => rw [fewestEdits]
  | cons a rest => rw [fewestEdits]; exact List.cons_ne_nil a rest

theorem fewestEdits_cons (a b : Char) (first second : List Char) :
    fewestEdits (a :: first) (b :: second) =
      min (min (fewestEdits first second + if a == b then 0 else 1)
        (fewestEdits first (b :: second) + 1)) (fewestEdits (a :: first) second + 1) := by
  rw [fewestEdits]

theorem fewestEdits_cons_choice (a b : Char) (first second : List Char) :
    fewestEdits (a :: first) (b :: second) =
        fewestEdits first second + (if a == b then 0 else 1) ∨
      fewestEdits (a :: first) (b :: second) = fewestEdits first (b :: second) + 1 ∨
      fewestEdits (a :: first) (b :: second) = fewestEdits (a :: first) second + 1 := by
  rw [fewestEdits_cons]
  omega

/-! ### They are enough -/

theorem edits_nil (second : List Char) : Edits second.length [] second := by
  induction second with
  | nil => exact .none []
  | cons b rest ih => exact .behind (.insert [] b []) (ih.cons b)

theorem edits_nil_right (first : List Char) : Edits first.length first [] := by
  induction first with
  | nil => exact .none []
  | cons a rest ih => exact .behind (.delete [] a rest) ih

theorem edits_fewestEdits (first second : List Char) :
    Edits (fewestEdits first second) first second := by
  induction first, second using fewestEdits.induct with
  | case1 second =>
    rw [fewestEdits_nil]
    exact edits_nil second
  | case2 first =>
    rw [fewestEdits_nil_right]
    exact edits_nil_right first
  | case3 a first b second matched deleted inserted =>
    rcases fewestEdits_cons_choice a b first second with least | least | least
    · rw [least]
      split
      · next same =>
        rw [beq_iff_eq.mp same]
        exact matched.cons b
      · exact .behind (.substitute [] a b first) (matched.cons b)
    · rw [least]
      exact .behind (.delete [] a first) deleted
    · rw [least]
      exact .more inserted (.insert [] b second)

/-! ### They are needed -/

theorem fewestEdits_self (cs : List Char) : fewestEdits cs cs = 0 := by
  induction cs with
  | nil => simp
  | cons c rest ih =>
    rw [fewestEdits_cons, ih]
    simp

theorem fewestEdits_cons_left_le (a : Char) (first second : List Char) :
    fewestEdits (a :: first) second ≤ fewestEdits first second + 1 := by
  cases second with
  | nil => simp
  | cons b rest =>
    rw [fewestEdits_cons]
    omega

theorem fewestEdits_insert_le (first : List Char) (c : Char) (back : List Char) :
    fewestEdits first (c :: back) ≤ fewestEdits first back + 1 := by
  cases first with
  | nil => simp
  | cons a rest =>
    rw [fewestEdits_cons]
    omega

theorem fewestEdits_delete_le (first : List Char) (c : Char) (back : List Char) :
    fewestEdits first back ≤ fewestEdits first (c :: back) + 1 := by
  induction first with
  | nil =>
    rw [fewestEdits_nil, fewestEdits_nil, List.length_cons]
    omega
  | cons a rest ih =>
    have shorter := fewestEdits_cons_left_le a rest back
    rw [fewestEdits_cons]
    omega

theorem fewestEdits_substitute_le (first : List Char) (c d : Char) (back : List Char) :
    fewestEdits first (d :: back) ≤ fewestEdits first (c :: back) + 1 := by
  induction first with
  | nil => simp
  | cons a rest ih =>
    rw [fewestEdits_cons, fewestEdits_cons]
    have unmatched : (if a == d then 0 else 1) ≤ 1 := by
      split <;> omega
    omega

/-- Where an edit is made plays no part. -/
theorem fewestEdits_append_le {old new : List Char}
    (near : ∀ first, fewestEdits first new ≤ fewestEdits first old + 1) (front first : List Char) :
    fewestEdits first (front ++ new) ≤ fewestEdits first (front ++ old) + 1 := by
  induction front generalizing first with
  | nil => exact near first
  | cons c front ih =>
    rw [List.cons_append, List.cons_append]
    induction first with
    | nil =>
      have lengths := ih []
      rw [fewestEdits_nil, fewestEdits_nil] at lengths
      rw [fewestEdits_nil, fewestEdits_nil, List.length_cons, List.length_cons]
      omega
    | cons a first ihFirst =>
      have matched := ih first
      have inserted := ih (a :: first)
      rw [fewestEdits_cons, fewestEdits_cons]
      omega

theorem fewestEdits_edit_le (edit : Edit middle last) (first : List Char) :
    fewestEdits first last ≤ fewestEdits first middle + 1 := by
  cases edit with
  | insert front c back =>
    exact fewestEdits_append_le (fun first => fewestEdits_insert_le first c back) front first
  | delete front c back =>
    exact fewestEdits_append_le (fun first => fewestEdits_delete_le first c back) front first
  | substitute front c d back =>
    exact fewestEdits_append_le (fun first => fewestEdits_substitute_le first c d back) front first

theorem fewestEdits_le (edits : Edits count first last) : fewestEdits first last ≤ count := by
  induction edits with
  | none cs => rw [fewestEdits_self]
  | more _ edit ih => exact (fewestEdits_edit_le edit _).trans (Nat.add_le_add_right ih 1)

theorem distance_fewestEdits (first second : List Char) :
    Distance first second (fewestEdits first second) :=
  ⟨edits_fewestEdits first second, fun _ edits => fewestEdits_le edits⟩

/-! ## Rows -/

/-- What a row holds for a reversed beginning of the first text: the fewest edits to the
beginnings of the second, which are those seen and longer ones. -/
def rowOf (first seen : List Char) : List Char → List Nat
  | [] => [fewestEdits first seen]
  | b :: rest => fewestEdits first seen :: rowOf first (b :: seen) rest

theorem rowOf_eq_cons (first seen rest : List Char) :
    rowOf first seen rest = fewestEdits first seen :: (rowOf first seen rest).tail := by
  cases rest <;> rfl

theorem rowOf_nil (seen rest : List Char) :
    rowOf [] seen rest = List.range' seen.length (rest.length + 1) := by
  induction rest generalizing seen with
  | nil => simp [rowOf]
  | cons b rest ih =>
    rw [rowOf, ih, fewestEdits_nil, List.length_cons, List.length_cons, ← List.range'_succ]

theorem extendRow_rowOf (a : Char) (first seen rest : List Char) :
    extendRow a (fewestEdits (a :: first) seen) (rowOf first seen rest) rest =
      (rowOf (a :: first) seen rest).tail := by
  induction rest generalizing seen with
  | nil => rfl
  | cons b rest ih =>
    rw [rowOf, rowOf, List.tail_cons, rowOf_eq_cons first, extendRow, ← rowOf_eq_cons,
      rowOf_eq_cons (a :: first), ← ih, fewestEdits_cons]

theorem nextRow_rowOf (second first : List Char) (a : Char) :
    nextRow second (rowOf first [] second) a = rowOf (a :: first) [] second := by
  have begun : (rowOf first [] second).headD 0 + 1 = fewestEdits (a :: first) [] := by
    rw [rowOf_eq_cons, List.headD_cons, fewestEdits_nil_right, fewestEdits_nil_right,
      List.length_cons]
  rw [nextRow, begun, extendRow_rowOf, ← rowOf_eq_cons]

/-- Each row is that of what was read so far. -/
theorem foldl_nextRow (second passed first : List Char) :
    first.foldl (nextRow second) (rowOf passed [] second) =
      rowOf (first.reverse ++ passed) [] second := by
  induction first generalizing passed with
  | nil => rfl
  | cons a rest ih =>
    rw [List.foldl_cons, nextRow_rowOf, ih, List.reverse_cons, List.append_assoc,
      List.singleton_append]

theorem getLastD_rowOf (first seen rest : List Char) (otherwise : Nat) :
    (rowOf first seen rest).getLastD otherwise = fewestEdits first (rest.reverse ++ seen) := by
  induction rest generalizing seen otherwise with
  | nil => rfl
  | cons b rest ih =>
    rw [rowOf, List.getLastD_cons, ih, List.reverse_cons, List.append_assoc, List.singleton_append]

theorem editDistance_eq (first second : List Char) :
    editDistance first second = fewestEdits first.reverse second.reverse := by
  have begun : List.range (second.length + 1) = rowOf [] [] second := by
    rw [rowOf_nil, List.length_nil, List.range_eq_range']
  rw [editDistance, begun, foldl_nextRow, getLastD_rowOf, List.append_nil, List.append_nil]

/-- What is computed row by row is the distance. -/
theorem distance_editDistance (first second : List Char) :
    Distance first second (editDistance first second) := by
  rw [editDistance_eq]
  have least := distance_fewestEdits first.reverse second.reverse
  simpa only [Distance, edits_reverse_iff] using least

example : editDistance "kitten".toList "sitting".toList = 3 := by decide

end Stencil.Text
