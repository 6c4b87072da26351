import Mathlib.Data.List.TakeWhile
import Stencil.Text.Classes

namespace Stencil.Text

/-!
# Blanks around a text

Trimming takes away just the blanks around a text that neither begins nor ends with one, and
never the whole of a text that has other characters.
-/

/-- A text that neither begins nor ends with a blank. -/
structure Trimmed (cs : List Char) : Prop where
  first : ∀ c ∈ cs.head?, isBlank c = false
  last : ∀ c ∈ cs.getLast?, isBlank c = false

theorem trimLeft_blanks {blanks : List Char} (blank : ∀ c ∈ blanks, isBlank c = true)
    (cs : List Char) : trimLeft (blanks ++ cs) = trimLeft cs :=
  List.dropWhile_append_of_pos blank

theorem trimLeft_of_head {cs : List Char} (first : ∀ c ∈ cs.head?, isBlank c = false) :
    trimLeft cs = cs := by
  cases cs with
  | nil => rfl
  | cons c rest => exact List.dropWhile_cons_of_neg (by simp [first c rfl])

/-- The blanks around a text are taken away, and nothing else. -/
theorem trim_surrounded {front cs back : List Char} (blankFront : ∀ c ∈ front, isBlank c = true)
    (trimmed : Trimmed cs) (blankBack : ∀ c ∈ back, isBlank c = true) :
    trim (front ++ cs ++ back) = cs := by
  have left : trimLeft (front ++ (cs ++ back)) = if cs = [] then [] else cs ++ back := by
    rw [trimLeft_blanks blankFront]
    cases cs with
    | nil =>
      rw [List.nil_append, if_pos rfl]
      exact List.dropWhile_eq_nil_iff.mpr blankBack
    | cons c rest =>
      rw [if_neg (List.cons_ne_nil _ _)]
      have first : ∀ d ∈ (c :: rest ++ back).head?, isBlank d = false := trimmed.first
      exact trimLeft_of_head first
  unfold trim trimRight
  rw [List.append_assoc, left]
  split
  · next nothing =>
    rw [nothing]
    rfl
  · have right : trimLeft (cs ++ back).reverse = cs.reverse := by
      rw [List.reverse_append,
        trimLeft_blanks fun c member => blankBack c (List.mem_reverse.mp member)]
      apply trimLeft_of_head
      rw [List.head?_reverse]
      exact trimmed.last
    rw [right, List.reverse_reverse]

/-- A text of visible characters is trimmed. -/
theorem trimmed_of_forall {cs : List Char} (visible : ∀ c ∈ cs, isBlank c = false) :
    Trimmed cs where
  first c head := visible c (List.mem_of_mem_head? head)
  last c last := visible c (List.mem_of_getLast? last)

theorem trim_blanks {blanks : List Char} (blank : ∀ c ∈ blanks, isBlank c = true) :
    trim blanks = [] := by
  have surrounded : trim (blanks ++ [] ++ []) = [] := trim_surrounded blank
    (trimmed_of_forall fun _ impossible => by cases impossible)
    fun _ impossible => by cases impossible
  rwa [List.append_nil, List.append_nil] at surrounded

/-- Only blanks are taken away. -/
theorem mem_trimLeft {cs : List Char} {c : Char} (shows : isBlank c = false) :
    c ∈ trimLeft cs ↔ c ∈ cs := by
  refine ⟨fun member => (List.dropWhile_sublist _).subset member, fun member => ?_⟩
  rw [← List.takeWhile_append_dropWhile (p := isBlank) (l := cs)] at member
  rcases List.mem_append.mp member with blank | behind
  · rw [List.mem_takeWhile_imp blank] at shows
    cases shows
  · exact behind

theorem mem_trim {cs : List Char} {c : Char} (shows : isBlank c = false) :
    c ∈ trim cs ↔ c ∈ cs := by
  rw [trim, trimRight, List.mem_reverse, mem_trimLeft shows, List.mem_reverse, mem_trimLeft shows]

theorem trim_ne_nil {cs : List Char} (visible : ∃ c ∈ cs, isBlank c = false) : trim cs ≠ [] := by
  rcases visible with ⟨c, member, shows⟩
  exact List.ne_nil_of_mem ((mem_trim shows).mpr member)

end Stencil.Text
