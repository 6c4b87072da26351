import Mathlib.Data.List.Chain
import Mathlib.Data.List.Forall2
import Stencil.Text.Bytes

namespace Stencil.Text

/-!
# Slices of a text

Between two boundaries in order there is a slice, the whole text is one, and slices
that follow each other without a gap make up one slice.
-/

variable {cs : List Char}

/-- Behind a part of a text it is cut like the rest alone. -/
theorem cutAt?_append {front : List Char} :
    ∀ {offset : Nat} (back : List Char), byteSize front ≤ offset →
      cutAt? offset (front ++ back) =
        (cutAt? (offset - byteSize front) back).map fun parts => (front ++ parts.1, parts.2) := by
  induction front with
  | nil =>
    intro offset back _
    cases cut : cutAt? offset back <;> simp [byteSize, cut]
  | cons c rest ih =>
    intro offset back behind
    have size := c.utf8Size_pos
    simp only [byteSize] at behind ⊢
    rw [List.cons_append, cutAt?, if_neg (by omega), if_neg (by omega), ih back (by omega),
      Nat.sub_sub]
    cases cutAt? (offset - (c.utf8Size + byteSize rest)) back <;> rfl

theorem slice?_eq_some {start stop : Nat} {inner : List Char} :
    slice? start stop cs = some inner ↔ start ≤ stop ∧ ∃ front back,
      cutAt? start cs = some (front, inner ++ back) ∧ cutAt? stop cs = some (front ++ inner, back) := by
  unfold slice?
  constructor
  · intro sliced
    split at sliced
    · next forward =>
      rcases Option.bind_eq_some_iff.mp sliced with ⟨⟨front, rest⟩, cut, further⟩
      rcases Option.map_eq_some_iff.mp further with ⟨⟨middle, back⟩, cutRest, rfl⟩
      rcases cutAt?_eq_some cut with ⟨whole, size⟩
      rcases cutAt?_eq_some cutRest with ⟨joined, -⟩
      refine ⟨forward, front, back, by rw [joined]; exact cut, ?_⟩
      rw [← whole, cutAt?_append rest (by omega), size, cutRest]
      rfl
    · cases sliced
  · rintro ⟨forward, front, back, cut, cutBehind⟩
    rcases cutAt?_eq_some cut with ⟨whole, size⟩
    rw [← whole, cutAt?_append _ (by omega), size] at cutBehind
    rcases Option.map_eq_some_iff.mp cutBehind with ⟨⟨middle, rest⟩, cutRest, same⟩
    have parts := Prod.mk.inj same
    rw [if_pos forward, cut]
    show (cutAt? (stop - start) (inner ++ back)).map (fun inner => inner.1) = some inner
    rw [cutRest, Option.map_some, List.append_cancel_left parts.1]

/-- Between two boundaries in order there is a slice. -/
theorem exists_slice {start stop : Nat} (forward : start ≤ stop)
    (starts : isBoundary start cs = true) (stops : isBoundary stop cs = true) :
    ∃ inner, slice? start stop cs = some inner := by
  rcases Option.isSome_iff_exists.mp starts with ⟨⟨front, rest⟩, cut⟩
  rcases Option.isSome_iff_exists.mp stops with ⟨parts, cutBehind⟩
  rcases cutAt?_eq_some cut with ⟨whole, size⟩
  rw [← whole, cutAt?_append rest (by omega), size] at cutBehind
  rcases Option.map_eq_some_iff.mp cutBehind with ⟨⟨middle, back⟩, cutRest, -⟩
  exact ⟨middle, by simp [slice?, forward, cut, cutRest]⟩

/-- Two slices that touch are one. -/
theorem slice?_append {start middle stop : Nat} {front back : List Char}
    (first : slice? start middle cs = some front) (second : slice? middle stop cs = some back) :
    slice? start stop cs = some (front ++ back) := by
  rcases slice?_eq_some.mp first with ⟨early, before, rest, cut, cutMiddle⟩
  rcases slice?_eq_some.mp second with ⟨late, beforeMiddle, behind, cutAgain, cutBehind⟩
  rw [cutMiddle] at cutAgain
  cases cutAgain
  refine slice?_eq_some.mpr ⟨early.trans late, before, behind, ?_, ?_⟩
  · rw [List.append_assoc]
    exact cut
  · rw [← List.append_assoc]
    exact cutBehind

theorem cutAt?_zero (cs : List Char) : cutAt? 0 cs = some ([], cs) := by
  cases cs <;> rfl

theorem cutAt?_byteSize (cs : List Char) : cutAt? (byteSize cs) cs = some (cs, []) := by
  have cut := @cutAt?_append cs (byteSize cs) [] (Nat.le_refl _)
  rw [List.append_nil, Nat.sub_self, cutAt?_zero, Option.map_some, List.append_nil] at cut
  exact cut

theorem isBoundary_zero (cs : List Char) : isBoundary 0 cs = true := by
  rw [isBoundary, cutAt?_zero]
  rfl

theorem isBoundary_byteSize (cs : List Char) : isBoundary (byteSize cs) cs = true := by
  rw [isBoundary, cutAt?_byteSize]
  rfl

theorem slice?_empty {place : Nat} (boundary : isBoundary place cs = true) :
    slice? place place cs = some [] := by
  rcases Option.isSome_iff_exists.mp boundary with ⟨⟨front, rest⟩, cut⟩
  exact slice?_eq_some.mpr ⟨Nat.le_refl _, front, rest, cut, by rw [List.append_nil]; exact cut⟩

/-- The whole text. -/
theorem slice?_whole (cs : List Char) : slice? 0 (byteSize cs) cs = some cs :=
  slice?_eq_some.mpr ⟨Nat.zero_le _, [], [], by rw [List.append_nil]; exact cutAt?_zero cs,
    cutAt?_byteSize cs⟩

/-! ## Two texts -/

/-- Within the first of two texts a cut is one of that text alone. -/
theorem cutAt?_append_left {front : List Char} :
    ∀ {offset : Nat} (back : List Char), offset ≤ byteSize front →
      cutAt? offset (front ++ back) =
        (cutAt? offset front).map fun parts => (parts.1, parts.2 ++ back) := by
  induction front with
  | nil =>
    intro offset back within
    rw [Nat.le_zero.mp within, List.nil_append, cutAt?_zero, cutAt?_zero]
    rfl
  | cons c rest ih =>
    intro offset back within
    simp only [byteSize] at within
    rw [List.cons_append, cutAt?, cutAt?]
    by_cases begins : offset = 0
    · simp [begins]
    · by_cases inside : offset < c.utf8Size
      · simp [begins, inside]
      · simp only [begins, inside, if_false]
        rw [ih back (by omega)]
        cases cutAt? (offset - c.utf8Size) rest <;> rfl

theorem slice?_append_left {start stop : Nat} {front : List Char} (back : List Char)
    (within : stop ≤ byteSize front) :
    slice? start stop (front ++ back) = slice? start stop front := by
  unfold slice?
  split
  · next forward =>
    rw [cutAt?_append_left back (forward.trans within)]
    cases cut : cutAt? start front with
    | none => rfl
    | some parts =>
      rcases parts with ⟨before, rest⟩
      rcases cutAt?_eq_some cut with ⟨whole, size⟩
      have left : byteSize front = byteSize before + byteSize rest := by
        rw [← whole, byteSize_append]
      simp only [Option.map_some, Option.bind_some]
      rw [cutAt?_append_left back (by omega)]
      cases cutAt? (stop - start) rest <;> rfl
  · rfl

/-- Behind another text a slice is that of the text alone. -/
theorem slice?_append_right (front back : List Char) (start stop : Nat) :
    slice? (start + byteSize front) (stop + byteSize front) (front ++ back) =
      slice? start stop back := by
  unfold slice?
  rw [cutAt?_append back (Nat.le_add_left _ _), Nat.add_sub_cancel, Nat.add_sub_add_right]
  by_cases forward : start ≤ stop
  · rw [if_pos forward, if_pos (Nat.add_le_add_right forward _)]
    cases cutAt? start back <;> rfl
  · rw [if_neg forward, if_neg fun further => forward (Nat.le_of_add_le_add_right further)]

/-- Slices that follow each other without a gap make up the slice from the beginning of
the first to the end of the last. -/
theorem slice?_flatten {ranges : List (Nat × Nat)} {pieces : List (List Char)}
    (cut : List.Forall₂ (fun range piece => slice? range.1 range.2 cs = some piece) ranges pieces) :
    ∀ {first last : Nat × Nat}, ranges.head? = some first → ranges.getLast? = some last →
      ranges.IsChain (fun left right => left.2 = right.1) →
        slice? first.1 last.2 cs = some pieces.flatten := by
  induction cut with
  | nil => exact fun impossible => nomatch impossible
  | @cons range piece ranges pieces own rest ih =>
    intro first last begins ends chain
    cases begins
    rw [List.flatten_cons]
    cases rest with
    | nil =>
      cases ends
      rw [List.flatten_nil, List.append_nil]
      exact own
    | @cons next after ranges pieces =>
      rw [List.getLast?_cons_cons] at ends
      have touch := List.isChain_cons_cons.mp chain
      have further := ih rfl ends touch.2
      rw [← touch.1] at further
      exact slice?_append own further

end Stencil.Text
