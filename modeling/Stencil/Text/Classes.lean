namespace Stencil.Text

/-!
# Classes of characters

A property of characters that no short rule decides is a list of code point
ranges, both ends included.  The tables are kept in ascending order for the
reader; membership does not rely on it.

A blank is a character with the Unicode property `White_Space`.  Core's own
class holds four of them only, so the property has its table here.  Trimming is
done on lists of characters, where it is two applications of `dropWhile`.
-/

/-- Whether the code point of `c` lies in one of the ranges. -/
def inRanges (ranges : List (Nat × Nat)) (c : Char) : Bool :=
  ranges.any fun range => range.1 ≤ c.toNat && c.toNat ≤ range.2

/-! ## Blanks -/

/-- The blanks beyond ASCII. -/
def blankRanges : List (Nat × Nat) :=
  [(0x0085, 0x0085), (0x00A0, 0x00A0), (0x1680, 0x1680), (0x2000, 0x200A),
   (0x2028, 0x2029), (0x202F, 0x202F), (0x205F, 0x205F), (0x3000, 0x3000)]

/-- Tabs, line breaks, the space and the other spaces of Unicode. -/
def isBlank (c : Char) : Bool :=
  if c.toNat < 128 then c.toNat == 32 || (9 ≤ c.toNat && c.toNat ≤ 13)
  else inRanges blankRanges c

/-- Every character of core's whitespace class is a blank. -/
theorem isBlank_of_isWhitespace {c : Char} (h : c.isWhitespace = true) : isBlank c = true := by
  simp only [Char.isWhitespace, Bool.or_eq_true, decide_eq_true_eq] at h
  rcases h with ((rfl | rfl) | rfl) | rfl <;> rfl

/-- Remove the blanks in front. -/
def trimLeft (cs : List Char) : List Char := cs.dropWhile isBlank

/-- Remove the blanks at the end. -/
def trimRight (cs : List Char) : List Char := (trimLeft cs.reverse).reverse

/-- Remove the blanks at both ends. -/
def trim (cs : List Char) : List Char := trimRight (trimLeft cs)

end Stencil.Text
