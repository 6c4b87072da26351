namespace Stencil.Text

/-!
# Edit distance

The distance of two texts is the least number of insertions, deletions and
substitutions of single characters that turns one into the other.  It is
computed row by row: a row holds, for one beginning of the first text, the
distances to all beginnings of the second.
-/

/-- Extend a row by one character of the first text.  `left` is the new entry
just made and `above` the old row, whose first entry stands diagonally above
the next place to fill. -/
def extendRow (a : Char) (left : Nat) : List Nat → List Char → List Nat
  | diagonal :: up :: above, b :: rest =>
    let entry := min (min (diagonal + if a == b then 0 else 1) (up + 1)) (left + 1)
    entry :: extendRow a entry (up :: above) rest
  | _, _ => []

/-- The row after one more character of the first text.  Its first entry is one
larger: every character of the first text is deleted. -/
def nextRow (second : List Char) (row : List Nat) (a : Char) : List Nat :=
  let first := row.headD 0 + 1
  first :: extendRow a first row second

/-- The least number of single-character edits between two texts. -/
def editDistance (first second : List Char) : Nat :=
  (first.foldl (nextRow second) (List.range (second.length + 1))).getLastD 0

end Stencil.Text
