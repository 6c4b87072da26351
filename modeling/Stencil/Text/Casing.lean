import Stencil.Text.Casing.Tables

namespace Stencil.Text

/-!
# Upper and lower case

Case mapping follows Unicode in full: a character may have an image of several
characters, and a capital sigma is written differently at the end of a word.
Locales play no part.  ASCII is decided by core's own maps and reaches none of
the tables.
-/

/-! ## Single characters -/

/-- The image of `code` under the first run that holds it. -/
def runImage? (code : Nat) : List (Nat × Nat × Nat × Nat) → Option Nat
  | [] => none
  | (first, last, stride, image) :: rest =>
    if first ≤ code && code ≤ last && (code - first) % stride == 0 then
      some (image + (code - first))
    else runImage? code rest

/-- The image of `c`: a listed one of several characters, else that of a run,
else `c` itself. -/
def caseImage (specials : List (Nat × List Nat)) (runs : List (Nat × Nat × Nat × Nat))
    (c : Char) : List Char :=
  match specials.lookup c.toNat with
  | some codes => codes.map Char.ofNat
  | none =>
    match runImage? c.toNat runs with
    | some code => [Char.ofNat code]
    | none => [c]

/-- The upper-case form of one character, `ß` becoming `SS`. -/
def upperOf (c : Char) : List Char :=
  if c.toNat < 128 then [c.toUpper] else caseImage upperSpecials upperRuns c

/-- The lower-case form of one character, without regard to its place. -/
def lowerOf (c : Char) : List Char :=
  if c.toNat < 128 then [c.toLower] else caseImage lowerSpecials lowerRuns c

/-! ## Whole texts -/

/-- Upper case, character by character. -/
def upperCase (cs : List Char) : List Char := cs.flatMap upperOf

/-- Letters that have a case. -/
def isCased (c : Char) : Bool :=
  if c.toNat < 128 then c.isAlpha else inRanges casedRanges c

/-- Characters that are looked through when the end of a word is sought. -/
def isCaseIgnorable (c : Char) : Bool :=
  if c.toNat < 128 then c == '\'' || c == '.' || c == ':' || c == '^' || c.toNat == 96
  else inRanges caseIgnorableRanges c

/-- Whether the next letter, looking through ignorable characters, has a case. -/
def meetsCased (cs : List Char) : Bool :=
  match cs.dropWhile isCaseIgnorable with
  | [] => false
  | c :: _ => isCased c

/-- Lower case with the text already passed, nearest character first: a capital
sigma with a letter before it and none after it takes its final form. -/
def lowerAfter (passed : List Char) : List Char → List Char
  | [] => []
  | c :: rest =>
    (if c == 'Σ' then (if meetsCased passed && !meetsCased rest then ['ς'] else ['σ'])
      else lowerOf c) ++ lowerAfter (c :: passed) rest

/-- Lower case of a whole text. -/
def lowerCase (cs : List Char) : List Char := lowerAfter [] cs

end Stencil.Text
