namespace Stencil.Text

/-!
# Splitting outside brackets and quotes

Marker paths and formatter chains are cut at separators, but not at those that
stand inside brackets or quotes.  A scan keeps how deep it is in brackets and in
which quote it stands, and is advanced by one character at a time.  The two
grammars use different brackets, and in a path a quote counts only inside them;
a `Brackets` value says which.

A part of a split never contains the separator that ended it, and the parts with
the separators between them are the text again.
-/

/-- Which characters nest, and whether a quote counts outside of them. -/
structure Brackets where
  opening : Char
  closing : Char
  quotesEverywhere : Bool

/-- The groups of a marker path. -/
def Brackets.groups : Brackets := ⟨'[', ']', false⟩

/-- The argument lists of a formatter chain. -/
def Brackets.arguments : Brackets := ⟨'(', ')', true⟩

/-- Apostrophe and double quote. -/
def isQuote (c : Char) : Bool := c == '\'' || c == '"'

/-- How deep a scan stands in brackets, and in which quote. -/
structure Scan where
  depth : Nat
  quote : Option Char
  deriving DecidableEq, Repr

/-- Outside of everything. -/
def Scan.start : Scan := ⟨0, none⟩

/-- Whether a separator counts here. -/
def Scan.isOutside (scan : Scan) : Bool := scan.quote.isNone && scan.depth == 0

/-- Advance past one character.  Inside a quote only the same quote counts. -/
def Scan.advance (brackets : Brackets) (scan : Scan) (c : Char) : Scan :=
  match scan.quote with
  | some q => if c == q then { scan with quote := none } else scan
  | none =>
    if isQuote c && (brackets.quotesEverywhere || scan.depth != 0) then
      { scan with quote := some c }
    else if c == brackets.opening then { scan with depth := scan.depth + 1 }
    else if c == brackets.closing then { scan with depth := scan.depth - 1 }
    else scan

/-- The part up to the first separator that counts, and what follows it. -/
def cutFirst (brackets : Brackets) (separator : Char) (scan : Scan) :
    List Char → List Char × Option (List Char)
  | [] => ([], none)
  | c :: rest =>
    if c == separator && scan.isOutside then ([], some rest)
    else
      let parts := cutFirst brackets separator (scan.advance brackets c) rest
      (c :: parts.1, parts.2)

/-- All parts between separators that count; there is always at least one. -/
def splitParts (brackets : Brackets) (separator : Char) (scan : Scan) :
    List Char → List (List Char)
  | [] => [[]]
  | c :: rest =>
    if c == separator && scan.isOutside then
      [] :: splitParts brackets separator (scan.advance brackets c) rest
    else
      match splitParts brackets separator (scan.advance brackets c) rest with
      | [] => [[c]]
      | part :: parts => (c :: part) :: parts

/-- All parts between separators, wherever these stand. -/
def splitAll (separator : Char) : List Char → List (List Char)
  | [] => [[]]
  | c :: rest =>
    if c == separator then [] :: splitAll separator rest
    else
      match splitAll separator rest with
      | [] => [[c]]
      | part :: parts => (c :: part) :: parts

/-- The text without a last character `c`, if it ends in one. -/
def dropLast? (c : Char) (cs : List Char) : Option (List Char) :=
  if cs.getLast? = some c then some cs.dropLast else none

/-- The text between two quotes `q` at its ends.  A lone quote is no pair. -/
def unquote? (q : Char) : List Char → Option (List Char)
  | [] => none
  | c :: rest => if c == q then dropLast? q rest else none

/-- The lines of a text.  A line ends at a line feed, or at a carriage return with
one; what follows the last line feed is a line only if it is not empty. -/
def lines (cs : List Char) : List (List Char) :=
  let parts := splitAll '\n' cs
  let ended := parts.dropLast.map fun line => (dropLast? '\r' line).getD line
  ended ++ (parts.getLast?.filter fun line => !line.isEmpty).toList

end Stencil.Text
