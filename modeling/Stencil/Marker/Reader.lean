import Stencil.Condition.Reader
import Stencil.Error
import Stencil.Marker

namespace Stencil.Marker

/-!
# Reading marker paths

The first colon outside brackets separates the path from its formatters.  Blanks
in the path mean nothing outside quotes and are removed first.  What is left is
cut at the points outside brackets; each part is a name and groups, each group a
list of iterators and conditions with commas between them.

The first fault from the left is reported.
-/

/-! ## Blanks -/

/-- Remove the blanks that are not in quotes. -/
def compact (scan : Text.Scan) : List Char → List Char
  | [] => []
  | c :: rest =>
    let tail := compact (scan.advance .groups c) rest
    if scan.quote.isSome || !Text.isBlank c then c :: tail else tail

/-! ## Groups -/

/-- The content of a group and what follows its closing bracket.  Brackets in
quotes are text. -/
def closeGroup? (quote : Option Char) : List Char → Option (List Char × List Char)
  | [] => none
  | c :: rest =>
    match quote with
    | some q =>
      (closeGroup? (if c == q then none else some q) rest).map fun parts =>
        (c :: parts.1, parts.2)
    | none =>
      if c == ']' then some ([], rest)
      else
        (closeGroup? (if Text.isQuote c then some c else none) rest).map fun parts =>
          (c :: parts.1, parts.2)

/-- Read an iterator, true if it is one further. -/
def readIterator? (token : List Char) : Option (String × Bool) :=
  let name := token.takeWhile Condition.isNamePart
  if Condition.isName name then
    match token.drop name.length with
    | [] => some (String.ofList name, false)
    | ['+', '1'] => some (String.ofList name, true)
    | _ => none
  else none

/-- The iterators among the items of a group, in order. -/
def iteratorsOf (tokens : List (List Char)) : List (String × Bool) :=
  tokens.filterMap readIterator?

/-- The items of a group that are no iterators, in order. -/
def conditionsOf (tokens : List (List Char)) : List (List Char) :=
  tokens.filter fun token => (readIterator? token).isNone

/-- Read the content of a group: at most one iterator, and conditions. -/
def readGroup? (content : List Char) : Option Group :=
  let tokens := Text.splitParts .arguments ',' .start content
  match iteratorsOf tokens with
  | [] =>
    ((conditionsOf tokens).mapM (Condition.read? none)).map fun conditions =>
      ⟨none, false, conditions⟩
  | [(name, terminates)] =>
    ((conditionsOf tokens).mapM (Condition.read? (some name))).map fun conditions =>
      ⟨some name, terminates, conditions⟩
  | _ => none

/-- Read the groups of a segment.  Each takes at least two characters, so the
length of the text is fuel enough. -/
def readGroups (segment : List Char) : Nat → List Char → Except MarkerFault (List Group)
  | _, [] => .ok []
  | 0, _ :: _ => .ok []
  | fuel + 1, c :: inner =>
    if c == '[' then
      match closeGroup? none inner with
      | none => .error (.unbalancedBracket (String.ofList segment))
      | some (content, rest) =>
        match readGroup? content with
        | none => .error (.unsupportedIndex (String.ofList content))
        | some group => (readGroups segment fuel rest).map (group :: ·)
    else .error (.strayText (String.ofList (c :: inner)) (String.ofList segment))

/-! ## Segments and paths -/

/-- Square brackets end the name of a segment. -/
def isBracket (c : Char) : Bool := c == '[' || c == ']'

/-- Read a segment. -/
def readSegment (raw : List Char) : Except MarkerFault Segment :=
  let name := raw.takeWhile fun c => !isBracket c
  let groups := raw.dropWhile fun c => !isBracket c
  if raw.isEmpty then .error .emptySegment
  else if name.isEmpty then .error (.unnamedSegment (String.ofList raw))
  else (readGroups raw groups.length groups).map fun made => ⟨String.ofList name, made⟩

/-- The formatters after the colon, unless there are only blanks. -/
def readChainText (after : Option (List Char)) : Option (List Char) :=
  (after.map Text.trim).filter fun chain => !chain.isEmpty

/-- Read a path. -/
def readPath (cs : List Char) : Except MarkerFault Path :=
  let parts := Text.cutFirst .groups ':' .start cs
  let structural := compact .start parts.1
  if structural.isEmpty then .error .emptyMarker
  else
    ((Text.splitParts .groups '.' .start structural).mapM readSegment).map fun segments =>
      ⟨segments, readChainText parts.2⟩

end Stencil.Marker
