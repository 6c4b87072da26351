import Stencil.Toml
import Stencil.Toml.Quoted

namespace Stencil.Toml

/-!
# Reading a TOML document

A document is a sequence of lines, each a header, an assignment, a comment or
empty; only texts, arrays and inline tables extend over several lines.  The
entries are collected as the lines are read, so that an entry defined twice is
refused where it stands.  Nothing is told about what is wrong with a document
that cannot be read.
-/

/-! ## Blanks and comments -/

/-- Leave out the blanks in front. -/
def skipSpaces (cs : List Char) : List Char := cs.dropWhile isSpace

/-- Leave out a comment up to the end of its line. -/
def skipComment : List Char → List Char
  | '#' :: rest => rest.dropWhile fun c => !isControl c
  | rest => rest

/-- What follows the end of the line, before which only a comment may stand. -/
def endLine? (cs : List Char) : Option (List Char) :=
  match skipComment (skipSpaces cs) with
  | [] => some []
  | rest => skipBreak? rest

/-- Leave out blanks, comments and line breaks. -/
def skipLines : Nat → List Char → List Char
  | 0, cs => cs
  | fuel + 1, cs =>
    let rest := skipComment (skipSpaces cs)
    match skipBreak? rest with
    | some rest => skipLines fuel rest
    | none => rest

/-- Leave out blanks, comments and line breaks, however many there are. -/
def skipAll (cs : List Char) : List Char := skipLines (cs.length + 1) cs

/-! ## Keys -/

/-- Characters of a key without quotes. -/
def isBare (c : Char) : Bool := c.isAlphanum || c == '_' || c == '-'

/-- One part of a key. -/
def readKeyPart? (cs : List Char) : Option (String × List Char) :=
  match cs with
  | '"' :: rest =>
    (readBasic? (rest.length + 1) rest).map fun read => (String.ofList read.1, read.2)
  | '\'' :: rest => (readLiteral? rest).map fun read => (String.ofList read.1, read.2)
  | _ =>
    let bare := cs.takeWhile isBare
    if bare.isEmpty then none else some (String.ofList bare, cs.dropWhile isBare)

/-- A key of at most so many parts, with points between them, blanks around these
ignored. -/
def readParts? : Nat → List Char → Option (List String × List Char)
  | 0, _ => none
  | count + 1, cs => do
    let (part, rest) ← readKeyPart? (skipSpaces cs)
    match skipSpaces rest with
    | '.' :: more =>
      let (parts, rest) ← readParts? count more
      some (part :: parts, rest)
    | rest => some ([part], rest)

/-- How deep tables are made by one key, and how deep values are nested. -/
def depthLimit : Nat := 80

/-- A key. -/
def readKey? (cs : List Char) : Option (List String × List Char) := readParts? depthLimit cs

/-! ## Values -/

/-- Characters of a plain scalar. -/
def isPlainChar (c : Char) : Bool :=
  c.isAlphanum || c == '+' || c == '-' || c == '_' || c == '.' || c == ':'

/-- A plain scalar.  A blank stands between a date and a time. -/
def readPlain? (cs : List Char) : Option (Toml × List Char) :=
  let word := cs.takeWhile isPlainChar
  let rest := cs.dropWhile isPlainChar
  let (spelling, rest) :=
    match skipDate? word, rest with
    | some [], ' ' :: c :: more =>
      if c.isDigit then
        (word ++ ' ' :: (c :: more).takeWhile isPlainChar, (c :: more).dropWhile isPlainChar)
      else (word, rest)
    | _, _ => (word, rest)
  if isPlain spelling then some (.plain (String.ofList spelling), rest) else none

mutual

/-- Any value, given how many levels of arrays and inline tables it may have. -/
def readValue? : Nat → Nat → List Char → Option (Toml × List Char)
  | 0, _, _ => none
  | fuel + 1, levels, cs =>
    match cs, levels with
    | '[' :: _, 0 => none
    | '\x7b' :: _, 0 => none
    | '[' :: rest, levels + 1 =>
      (readItems? fuel levels (skipAll rest)).map fun read => (.array read.1, read.2)
    | '\x7b' :: rest, levels + 1 =>
      (readEntries? fuel levels [] (skipAll rest)).map fun read => (.table .inline read.1, read.2)
    | '"' :: _, _ => (readQuoted? cs).map fun read => (.string (String.ofList read.1), read.2)
    | '\'' :: _, _ => (readQuoted? cs).map fun read => (.string (String.ofList read.1), read.2)
    | _, _ => readPlain? cs

/-- The items of an array up to its closing bracket; a comma may follow the last. -/
def readItems? : Nat → Nat → List Char → Option (List Toml × List Char)
  | 0, _, _ => none
  | _, _, ']' :: rest => some ([], rest)
  | fuel + 1, levels, cs =>
    match readValue? fuel levels cs with
    | none => none
    | some (item, rest) =>
      match skipAll rest with
      | ']' :: rest => some ([item], rest)
      | ',' :: rest =>
        (readItems? fuel levels (skipAll rest)).map fun read => (item :: read.1, read.2)
      | _ => none

/-- The entries of an inline table up to its closing brace; a comma may follow
the last.  Lines may end around the equals sign, but not inside a key. -/
def readEntries? : Nat → Nat → Entries → List Char → Option (Entries × List Char)
  | 0, _, _, _ => none
  | _, _, made, '\x7d' :: rest => some (made, rest)
  | fuel + 1, levels, made, cs =>
    match (readKey? cs).map fun read => (read.1, skipAll read.2) with
    | some (key, '=' :: rest) =>
      match readValue? fuel levels (skipAll rest) with
      | none => none
      | some (value, rest) =>
        match assign value key made with
        | none => none
        | some made =>
          match skipAll rest with
          | '\x7d' :: rest => some (made, rest)
          | ',' :: rest => readEntries? fuel levels made (skipAll rest)
          | _ => none
    | _ => none

end

/-! ## Lines -/

/-- The path of a header, up to its closing bracket. -/
def readHeader? (cs : List Char) : Option (List String × List Char) :=
  match readKey? cs with
  | some (path, ']' :: rest) => some (path, rest)
  | _ => none

/-- The entries so far, and the path of the section that is being read. -/
structure Reading where
  entries : Entries
  path : List String

/-- Read one line that is not empty; returns what follows it on the line. -/
def readLine? (reading : Reading) (cs : List Char) : Option (Reading × List Char) :=
  match cs with
  | '[' :: '[' :: rest =>
    match readHeader? rest with
    | some (path, ']' :: rest) =>
      (changeAt declareItem path reading.entries).map fun made => (⟨made, path⟩, rest)
    | _ => none
  | '[' :: rest => do
    let (path, rest) ← readHeader? rest
    let made ← changeAt declareTable path reading.entries
    some (⟨made, path⟩, rest)
  | _ =>
    match readKey? cs with
    | some (key, '=' :: rest) => do
      let (value, rest) ← readValue? (rest.length + 1) depthLimit (skipSpaces rest)
      let made ← changeSection (assign value key) reading.path reading.entries
      some (⟨made, reading.path⟩, rest)
    | _ => none

/-- Read lines up to the end of the document. -/
def readAll? : Nat → Reading → List Char → Option Entries
  | 0, _, _ => none
  | fuel + 1, reading, cs =>
    match skipSpaces (skipAll cs) with
    | [] => some reading.entries
    | rest => do
      let (reading, rest) ← readLine? reading rest
      let rest ← endLine? rest
      readAll? fuel reading rest

/-- The entries of a document.  A byte order mark in front is ignored. -/
def read? (text : String) : Option Entries :=
  let cs :=
    match text.toList with
    | c :: rest => if c.toNat = 0xFEFF then rest else c :: rest
    | [] => []
  readAll? (cs.length + 1) ⟨[], []⟩ cs

end Stencil.Toml
