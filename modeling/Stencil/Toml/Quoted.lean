import Stencil.Toml.Scalar

namespace Stencil.Toml

/-!
# Quoted texts of TOML

Texts are written between double quotes, where a backslash escapes, or between
apostrophes, where nothing does.  Three quotes of either kind begin a text of
several lines; its first line break does not count, and between double quotes a
backslash at the end of a line joins it to the next one.

Readers return the text and what follows it, or nothing.
-/

/-- Control characters have to be escaped; the tab does not count as one. -/
def isControl (c : Char) : Bool := (c.toNat < 32 && c != '\t') || c.toNat == 127

/-- Blanks within a line. -/
def isSpace (c : Char) : Bool := c == ' ' || c == '\t'

/-- What follows a line break, if there is one. -/
def skipBreak? : List Char → Option (List Char)
  | '\n' :: rest => some rest
  | '\r' :: '\n' :: rest => some rest
  | _ => none

/-! ## Escapes -/

/-- A character given by so many hexadecimal digits. -/
def numberedChar? (count : Nat) (cs : List Char) : Option (Char × List Char) :=
  let digits := cs.take count
  let code := baseValue 16 digits
  if digits.length = count && digits.all isHexDigit && code.isValidChar then
    some (Char.ofNat code, cs.drop count)
  else none

/-- The character meant by what follows a backslash. -/
def escape? : List Char → Option (Char × List Char)
  | [] => none
  | c :: rest =>
    match c with
    | 'b' => some (Char.ofNat 8, rest)
    | 't' => some ('\t', rest)
    | 'n' => some ('\n', rest)
    | 'f' => some (Char.ofNat 12, rest)
    | 'r' => some ('\r', rest)
    | 'e' => some (Char.ofNat 27, rest)
    | '"' => some ('"', rest)
    | '\\' => some ('\\', rest)
    | 'x' => numberedChar? 2 rest
    | 'u' => numberedChar? 4 rest
    | 'U' => numberedChar? 8 rest
    | _ => none

/-! ## Texts of one line -/

/-- The text up to the closing double quote. -/
def readBasic? : Nat → List Char → Option (List Char × List Char)
  | 0, _ => none
  | _, [] => none
  | fuel + 1, c :: rest =>
    if c == '"' then some ([], rest)
    else if c == '\\' then do
      let (meant, rest) ← escape? rest
      let (text, rest) ← readBasic? fuel rest
      some (meant :: text, rest)
    else if isControl c then none
    else do
      let (text, rest) ← readBasic? fuel rest
      some (c :: text, rest)

/-- The text up to the closing apostrophe. -/
def readLiteral? (cs : List Char) : Option (List Char × List Char) :=
  match cs.dropWhile fun c => c != '\'' && !isControl c with
  | '\'' :: rest => some (cs.takeWhile fun c => c != '\'' && !isControl c, rest)
  | _ => none

/-! ## Texts of several lines -/

/-- Leave out a line break at the front. -/
def dropFirstBreak (cs : List Char) : List Char := (skipBreak? cs).getD cs

/-- Leave out blanks and line breaks.  A carriage return alone is neither. -/
def skipBlankLines : List Char → List Char
  | [] => []
  | '\r' :: '\n' :: rest => skipBlankLines rest
  | c :: rest => if isSpace c || c == '\n' then skipBlankLines rest else c :: rest

/-- What follows a backslash at the end of a line, up to the next character that
is no blank; none if something else follows. -/
def joinLines? (cs : List Char) : Option (List Char) :=
  (skipBreak? (cs.dropWhile isSpace)).map skipBlankLines

/-- The end of a text of several lines at a run of quotes: the last three of at
most five close it. -/
def closeLines? (quote : Char) (cs : List Char) : Option (List Char × List Char) :=
  let run := (cs.takeWhile (· == quote)).length
  if run < 3 then none
  else
    let inside := min (run - 3) 2
    some (List.replicate inside quote, cs.drop (inside + 3))

/-- The text up to the closing quotes; with `escaping`, backslashes count. -/
def readLines? (quote : Char) (escaping : Bool) :
    Nat → List Char → Option (List Char × List Char)
  | 0, _ => none
  | _, [] => none
  | fuel + 1, c :: rest =>
    if c == quote then
      match closeLines? quote (c :: rest) with
      | some closed => some closed
      | none => do
        let (text, rest) ← readLines? quote escaping fuel rest
        some (c :: text, rest)
    else if c == '\\' && escaping then
      match joinLines? rest with
      | some rest => readLines? quote escaping fuel rest
      | none => do
        let (meant, rest) ← escape? rest
        let (text, rest) ← readLines? quote escaping fuel rest
        some (meant :: text, rest)
    else
      match skipBreak? (c :: rest) with
      | some rest => do
        let (text, rest) ← readLines? quote escaping fuel rest
        some ('\n' :: text, rest)
      | none =>
        if isControl c then none
        else do
          let (text, rest) ← readLines? quote escaping fuel rest
          some (c :: text, rest)

/-! ## Any text -/

/-- A quoted text of any kind. -/
def readQuoted? (cs : List Char) : Option (List Char × List Char) :=
  match cs with
  | '"' :: '"' :: '"' :: rest =>
    let body := dropFirstBreak rest
    readLines? '"' true (body.length + 1) body
  | '"' :: rest => readBasic? (rest.length + 1) rest
  | '\'' :: '\'' :: '\'' :: rest =>
    let body := dropFirstBreak rest
    readLines? '\'' false (body.length + 1) body
  | '\'' :: rest => readLiteral? rest
  | _ => none

end Stencil.Toml
