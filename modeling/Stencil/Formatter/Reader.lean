import Stencil.Error
import Stencil.Formatter.Call
import Stencil.Text.Alphanumeric
import Stencil.Text.Splitting

namespace Stencil.Formatter

/-!
# Reading formatter chains

A chain is one or more calls with colons between them, a call a name with an
optional list of arguments in parentheses.  Colons, commas and parentheses
inside quotes are text.  Blanks around names and arguments are ignored.

Word processors turn apostrophes into typographic quotes, so single quotes of
that kind are read as apostrophes before anything else is looked at.
-/

/-- The single quotes a word processor may have put in place of an apostrophe. -/
def isTypographicQuote (c : Char) : Bool :=
  c == '\u2018' || c == '\u2019' || c == '\u201a' || c == '\u201b'

/-- Read typographic single quotes as apostrophes. -/
def straighten (cs : List Char) : List Char :=
  cs.map fun c => if isTypographicQuote c then '\'' else c

/-- A text argument that begins with the quote `q` has to end with it. -/
def readQuoted (q : Char) (raw inner : List Char) : Except MarkerFault Argument :=
  match Text.dropLast? q inner with
  | some text => .ok (.literal (.string (String.ofList text)))
  | none => .error (.unterminatedArgument (String.ofList raw))

/-- A field argument: the points in front tell how far to climb. -/
def readField (raw : List Char) : Except MarkerFault Argument :=
  let name := raw.dropWhile (· == '.')
  if name.isEmpty then .error (.namelessField (String.ofList raw))
  else .ok (.field (raw.length - name.length - 1) (String.ofList name))

/-- Read one argument. -/
def readArgument (cs : List Char) : Except MarkerFault Argument :=
  let raw := Text.trim cs
  match raw with
  | [] => .error .emptyArgument
  | '\'' :: inner => readQuoted '\'' raw inner
  | '"' :: inner => readQuoted '"' raw inner
  | '.' :: _ => readField raw
  | _ => .ok (.literal (.ofWord raw))

/-- Read what stands between the parentheses of a call. -/
def readArguments (inner : List Char) : Except MarkerFault (List Argument) :=
  if (Text.trim inner).isEmpty then .ok []
  else (Text.splitParts .arguments ',' .start inner).mapM readArgument

/-- A formatter name is made of letters and digits of any script and underscores. -/
def isFormatterName (cs : List Char) : Bool :=
  !cs.isEmpty && cs.all fun c => Text.isAlphanumeric c || c == '_'

/-- A call with a name already trimmed. -/
def makeCall (name : List Char) (arguments : List Argument) : Except MarkerFault Call :=
  if isFormatterName name then .ok ⟨String.ofList name, arguments⟩
  else .error (.invalidName (String.ofList name))

/-- Read one call.  Faults of the arguments are reported before those of the
name. -/
def readCall (cs : List Char) : Except MarkerFault Call :=
  let raw := Text.trim cs
  let name := raw.takeWhile (· != '(')
  match raw.dropWhile (· != '(') with
  | [] => makeCall raw []
  | _ :: rest =>
    match Text.dropLast? ')' rest with
    | none => .error (.missingParenthesis (String.ofList raw))
    | some inner => do
      let arguments ← readArguments inner
      makeCall (Text.trim name) arguments

/-- Read a single call as it is given from outside a marker. -/
def Call.ofText (text : String) : Except MarkerFault Call :=
  readCall (straighten text.toList)

/-- Read the calls of a chain. -/
def readChain (cs : List Char) : Except MarkerFault (List Call) :=
  (Text.splitParts .arguments ':' .start (straighten cs)).mapM readCall

end Stencil.Formatter
