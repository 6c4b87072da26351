namespace Stencil

/-!
# What can go wrong

An error names the marker or scope it is about and the cause.  Causes are data,
one constructor each; the sentences shown to the author of a template are made
from them at the end of this module and nowhere else, so that nothing in the
library depends on a wording.
-/

/-- Why a marker cannot be read or placed. -/
inductive MarkerFault where
  | emptyMarker
  | emptySegment
  /-- A path segment begins with a bracket. -/
  | unnamedSegment (segment : String)
  /-- Something other than another group follows a group. -/
  | strayText (rest segment : String)
  | unbalancedBracket (segment : String)
  | unsupportedIndex (content : String)
  | emptyArgument
  | unterminatedArgument (argument : String)
  | namelessField (argument : String)
  | missingParenthesis (call : String)
  | invalidName (name : String)
  /-- The offset exceeds the length of the text in bytes. -/
  | offsetPastEnd (bytes : Nat)
  | offsetInsideCharacter
  deriving DecidableEq, Repr

/-- Why a repetition is not properly opened, closed or nested. -/
inductive RepetitionFault where
  | notOpened (iterator : String)
  | otherIterator (iterator opened : String)
  | neverClosed (iterator : String)
  | closedInSkippedRow (name : String)
  | startsInSkippedRow (name : String)
  | closedAroundInner (name inner : String)
  | closedOutside (name : String)
  | startsInside (name outer : String)
  | startsOutside (name : String)
  | usedOutside (path name : String)
  | usedInForeign (path : String)
  | openAtEnd
  deriving DecidableEq, Repr

/-- Why the parts of a template do not fit together.  None of these arises when
all parts are made from the same markers. -/
inductive ScopeFault where
  | orderedUnknown
  | orderedRoot (name : String)
  | orderedBeforeParent (name : String) (parent : Nat)
  | neverOrdered
  | slotOfUnknown (path : String)
  | emittedOutsideArray (path : String)
  | openedUnknown (path : String)
  | missingSlot (path : String)
  | unopenedLoop (place : Nat)
  | unknownInsertion (place leaf : Nat)
  | endlessRun
  deriving DecidableEq, Repr

/-- An error of compiling or rendering. -/
inductive Error where
  | invalidMarker (path : String) (offset : Nat) (fault : MarkerFault)
  /-- One attribute is used as an object and as an array. -/
  | conflictingUse (path name : String)
  /-- The counterpart is the marker most likely meant to pair with this one. -/
  | brokenRepetition (path : String) (offset : Nat) (fault : RepetitionFault)
      (counterpart : Option (String × Nat))
  | inconsistentScope (scope : Nat) (fault : ScopeFault)
  | missingFormatter (name path : String) (suggestion : Option String)
  /-- Text was asked for that ends before it begins.  This is not reported to
  anyone: the program stops there. -/
  | stopped (start stop : Nat)
  deriving DecidableEq, Repr

/-! ## Sentences -/

/-- The cause, as it is told to the author. -/
def MarkerFault.message : MarkerFault → String
  | emptyMarker => "empty marker"
  | emptySegment => "empty path segment"
  | unnamedSegment segment => "segment `" ++ segment ++ "` has no name"
  | strayText rest segment =>
    "unexpected `" ++ rest ++ "` after index group in `" ++ segment ++ "`"
  | unbalancedBracket segment => "unbalanced `[` in `" ++ segment ++ "`"
  | unsupportedIndex content => "unsupported array index `[" ++ content ++ "]`"
  | emptyArgument => "empty argument"
  | unterminatedArgument argument => "unterminated string argument `" ++ argument ++ "`"
  | namelessField argument => "field argument `" ++ argument ++ "` has no name"
  | missingParenthesis call => "missing `)` in `" ++ call ++ "`"
  | invalidName name => "invalid formatter name `" ++ name ++ "`"
  | offsetPastEnd bytes =>
    "offset is past the end of the text (" ++ toString bytes ++ " bytes)"
  | offsetInsideCharacter => "offset is not on a character boundary"

@[inherit_doc MarkerFault.message]
def RepetitionFault.message : RepetitionFault → String
  | notOpened iterator =>
    "`[" ++ iterator ++ "+1]` has no opening `[" ++ iterator ++ "]` before it"
  | otherIterator iterator opened =>
    "`[" ++ iterator ++ "+1]` does not match the opening `[" ++ opened
      ++ "]` of this dimension"
  | neverClosed iterator =>
    "`[" ++ iterator ++ "]` is never closed by `[" ++ iterator ++ "+1]`"
  | closedInSkippedRow name =>
    "`" ++ name ++ "` is closed inside the terminating row of an enclosing repetition"
  | startsInSkippedRow name =>
    "`" ++ name ++ "` starts inside the terminating row of an enclosing repetition"
  | closedAroundInner name inner =>
    "`" ++ name ++ "` is closed while the inner repetition `" ++ inner ++ "` is still open"
  | closedOutside name => "`" ++ name ++ "` is closed outside its repetition"
  | startsInside name outer =>
    "`" ++ name ++ "` starts inside the repetition of `" ++ outer ++ "`"
  | startsOutside name => "`" ++ name ++ "` starts outside its enclosing repetition"
  | usedOutside path name =>
    "`" ++ path ++ "` is used outside the repetition of `" ++ name ++ "`"
  | usedInForeign path => "`" ++ path ++ "` does not belong to the enclosing repetition"
  | openAtEnd => "repetition is still open at the end of the text"

@[inherit_doc MarkerFault.message]
def ScopeFault.message : ScopeFault → String
  | orderedUnknown => "sequenced scope is not in the graph"
  | orderedRoot name => "`" ++ name ++ "` has no parent"
  | orderedBeforeParent name parent =>
    "`" ++ name ++ "` is sequenced before its parent #" ++ toString parent
  | neverOrdered => "scope is never sequenced"
  | slotOfUnknown path => "leaf `" ++ path ++ "` points to an unknown scope"
  | emittedOutsideArray path =>
    "leaf `" ++ path ++ "` is emitted from a scope that is not an array"
  | openedUnknown path => "opened by `" ++ path ++ "` but missing from the graph"
  | missingSlot path => "leaf of `" ++ path ++ "` is missing from the graph"
  | unopenedLoop place => "loop end at " ++ toString place ++ " without an open loop"
  | unknownInsertion place leaf =>
    "op " ++ toString place ++ " refers to unknown leaf " ++ toString leaf
  | endlessRun => "the program does not come to an end"

/-- The sentence shown for an error. -/
def Error.message : Error → String
  | invalidMarker path offset fault =>
    "invalid marker `" ++ path ++ "` at offset " ++ toString offset ++ ": " ++ fault.message
  | conflictingUse path name =>
    "`" ++ name ++ "` is used both as an object and as an array (in `" ++ path ++ "`)"
  | brokenRepetition path offset fault counterpart =>
    "repetition error at `" ++ path ++ "` (offset " ++ toString offset ++ "): "
      ++ fault.message
      ++ match counterpart with
        | some (other, place) =>
          "; nearest counterpart is `" ++ other ++ "` at offset " ++ toString place
        | none => ""
  | inconsistentScope scope fault =>
    "unresolved scope reference #" ++ toString scope ++ ": " ++ fault.message
  | missingFormatter name path suggestion =>
    "formatter \"" ++ name ++ "\" used in `" ++ path ++ "` does not exist"
      ++ match suggestion with
        | some other => ". Did you mean \"" ++ other ++ "\"?"
        | none => ""
  | stopped start stop =>
    "text range starts at " ++ toString start ++ " but ends at " ++ toString stop

end Stencil
