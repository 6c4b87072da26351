namespace Stencil.Text.Xml

/-!
# Character data of a markup document

Inserted text may be encoded for a place where markup is read.  The three
characters that would be taken for markup become references, and the control
characters that such a document cannot hold are left out.
-/

/-- The control characters below the space, without tab and the line breaks. -/
def isForbidden (c : Char) : Bool :=
  c.toNat < 32 && c != '\t' && c != '\n' && c != '\r'

/-- The encoded form of one character. -/
def encodeChar (c : Char) : List Char :=
  if c == '&' then ['&', 'a', 'm', 'p', ';']
  else if c == '<' then ['&', 'l', 't', ';']
  else if c == '>' then ['&', 'g', 't', ';']
  else if isForbidden c then []
  else [c]

/-- Whether encoding changes a text at all. -/
def needsEncoding (text : String) : Bool :=
  text.toList.any fun c => c == '&' || c == '<' || c == '>' || isForbidden c

/-- A copy of a text, encoded character by character. -/
def encodedCopy (text : String) : String := String.ofList (text.toList.flatMap encodeChar)

/-- Encode a text as character data.  A text that needs no encoding is not copied. -/
def encode (text : String) : String := if needsEncoding text then encodedCopy text else text

end Stencil.Text.Xml
