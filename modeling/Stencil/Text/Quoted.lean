import Stencil.Text.Quoted.Hidden

namespace Stencil.Text

/-!
# Quoted text

Listings show literal text between double quotes.  The quote and the backslash
are escaped, four control characters have letters of their own, and every other
character that would not be seen is written by its number in hexadecimal.  The
apostrophe stands as it is.
-/

/-- The written form of one character between double quotes. -/
def quotedChar (c : Char) : List Char :=
  if c == '"' then ['\\', '"']
  else if c == '\\' then ['\\', '\\']
  else if c == '\n' then ['\\', 'n']
  else if c == '\r' then ['\\', 'r']
  else if c == '\t' then ['\\', 't']
  else if c.toNat == 0 then ['\\', '0']
  else if isHidden c then ['\\', 'u', '\x7b'] ++ Nat.toDigits 16 c.toNat ++ ['\x7d']
  else [c]

/-- The text between double quotes, in a form that shows every character. -/
def quoted (text : String) : String :=
  String.ofList ('"' :: (text.toList.flatMap quotedChar ++ ['"']))

end Stencil.Text
