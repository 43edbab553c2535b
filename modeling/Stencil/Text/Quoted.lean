import Stencil.Text.Extending
import Stencil.Text.Printable

/-!
# Quoted text

Text between double quotes, as diagnostics show it: quotes and backslashes
carry a backslash, line ends, tabs and the null character have a letter of
their own, and what cannot be shown, or would melt into the character before
it, is written by its code point. A single quote stands for itself.
-/

namespace Stencil.Text

/-- A code point between braces, in hexadecimal. -/
def codePoint (c : Char) : List Char :=
  '\\' :: 'u' :: '{' :: (Nat.toDigits 16 c.toNat ++ ['}'])

/-- How a character is written between quotes. -/
def quotedChar (c : Char) : List Char :=
  if c = '"' then ['\\', '"']
  else if c = '\\' then ['\\', '\\']
  else if c = '\n' then ['\\', 'n']
  else if c = '\r' then ['\\', 'r']
  else if c = '\t' then ['\\', 't']
  else if c.toNat = 0 then ['\\', '0']
  else if extending.contains c || !isPrintable c then codePoint c
  else [c]

/-- A text between quotes. -/
def quoted (s : String) : String :=
  String.ofList ('"' :: (s.toList.flatMap quotedChar ++ ['"']))

end Stencil.Text
