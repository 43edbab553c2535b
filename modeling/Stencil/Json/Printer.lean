import Stencil.Json.Basic
import Stencil.Decimal
import Stencil.Text.Quoted

/-!
# JSON text

A value as JSON text without any space (`Json.compact`), fields in the order in
which the object holds them. In a text only what JSON demands is escaped: the
quote, the backslash and the control characters.

Diagnostics show values in another notation (`Json.described`), which names the
kind of every value.
-/

namespace Stencil.Json

/-- A number as text: an integer in decimal, any other number by its shortest
    digits. -/
def Number.text : Number → String
  | .int n => n.repr
  | .float x => String.ofList (Decimal.ofFloat x)

/-- A digit in lower-case hexadecimal. -/
def hexDigit (n : Nat) : Char := Nat.digitChar n

/-- How a character is written in a JSON text. -/
def escaped (c : Char) : List Char :=
  if c = '"' then ['\\', '"']
  else if c = '\\' then ['\\', '\\']
  else if c.toNat = 8 then ['\\', 'b']
  else if c.toNat = 12 then ['\\', 'f']
  else if c = '\n' then ['\\', 'n']
  else if c = '\r' then ['\\', 'r']
  else if c = '\t' then ['\\', 't']
  else if c.toNat < 32 then
    ['\\', 'u', '0', '0', hexDigit (c.toNat / 16), hexDigit (c.toNat % 16)]
  else [c]

/-- A text between quotes, escaped. -/
def stringText (s : String) : String :=
  String.ofList ('"' :: (s.toList.flatMap escaped ++ ['"']))

mutual

/-- A value as JSON text without spaces. -/
def compact : Json → String
  | null => "null"
  | bool b => if b then "true" else "false"
  | number n => n.text
  | string s => stringText s
  | array items => "[" ++ compactItems items ++ "]"
  | object fields => "\x7b" ++ compactFields fields ++ "\x7d"

/-- The items of an array, with commas between them. -/
def compactItems : List Json → String
  | [] => ""
  | [v] => compact v
  | v :: w :: rest => compact v ++ "," ++ compactItems (w :: rest)

/-- The fields of an object, with commas between them. -/
def compactFields : List (String × Json) → String
  | [] => ""
  | [f] => stringText f.1 ++ ":" ++ compact f.2
  | f :: g :: rest => stringText f.1 ++ ":" ++ compact f.2 ++ "," ++ compactFields (g :: rest)

end

mutual

/-- A value as diagnostics show it. -/
def described : Json → String
  | null => "Null"
  | bool b => "Bool(" ++ (if b then "true" else "false") ++ ")"
  | number n => "Number(" ++ n.text ++ ")"
  | string s => "String(" ++ Text.quoted s ++ ")"
  | array items => "Array [" ++ describedItems items ++ "]"
  | object fields => "Object \x7b" ++ describedFields fields ++ "\x7d"

/-- The items of an array, as diagnostics show them. -/
def describedItems : List Json → String
  | [] => ""
  | [v] => described v
  | v :: w :: rest => described v ++ ", " ++ describedItems (w :: rest)

/-- The fields of an object, as diagnostics show them. -/
def describedFields : List (String × Json) → String
  | [] => ""
  | [f] => Text.quoted f.1 ++ ": " ++ described f.2
  | f :: g :: rest =>
    Text.quoted f.1 ++ ": " ++ described f.2 ++ ", " ++ describedFields (g :: rest)

end

/-- A value as it appears in running text: a text as it is, any other value as
    JSON text, and nothing for a missing value. -/
def plain : Option Json → String
  | none => ""
  | some (string s) => s
  | some v => compact v

end Stencil.Json
