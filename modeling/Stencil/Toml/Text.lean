import Stencil.Json.Reader

/-!
# TOML texts

Lines end with a line feed, which may have a carriage return in front of it; a
carriage return elsewhere is an error (`Toml.newline?`). Comments and texts hold
no control character but the tab.

There are four kinds of texts (`Toml.readText`): *basic* ones between double
quotes, with escapes, and *literal* ones between single quotes, without; each on
one line, or, between three quotes, on several. A text on several lines does not
begin with the line end behind its opening quotes, its line ends become line
feeds, and it may hold one or two quotes in a row, also at its very end. In a
basic text of this kind a backslash at the end of a line takes the line end and
all white space behind it away.
-/

namespace Stencil.Toml

/-- White space within a line. -/
def isSpace (c : Char) : Bool := c == ' ' || c == '\t'

/-- A character that may stand in a comment or a text. -/
def isVisible (c : Char) : Bool := c == '\t' || (32 ≤ c.toNat && c.toNat ≠ 127)

/-- The text from its first character that is no white space. -/
def skipSpace (cs : List Char) : List Char := cs.dropWhile isSpace

/-- What follows a line end, if the text begins with one. -/
def newline? : List Char → Option (List Char)
  | '\n' :: cs => some cs
  | '\r' :: '\n' :: cs => some cs
  | _ => none

/-- What follows a comment, if the text begins with one, and the text
    otherwise. -/
def skipComment : List Char → List Char
  | '#' :: cs => cs.dropWhile isVisible
  | cs => cs

/-- The text behind white space, comments and line ends. -/
def skipBlank : Nat → List Char → List Char
  | 0, cs => cs
  | fuel + 1, cs =>
    let cs := skipComment (skipSpace cs)
    match newline? cs with
    | some rest => skipBlank fuel rest
    | none => cs

/-- The text behind white space and line ends. -/
def skipLayout : Nat → List Char → List Char
  | 0, cs => cs
  | fuel + 1, cs =>
    let cs := skipSpace cs
    match newline? cs with
    | some rest => skipLayout fuel rest
    | none => cs

/-- A character given by its code point in exactly `digits` hexadecimal digits,
    with what follows them. -/
def readCodePoint (digits : Nat) (cs : List Char) : Option (Char × List Char) :=
  match Json.hexNumber? digits 0 cs with
  | some (n, rest) => if n.isValidChar then some (Char.ofNat n, rest) else none
  | none => none

/-- The character denoted by an escape, read from behind the backslash. -/
def readEscape : List Char → Option (Char × List Char)
  | '"' :: cs => some ('"', cs)
  | '\\' :: cs => some ('\\', cs)
  | 'b' :: cs => some (Char.ofNat 8, cs)
  | 'f' :: cs => some (Char.ofNat 12, cs)
  | 'n' :: cs => some ('\n', cs)
  | 'r' :: cs => some ('\r', cs)
  | 't' :: cs => some ('\t', cs)
  | 'u' :: cs => readCodePoint 4 cs
  | 'U' :: cs => readCodePoint 8 cs
  | _ => none

/-- A basic text on one line, from behind its quote. -/
def readBasic : Nat → List Char → Option (List Char × List Char)
  | 0, _ => none
  | _ + 1, [] => none
  | fuel + 1, c :: cs =>
    if c = '"' then some ([], cs)
    else if c = '\\' then do
      let (e, cs) ← readEscape cs
      let (text, rest) ← readBasic fuel cs
      return (e :: text, rest)
    else if isVisible c then do
      let (text, rest) ← readBasic fuel cs
      return (c :: text, rest)
    else none

/-- A literal text on one line, from behind its quote. -/
def readLiteral : List Char → Option (List Char × List Char)
  | [] => none
  | c :: cs =>
    if c = '\'' then some ([], cs)
    else if isVisible c then (readLiteral cs).map fun (text, rest) => (c :: text, rest)
    else none

/-- The quotes at the beginning of what follows three of them, taken into the
    text: of three to five quotes in a row the last three close it. Nothing when
    it is not closed here. -/
def closing? (quote : Char) (cs : List Char) : Option (List Char × List Char) :=
  match Json.afterWord? [quote, quote, quote] cs with
  | none => none
  | some rest =>
    match Json.afterWord? [quote, quote] rest with
    | some rest => some ([quote, quote], rest)
    | none =>
      match Json.afterWord? [quote] rest with
      | some rest => some ([quote], rest)
      | none => some ([], rest)

/-- A basic text on several lines, from behind its quotes. -/
def readBasicLines : Nat → List Char → Option (List Char × List Char)
  | 0, _ => none
  | _ + 1, [] => none
  | fuel + 1, c :: cs =>
    if c = '"' then
      match closing? '"' (c :: cs) with
      | some found => some found
      | none => do
        let (text, rest) ← readBasicLines fuel cs
        return ('"' :: text, rest)
    else if c = '\\' then
      match newline? (skipSpace cs) with
      | some rest => readBasicLines fuel (skipLayout (rest.length + 1) rest)
      | none => do
        let (e, cs) ← readEscape cs
        let (text, rest) ← readBasicLines fuel cs
        return (e :: text, rest)
    else if isVisible c then do
      let (text, rest) ← readBasicLines fuel cs
      return (c :: text, rest)
    else do
      let cs ← newline? (c :: cs)
      let (text, rest) ← readBasicLines fuel cs
      return ('\n' :: text, rest)

/-- A literal text on several lines, from behind its quotes. -/
def readLiteralLines : Nat → List Char → Option (List Char × List Char)
  | 0, _ => none
  | _ + 1, [] => none
  | fuel + 1, c :: cs =>
    if c = '\'' then
      match closing? '\'' (c :: cs) with
      | some found => some found
      | none => do
        let (text, rest) ← readLiteralLines fuel cs
        return ('\'' :: text, rest)
    else if isVisible c then do
      let (text, rest) ← readLiteralLines fuel cs
      return (c :: text, rest)
    else do
      let cs ← newline? (c :: cs)
      let (text, rest) ← readLiteralLines fuel cs
      return ('\n' :: text, rest)

/-- A text on one line, with what follows it. -/
def readLine (cs : List Char) : Option (String × List Char) :=
  let found :=
    match cs with
    | '"' :: cs => readBasic (cs.length + 1) cs
    | '\'' :: cs => readLiteral cs
    | _ => none
  found.map fun (text, rest) => (String.ofList text, rest)

/-- A text of any kind, with what follows it. -/
def readText (cs : List Char) : Option (String × List Char) :=
  let body (cs : List Char) : List Char := (newline? cs).getD cs
  match cs with
  | '"' :: '"' :: '"' :: cs =>
    (readBasicLines (cs.length + 1) (body cs)).map fun (text, rest) => (String.ofList text, rest)
  | '\'' :: '\'' :: '\'' :: cs =>
    (readLiteralLines (cs.length + 1) (body cs)).map fun (text, rest) =>
      (String.ofList text, rest)
  | cs => readLine cs

end Stencil.Toml
