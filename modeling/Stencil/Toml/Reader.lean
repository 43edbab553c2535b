import Stencil.Toml.Scalar
import Stencil.Toml.Tree

/-!
# Reading TOML

A TOML document as a table (`Toml.read?`), or nothing when the text is no TOML.
A document is a sequence of lines: values under keys, headers of tables and
headers of elements of arrays. The values behind a header belong to the table
that it defines.

Arrays may run over several lines and end with a comma; inline tables stay on
one line and do not. Containers may be nested 79 deep, and a dotted key has
fewer than 80 parts.
-/

namespace Stencil.Toml

/-- How deep arrays and inline tables may be nested. -/
def maxDepth : Nat := 79

/-! ### Keys -/

/-- A character of a key without quotes. -/
def isBareKeyChar (c : Char) : Bool := c.isAlphanum || c == '_' || c == '-'

/-- One part of a key, with what follows it. -/
def readKeyPart (cs : List Char) : Option (String × List Char) :=
  match cs with
  | '"' :: _ => readLine cs
  | '\'' :: _ => readLine cs
  | cs =>
    match cs.takeWhile isBareKeyChar with
    | [] => none
    | ks => some (String.ofList ks, cs.dropWhile isBareKeyChar)

/-- The parts of a dotted key, white space around them, with what follows it. -/
def readKeyParts : Nat → List Char → Option (List String × List Char)
  | 0, _ => none
  | fuel + 1, cs => do
    let (k, cs) ← readKeyPart (skipSpace cs)
    match skipSpace cs with
    | '.' :: cs =>
      let (ks, rest) ← readKeyParts fuel cs
      return (k :: ks, rest)
    | rest => return ([k], rest)

/-- A dotted key: the keys of the tables on its way and the key in the last one,
    with what follows it. -/
def readKey (cs : List Char) : Option ((List String × String) × List Char) := do
  let (ks, rest) ← readKeyParts (cs.length + 1) cs
  let last ← ks.getLast?
  if maxDepth < ks.length then none else return ((ks.dropLast, last), rest)

/-! ### Values -/

/-- The items of an array up to its bracket, with a reader of one item, and what
    follows the array. -/
def readItems (item : List Char → Option (Value × List Char)) :
    Nat → List Char → Option (List Value × List Char)
  | 0, _ => none
  | fuel + 1, cs =>
    match skipBlank (cs.length + 1) cs with
    | ']' :: rest => some ([], rest)
    | cs => do
      let (v, cs) ← item cs
      match skipBlank (cs.length + 1) cs with
      | ',' :: cs =>
        let (vs, rest) ← readItems item fuel cs
        return (v :: vs, rest)
      | ']' :: rest => return ([v], rest)
      | _ => none

/-- The pairs of an inline table up to its brace, of which there is at least one,
    with a reader of one value, and what follows the table. -/
def readPairs (item : List Char → Option (Value × List Char)) :
    Nat → List Char → Option (List (List String × String × Value) × List Char)
  | 0, _ => none
  | fuel + 1, cs => do
    let ((path, key), cs) ← readKey cs
    let cs ← Json.afterWord? ['='] cs
    let (v, cs) ← item (skipSpace cs)
    match skipSpace cs with
    | ',' :: cs =>
      let (ps, rest) ← readPairs item fuel cs
      return ((path, key, v) :: ps, rest)
    | '}' :: rest => return ([(path, key, v)], rest)
    | _ => none

/-- An inline table, from behind its brace, with a reader of one value, and what
    follows it. -/
def readInlineTable (item : List Char → Option (Value × List Char)) (cs : List Char) :
    Option (Value × List Char) :=
  match skipSpace cs with
  | '}' :: rest => some (.table [], rest)
  | cs => do
    let (pairs, rest) ← readPairs item (cs.length + 1) cs
    let entries ← Entries.addEntries pairs []
    return (.table (entriesToValue entries), rest)

/-- A value whose containers are nested at most `depth` deep, with what follows
    it. -/
def readValue : (depth : Nat) → List Char → Option (Value × List Char)
  | 0, cs => readScalar cs
  | depth + 1, cs =>
    match cs with
    | '[' :: cs =>
      (readItems (readValue depth) (cs.length + 1) cs).map fun (vs, rest) => (.array vs, rest)
    | '{' :: cs => readInlineTable (readValue depth) cs
    | cs => readScalar cs

/-! ### Lines -/

/-- A line of a document that is not blank. -/
inductive Statement
  /-- A value under a dotted key. -/
  | entry (path : List String) (key : String) (value : Value)
  /-- The header of a table. -/
  | table (path : List String) (key : String)
  /-- The header of one more table in an array. -/
  | element (path : List String) (key : String)

/-- What follows the end of a line: white space, perhaps a comment, and the line
    end or the end of the text. -/
def afterLine? (cs : List Char) : Option (List Char) :=
  match skipComment (skipSpace cs) with
  | [] => some []
  | cs => newline? cs

/-- A line that is not blank, up to what is allowed to stand at its end. -/
def readStatement (cs : List Char) : Option (Statement × List Char) :=
  match cs with
  | '[' :: '[' :: cs => do
    let ((path, key), cs) ← readKey cs
    let rest ← Json.afterWord? [']', ']'] cs
    return (.element path key, rest)
  | '[' :: cs => do
    let ((path, key), cs) ← readKey cs
    let rest ← Json.afterWord? [']'] cs
    return (.table path key, rest)
  | cs => do
    let ((path, key), cs) ← readKey cs
    let cs ← Json.afterWord? ['='] cs
    let (v, rest) ← readValue maxDepth (skipSpace cs)
    return (.entry path key v, rest)

/-- The lines of a text that are not blank. -/
def readStatements : Nat → List Char → Option (List Statement)
  | 0, _ => none
  | fuel + 1, cs =>
    match skipBlank (cs.length + 1) cs with
    | [] => some []
    | cs => do
      let (s, cs) ← readStatement cs
      let rest ← afterLine? cs
      return s :: (← readStatements fuel rest)

/-! ### Documents -/

/-- The values at the beginning of some statements, and the statements from the
    next header on. -/
def leadingEntries : List Statement →
    List (List String × String × Value) × List Statement
  | .entry path key v :: rest =>
    let (lines, rest) := leadingEntries rest
    ((path, key, v) :: lines, rest)
  | rest => ([], rest)

/-- The entries of a document with the tables of some more statements. -/
def build : Nat → List Statement → Entries → Option Entries
  | 0, _, _ => none
  | fuel + 1, statements, es =>
    match statements with
    | [] => some es
    | .entry _ _ _ :: _ => none
    | .table path key :: rest => do
      let (lines, rest) := leadingEntries rest
      build fuel rest (← Entries.addTable path key lines es)
    | .element path key :: rest => do
      let (lines, rest) := leadingEntries rest
      build fuel rest (← Entries.addElement path key lines es)

/-- The entries of the table that a text denotes. A byte order mark at its
    beginning is ignored. -/
def read? (text : String) : Option (List (String × Value)) := do
  let cs :=
    match text.toList with
    | '\ufeff' :: cs => cs
    | cs => cs
  let statements ← readStatements (cs.length + 1) cs
  let (lines, rest) := leadingEntries statements
  let es ← build (rest.length + 1) rest (← Entries.addEntries lines [])
  return entriesToValue es

end Stencil.Toml
