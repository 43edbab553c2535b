import Stencil.Context
import Stencil.Json.Printer
import Stencil.Tag.Escape
import Stencil.Tag.Reader

/-!
# Filling tags

The tags of a text are filled from a context (`Tag.interpolate`). The first
segment of a path must be a name of the context; where the path leads nowhere
below it, nothing is put in. Tags are looked up in the order of the text, after
all of it was read.

A value is shown as running text: nothing for the null value, a text as it is,
the items of an array with commas between them, an object as JSON text.
-/

namespace Stencil.Tag

mutual

/-- A value as running text. -/
def display : Json → String
  | .null => ""
  | .string s => s
  | .bool b => if b then "true" else "false"
  | .number n => n.text
  | .array items => displayItems items
  | .object fields => Json.compact (.object fields)

/-- The items of an array as running text, with commas between them. -/
def displayItems : List Json → String
  | [] => ""
  | [v] => display v
  | v :: w :: rest => display v ++ "," ++ displayItems (w :: rest)

end

/-- The value for a tag at `span` with the given path: null where the path leads
    nowhere, an error when not even its first segment is there. -/
def lookup (context : Context) (path : String) (span : Span) : Except TagError Json :=
  match context.get? (pathRoot path) with
  | none => .error (.undefined (pathRoot path) span)
  | some _ => .ok ((context.getPath? path).getD .null)

/-- What a segment puts into the text. -/
def Segment.fill (context : Context) : Segment → Except TagError (List Char)
  | .text cs => .ok cs
  | .tag escaped path span => do
    let shown := (display (← lookup context path span)).toList
    return if escaped then escape shown else shown

/-- What some segments put into the text, in turn, or the first error. -/
def fillAll (context : Context) : List Segment → Except TagError (List Char)
  | [] => .ok []
  | s :: rest => do
    let cs ← s.fill context
    return cs ++ (← fillAll context rest)

/-- A text with its tags filled from a context. -/
def interpolate (text : String) (context : Context) : Except TagError String := do
  let segments ← parse text
  return String.ofList (← fillAll context segments)

end Stencil.Tag
