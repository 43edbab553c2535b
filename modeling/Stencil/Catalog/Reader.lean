import Stencil.Catalog.Basic
import Stencil.Toml.Reader

/-!
# Reading catalogs

A catalog is written in TOML: its templates are the tables of the array
`template`, its compilers those of `compiler`. A table may also be given as an
array that holds its fields in their order. Keys that mean nothing are ignored;
a field of a wrong kind is an error, and so is a template without a type or a
name, or a compiler without a name or a text.
-/

namespace Stencil.Catalog

open Toml (Value)

/-- Where the fields of a declaration are taken from. -/
inductive Record
  /-- From entries, by key. -/
  | keyed (entries : List (String × Value))
  /-- From values, by position. -/
  | listed (items : List Value)

/-- The fields that a value holds. -/
def Record.ofValue? (v : Value) : Option Record :=
  match v with
  | .array items => some (.listed items)
  | v => v.entries?.map .keyed

/-- The value of a field, given by its position and its key. -/
def Record.get? (r : Record) (position : Nat) (key : String) : Option Value :=
  match r with
  | .keyed entries => (entries.find? fun e => e.1 = key).map Prod.snd
  | .listed items => items[position]?

/-- What a field is read as; `missing` when there is no such field. -/
def Record.read {α : Type} (r : Record) (position : Nat) (key : String) (missing : Option α)
    (read : Value → Option α) : Option α :=
  match r.get? position key with
  | some v => read v
  | none => missing

/-- A value that is a text. -/
def textOf : Value → Option String
  | .string s => some s
  | _ => none

/-- A value that is a truth value. -/
def truthOf : Value → Option Bool
  | .boolean b => some b
  | _ => none

/-- A value that has texts as entries. -/
def textsOf (v : Value) : Option (List (String × String)) := do
  let entries ← v.entries?
  entries.mapM fun e => (textOf e.2).map fun s => (e.1, s)

/-- A value that has entries, as fields. -/
def fieldsOf (v : Value) : Option Json.Fields :=
  v.entries?.map fun entries => Json.Fields.ofList (Toml.entriesToJson entries)

/-- A value that is a list, with every item read. -/
def listOf {α : Type} (read : Value → Option α) : Value → Option (List α)
  | .array items => items.mapM read
  | _ => none

/-- The declaration of a template. -/
def Entry.ofValue? (v : Value) : Option Entry := do
  let r ← Record.ofValue? v
  let type ← r.read 0 "type" none textOf
  let name ← r.read 1 "name" none textOf
  let isDefault ← r.read 2 "default" (some false) truthOf
  let stem ← r.read 3 "prefix" (some none) fun v => (textOf v).map some
  let layout ← r.read 4 "layout" (some "") textOf
  let sections ← r.read 5 "sections" (some []) textsOf
  let options ← r.read 6 "options" (some []) fieldsOf
  return ⟨type, name, isDefault, stem, layout, sections, options⟩

/-- The declaration of a compiler. -/
def CompilerEntry.ofValue? (v : Value) : Option CompilerEntry := do
  let r ← Record.ofValue? v
  let name ← r.read 0 "name" none textOf
  let text ← r.read 1 "template" none textOf
  return ⟨name, text⟩

/-- The catalog that a text declares. -/
def read? (text : String) : Option Catalog := do
  let entries ← Toml.read? text
  let r := Record.keyed entries
  let templates ← r.read 0 "template" (some []) (listOf Entry.ofValue?)
  let compilers ← r.read 1 "compiler" (some []) (listOf CompilerEntry.ofValue?)
  return ⟨templates, compilers⟩

end Stencil.Catalog
