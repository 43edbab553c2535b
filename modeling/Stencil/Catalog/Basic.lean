import Stencil.Registry

/-!
# Catalogs

A catalog declares templates and compilers for a registry. Its templates are
made of literal text only, and its compilers are texts with tags.

A compiler of a catalog fills the tags of its text from the fields of the data
it is given. Should that fail, the text it makes is empty, and the error is
passed on as a warning.
-/

namespace Stencil

open Section (Content Table)

/-- The declaration of a template. -/
structure Catalog.Entry where
  /-- The type it is registered under. -/
  type : String
  /-- The name it is registered under. -/
  name : String
  /-- Whether it becomes the default of its type. -/
  isDefault : Bool
  /-- What the ids of its templates begin with, if not with the type. -/
  stem : Option String
  /-- The layout. -/
  layout : String
  /-- The sections, in order. -/
  sections : List (String × String)
  /-- The options. -/
  options : Json.Fields

/-- The declaration of a compiler. -/
structure Catalog.CompilerEntry where
  /-- The name it is registered under. -/
  name : String
  /-- The text with tags. -/
  text : String

/-- Declarations of templates and compilers. -/
structure Catalog where
  /-- The templates, in order. -/
  templates : List Catalog.Entry
  /-- The compilers, in order. -/
  compilers : List Catalog.CompilerEntry

/-- Makes drafts of templates, and may change the state of the client. -/
abbrev Maker (σ : Type) := σ → Draft σ × σ

namespace Catalog

variable {σ : Type}

/-- The draft of a declared template. -/
def Entry.draft (e : Entry) : Draft σ where
  stem := e.stem.getD e.type
  layout := .literal e.layout
  sections := Table.ofSections (e.sections.map fun s => (s.1, .literal s.2))
  options := Json.Fields.merge [] e.options

/-- The maker of a declared template. -/
def Entry.maker (e : Entry) : Maker σ := fun client => (e.draft, client)

/-- The compiler of a declared text. -/
def CompilerEntry.compiler (c : CompilerEntry) : Compiler := fun data =>
  match Tag.interpolate c.text (Context.empty.mergeValue data) with
  | .ok text => ⟨text, []⟩
  | .error e => ⟨"", [e]⟩

end Catalog

end Stencil
