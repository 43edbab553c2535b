import Stencil.OrderedMap
import Stencil.Placeholder

/-!
# Sections

A section is a named fragment of a template. Its content is a text that was
written down, or is generated anew each time it is asked for. What generates
texts is left open here (the type `γ`): a generator is run against a world of
any type `σ`, which it may change, so that it can count its calls or answer
differently each time.

The sections of a template form a table (`Section.Table`) in the order in which
their names first came.
-/

namespace Stencil.Section

/-- What a section, or a layout, is made of. -/
inductive Content (γ : Type)
  /-- Text that is always the same. -/
  | literal (text : String)
  /-- Text made by a generator. -/
  | generated (generator : γ)

namespace Content

variable {γ σ : Type}

/-- The text of content that is not generated. -/
def literal? : Content γ → Option String
  | literal text => some text
  | generated _ => none

/-- The text of a content in the given world, `run` telling what a generator
    does, and the world afterwards. -/
def materialize (run : γ → σ → String × σ) : Content γ → σ → String × σ
  | literal text, world => (text, world)
  | generated g, world => run g world

/-- The empty text. -/
def empty : Content γ := literal ""

end Content

/-- The sections of a template, by name, in the order in which they came. -/
abbrev Table (γ : Type) := OrderedMap Name (Content γ)

namespace Table

variable {γ : Type}

/-- The table with a section under the name that `spelling` stands for, and the
    content that was there before. -/
def replace (t : Table γ) (spelling : String) (content : Content γ) :
    Option (Content γ) × Table γ :=
  (t.get? (.of spelling), t.insert (.of spelling) content)

/-- The table with several sections put into it, in turn. -/
def extend (t : Table γ) (sections : List (String × Content γ)) : Table γ :=
  t.insertMany (sections.map fun s => (.of s.1, s.2))

/-- The table of some sections, a later one winning over an earlier one of the
    same name. -/
def ofSections (sections : List (String × Content γ)) : Table γ := extend ∅ sections

end Table

end Stencil.Section
