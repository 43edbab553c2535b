import Stencil.Context
import Stencil.Event.Hub
import Stencil.Json.Printer
import Stencil.Section.Expansion
import Stencil.Tag.Filling

/-!
# Templates

A template has a layout, sections and options, an id by which its element is
found in a document, and perhaps a data source it is connected to: a value that
never changes, or a store. It counts its renderings, and has an emitter of its
own on which it announces what happens to it.

Parts of a template are programs: the generators of its contents, a hook that
adds computed fields to the data of a rendering, a hook that runs after a
redraw, and the interpolator that turns the expanded layout into the result.
They see the template as a `View` and may depend on, and change, the state `σ`
of their client.

A template is made from a `Draft`, which tells everything but its id. The id is
the stem of the draft, an underscore and the number of the template among all
that were made.
-/

namespace Stencil

open Section (Content Table Name)

/-- What is to be had from a data source. -/
structure Snapshot where
  /-- Its value at this moment. -/
  value : Json
  /-- Whether it announces its changes. -/
  observable : Bool

/-- A template as its generators and hooks see it. -/
structure View where
  /-- The id of its element. -/
  id : String
  /-- Its options. -/
  options : Json.Fields
  /-- How often it was rendered. -/
  draws : Nat
  /-- What is to be had from its data source, if it is connected to one. -/
  source : Option Snapshot
  /-- The names of its sections, in order. -/
  sectionNames : List Name
  /-- The emitter on which it announces what happens to it. -/
  emitter : EmitterId

/-- The number of the rendering, from the first one on. -/
def View.currentDraw? (v : View) : Option Nat := if 0 < v.draws then some v.draws else none

/-- Makes the text of a content, each time it is asked for. -/
abbrev Generator (σ : Type) := View → Context → σ → String × σ

/-- Computes fields from the data that a template tells about itself. -/
abbrev Preparation (σ : Type) := View → Context → σ → Json.Fields × σ

/-- Turns an expanded layout into the result of a rendering. -/
abbrev Interpolator := String → Context → Except TagError String

/-- Where the data of a template come from. -/
inductive Source
  /-- A value that never changes. -/
  | value (v : Json)
  /-- A store, which announces its changes. -/
  | store (id : EmitterId)

/-- The store that is watched while a template is connected to a source. -/
def Source.watched? : Source → Option EmitterId
  | value _ => none
  | store id => some id

/-- The value of a source at this moment. -/
def Source.read {σ : Type} (h : Hub σ) : Source → Json
  | value v => v
  | store id => .object (h.fields id)

/-- A template. -/
structure Template (σ : Type) where
  /-- The id of its element. -/
  id : String
  /-- Its options. -/
  options : Json.Fields
  /-- Its layout. -/
  layout : Content (Generator σ)
  /-- Its sections. -/
  sections : Table (Generator σ)
  /-- The data source it is connected to. -/
  source : Option Source
  /-- Its listener at the store it watches. -/
  subscription : Option ListenerId
  /-- The emitter on which it announces what happens to it. -/
  emitter : EmitterId
  /-- How often it was rendered. -/
  draws : Nat
  /-- What computes further fields for a rendering. -/
  prepare : Option (Preparation σ)
  /-- What is done after a redraw. -/
  rendered : Option (View → Reaction σ)
  /-- What turns the expanded layout into the result. -/
  interpolator : Interpolator

/-- What a template is made from. -/
structure Draft (σ : Type) where
  /-- What its id begins with. -/
  stem : String
  /-- Its layout. -/
  layout : Content (Generator σ)
  /-- Its sections. -/
  sections : Table (Generator σ)
  /-- Its options. -/
  options : Json.Fields

/-- What the ids of templates begin with unless it is told. -/
def defaultStem : String := "template"

namespace Draft

variable {σ : Type}

/-- The draft of an empty template. -/
def blank (σ : Type) : Draft σ := ⟨defaultStem, Content.empty, ∅, []⟩

instance : Inhabited (Draft σ) := ⟨blank σ⟩

/-- The id of the `n`-th template when it is made from this draft. -/
def id (d : Draft σ) (n : Nat) : String := d.stem ++ "_" ++ n.repr

/-- The template made from a draft as the `n`-th one, with the given emitter. -/
def build (d : Draft σ) (n : Nat) (emitter : EmitterId) : Template σ where
  id := d.id n
  options := d.options
  layout := d.layout
  sections := d.sections
  source := none
  subscription := none
  emitter := emitter
  draws := 0
  prepare := none
  rendered := none
  interpolator := Tag.interpolate

end Draft

namespace Template

variable {σ : Type}

/-- Whether a template is connected to a data source. -/
def isConnected (t : Template σ) : Bool := t.source.isSome

/-- The number of the rendering, from the first one on. -/
def currentDraw? (t : Template σ) : Option Nat := if 0 < t.draws then some t.draws else none

/-- What is to be had from the data source of a template. -/
def snapshot? (t : Template σ) (h : Hub σ) : Option Snapshot :=
  t.source.map fun s => ⟨s.read h, s.watched?.isSome⟩

/-- The template as its generators and hooks see it. -/
def view (t : Template σ) (h : Hub σ) : View where
  id := t.id
  options := t.options
  draws := t.draws
  source := t.snapshot? h
  sectionNames := t.sections.keys
  emitter := t.emitter

/-- The template with an option. -/
def setOption (t : Template σ) (key : String) (value : Json) : Template σ :=
  { t with options := Json.Fields.insert key value t.options }

/-- The template with some options put on top of those it has. -/
def mergeOptions (t : Template σ) (options : Json.Fields) : Template σ :=
  { t with options := Json.Fields.merge t.options options }

/-- The template with a section under the name that `spelling` stands for. -/
def setSection (t : Template σ) (spelling : String) (content : Content (Generator σ)) :
    Template σ :=
  { t with sections := (t.sections.replace spelling content).2 }

/-- The template with several sections put in, in turn. -/
def setSections (t : Template σ) (sections : List (String × Content (Generator σ))) :
    Template σ :=
  { t with sections := t.sections.extend sections }

end Template

/-! ### Templates in diagnostics -/

/-- A content as diagnostics show it. -/
def Section.Content.described {γ : Type} : Content γ → String
  | .literal text => "Literal(" ++ Text.quoted text ++ ")"
  | .generated _ => "Generator(..)"

/-- A table as diagnostics show it. -/
def Section.Table.described {γ : Type} (t : Table γ) : String :=
  let entry (e : Name × Content γ) : String := Text.quoted e.1.text ++ ": " ++ e.2.described
  "SectionTable \x7b entries: \x7b" ++ String.intercalate ", " (t.entries.map entry) ++
    "\x7d \x7d"

/-- A template as diagnostics show it. -/
def Template.described {σ : Type} (t : Template σ) : String :=
  "Template \x7b id: " ++ Text.quoted t.id ++
    ", options: \x7b" ++ Json.describedFields t.options ++ "\x7d" ++
    ", layout: " ++ t.layout.described ++
    ", sections: " ++ Section.Table.described t.sections ++
    ", connected: " ++ (if t.isConnected then "true" else "false") ++
    ", draws: " ++ t.draws.repr ++ ", .. \x7d"

end Stencil
