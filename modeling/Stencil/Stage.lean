import Stencil.Catalog.Basic
import Stencil.Template.Binding
import Stencil.Template.Redraw

/-!
# Stages

A stage is where templates live: it holds templates with their emitters, stores,
and other emitters, all on one hub, and numbers the templates in the order in
which they are made. The number is the handle of a template, and part of the id
it is given, so no two templates of a stage are given the same id.

Whatever happens on a stage is one of its operations: templates are made and let
go, connected and disconnected, rendered and redrawn; and events are announced
on the hub. An operation that announces events tells what was announced.
-/

namespace Stencil

/-- The handle of a template. -/
structure TemplateId where
  /-- Its number, from one on. -/
  index : Nat
  deriving DecidableEq

/-- Templates and the hub they share. -/
structure Stage (σ : Type) where
  /-- The emitters, the stores and the state of the client. -/
  hub : Hub σ
  /-- The templates. -/
  templates : OrderedMap TemplateId (Template σ)
  /-- How many templates were made. -/
  made : Nat

namespace Stage

variable {σ δ : Type}

/-- The stage without templates. -/
def start (client : σ) : Stage σ := ⟨.start client, ∅, 0⟩

/-- The handle that the next template will be given. -/
def next (s : Stage σ) : TemplateId := ⟨s.made + 1⟩

/-- The stage with a change to the state of the client. -/
def mapClient (s : Stage σ) (f : σ → σ) : Stage σ :=
  { s with hub := { s.hub with client := f s.hub.client } }

/-- The stage with one more template, under the next handle. -/
def create (s : Stage σ) (d : Draft σ) : Stage σ :=
  { hub := s.hub.addEmitter
    templates := s.templates.insert s.next (d.build (s.made + 1) s.hub.next)
    made := s.made + 1 }

/-- The stage with one more template, whose draft is made by a maker. -/
def createBy (s : Stage σ) (make : Maker σ) : Stage σ :=
  let (draft, client) := make s.hub.client
  (s.mapClient fun _ => client).create draft

/-- The template of a handle. -/
def template? (s : Stage σ) (id : TemplateId) : Option (Template σ) := s.templates.get? id

/-- The stage with another template in the place of one that is there. -/
def put (s : Stage σ) (id : TemplateId) (t : Template σ) : Stage σ :=
  { s with templates := s.templates.insert id t }

/-- The stage with a change to a template, if it is there. -/
def modify (s : Stage σ) (id : TemplateId) (f : Template σ → Template σ) : Stage σ :=
  match s.template? id with
  | some t => s.put id (f t)
  | none => s

/-- The stage without a template, which is let go. -/
def drop (s : Stage σ) (id : TemplateId) : Stage σ :=
  match s.template? id with
  | some t => { s with hub := t.discard s.hub, templates := s.templates.erase id }
  | none => s

/-- Connects a template to a source. -/
def connect (depth : Nat) (s : Stage σ) (id : TemplateId) (source : Source) :
    Option (List Delivery × Stage σ) :=
  match s.template? id with
  | none => some ([], s)
  | some t => do
    let (ds, t, hub) ← t.connect depth source s.hub
    return (ds, { s.put id t with hub := hub })

/-- Releases the source of a template, telling whether there was one. -/
def disconnect (depth : Nat) (s : Stage σ) (id : TemplateId) :
    Option (Bool × List Delivery × Stage σ) :=
  match s.template? id with
  | none => some (false, [], s)
  | some t => do
    let (found, ds, t, hub) ← t.disconnect depth s.hub
    return (found, ds, { s.put id t with hub := hub })

/-- Announces an event on an emitter. -/
def emit (depth : Nat) (s : Stage σ) (target : EmitterId) (event : Event) :
    Option (Delivery × Stage σ) := do
  let (d, hub) ← s.hub.emit depth target event
  return (d, { s with hub := hub })

/-- Sets a field of a store, which announces the change. -/
def set (depth : Nat) (s : Stage σ) (store : EmitterId) (key : String) (value : Json) :
    Option (List Delivery × Stage σ) := do
  let (ds, hub) ← s.hub.set depth store key value
  return (ds, { s with hub := hub })

end Stage

end Stencil
