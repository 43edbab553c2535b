import Stencil.Json.Path

/-!
# Render contexts

The data that one rendering is filled with (`Context`): named values, looked up
by paths. Layers of data are merged on top of each other whole field by whole
field: a field of a higher layer hides the field of the same name below it
entirely, even when it has less in it (`Context.merge`).

Four names are reserved for what a template tells about itself: its options, a
snapshot of its data source, the number of the rendering and its element id.
-/

namespace Stencil

/-- The data of one rendering. -/
structure Context where
  /-- The named values. -/
  fields : Json.Fields

namespace Context

/-- The name of the options. -/
def optionKey : String := "option"

/-- The name of the snapshot of the data source. -/
def dataSourceKey : String := "data_source"

/-- The name of the number of the rendering. -/
def drawKey : String := "draw"

/-- The name of the element id. -/
def domIdKey : String := "dom_id"

/-- The context without data. -/
def empty : Context := ⟨[]⟩

instance : Inhabited Context := ⟨empty⟩

/-- The value under a name, if any. -/
def get? (c : Context) (key : String) : Option Json := Json.Fields.get? key c.fields

/-- The value at a path, if any. -/
def getPath? (c : Context) (path : String) : Option Json :=
  match pathSegments path with
  | [] => none
  | root :: rest => (c.get? root).bind (·.follow rest)

/-- The context with a value under a name. -/
def insert (c : Context) (key : String) (value : Json) : Context :=
  ⟨Json.Fields.insert key value c.fields⟩

/-- The context with the layer `upper` put on top of it. -/
def merge (c : Context) (upper : Json.Fields) : Context := ⟨Json.Fields.merge c.fields upper⟩

/-- The context with the fields of a value put on top of it. A value that is no
    object has none. -/
def mergeValue (c : Context) (value : Json) : Context :=
  match value.fields? with
  | some fs => c.merge fs
  | none => c

/-- The number of the rendering, as the context tells it. -/
def draw? (c : Context) : Option Nat := (c.get? drawKey).bind Json.nat?

/-- The element id, as the context tells it. -/
def domId? (c : Context) : Option String := (c.get? domIdKey).bind Json.string?

@[simp] theorem get?_insert_self (c : Context) (key : String) (value : Json) :
    (c.insert key value).get? key = some value :=
  Json.Fields.get?_insert_self key value c.fields

theorem get?_insert_of_ne (c : Context) {key key' : String} (h : key' ≠ key) (value : Json) :
    (c.insert key value).get? key' = c.get? key' :=
  Json.Fields.get?_insert_of_ne h value c.fields

end Context

end Stencil
