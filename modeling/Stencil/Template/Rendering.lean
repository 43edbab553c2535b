import Stencil.Report
import Stencil.Template.Basic

/-!
# Rendering

A rendering of a template (`Template.render`) counts as a draw from its very
beginning, whether it succeeds or not. It puts together the data
(`Template.renderContext`), expands the layout with the sections, and hands the
expanded text to the interpolator.

The data come in three layers: what the template tells about itself, then what
its hook computes from this first layer alone, then the data given from outside
if they are an object. A field of a later layer hides the field of the same name
in the earlier ones.

Only literal texts and generators are expanded, and the data are put in
afterwards: they are never read as sections or tags themselves.
-/

namespace Stencil

open Section (Content Table Name)

/-- Why a template cannot be rendered. -/
inductive RenderError
  /-- Its sections cannot be expanded. -/
  | sections (failure : Section.Failure)
  /-- A tag of the expanded text, which is given, is wrong. -/
  | tags (error : TagError) (text : String)
  deriving DecidableEq

namespace RenderError

/-- What an error is called. -/
def message : RenderError → String
  | sections failure => "section error: " ++ failure.message
  | tags error _ => "interpolation error: " ++ error.message

/-- The report of an error, drawn with the expanded text where there is one. -/
def report (e : RenderError) (file : String) : String :=
  match e with
  | sections _ => e.message
  | tags error text => Report.ofTagError error text file

end RenderError

/-- How a rendering ended, and what happened on the way. -/
structure Rendering (σ : Type) where
  /-- The text, or why there is none. -/
  result : Except RenderError String
  /-- The names of every warning, in order. -/
  warnings : List (List Name)
  /-- The template afterwards. -/
  template : Template σ
  /-- The hub afterwards. -/
  hub : Hub σ

namespace Template

variable {σ : Type}

/-- What a template tells about itself. -/
def baseContext (t : Template σ) (h : Hub σ) : Context :=
  (((Context.empty.insert Context.optionKey (.object t.options)).insert
    Context.dataSourceKey (((t.snapshot? h).map Snapshot.value).getD .null)).insert
    Context.drawKey ((t.currentDraw?.map Json.ofNat).getD .null)).insert
    Context.domIdKey (.string t.id)

/-- The fields that the hook of a template computes, and the hub afterwards. -/
def preparedFields (t : Template σ) (h : Hub σ) : Json.Fields × Hub σ :=
  match t.prepare with
  | none => ([], h)
  | some prepare =>
    let (fields, client) := prepare (t.view h) (t.baseContext h) h.client
    (fields, { h with client := client })

/-- A context with external data, if any, put on top of it. -/
def withExternal (c : Context) : Option Json → Context
  | none => c
  | some v => c.mergeValue v

/-- The data of a rendering, and the hub after the hook has run. -/
def renderContext (t : Template σ) (external : Option Json) (h : Hub σ) : Context × Hub σ :=
  let (fields, h') := t.preparedFields h
  (withExternal ((t.baseContext h).merge fields) external, h')

/-- What generators do for a template with the given view and data. -/
def generate (view : View) (context : Context) (g : Generator σ) (client : σ) : String × σ :=
  g view context client

/-- The template with one more draw. -/
def countDraw (t : Template σ) : Template σ := { t with draws := t.draws + 1 }

/-- Expands the layout of a template with its sections. -/
def expand (t : Template σ) (context : Context) (h : Hub σ) :
    Section.Outcome (Generator σ) σ :=
  Section.resolve (generate (t.view h) context) t.layout t.sections h.client

/-- Renders a template with external data. -/
def render (t : Template σ) (external : Option Json) (h : Hub σ) : Rendering σ :=
  let t := t.countDraw
  let (context, h) := t.renderContext external h
  let outcome := t.expand context h
  let result : Except RenderError String :=
    match outcome.result with
    | .error failure => .error (.sections failure)
    | .ok expanded =>
      match t.interpolator expanded.text context with
      | .error e => .error (.tags e expanded.text)
      | .ok text => .ok text
  { result := result
    warnings := outcome.warnings
    template := t
    hub := { h with client := outcome.world } }

end Template

/-- Renders a layout with some sections and data, once. -/
def renderOnce {σ : Type} (layout : String) (sections : List (String × Content (Generator σ)))
    (data : Json) (client : σ) : Except RenderError String :=
  let draft : Draft σ :=
    { Draft.blank σ with
      layout := .literal layout
      sections := Table.ofSections sections }
  ((draft.build 1 ⟨0⟩).render (some data) (.start client)).result

end Stencil
