import Stencil.Document
import Stencil.Template.Rendering

/-!
# Redraws

A template that has an element in a document renders anew and swaps the result
in (`Template.redraw`). Without an element nothing happens at all, and where the
rendering fails the document keeps what it shows. A redraw announces `re-draw`
once the new text is there, and `drawn`, with the text, once the document shows
it; then the hook of the template runs.
-/

namespace Stencil.Template

variable {σ δ : Type}

/-- The event announced when a redraw has a new text. -/
def redrawEvent : Event := ⟨"re-draw", none⟩

/-- The event announced when a document shows a new text. -/
def drawnEvent (text : String) : Event := ⟨"drawn", some (.string text)⟩

/-- The markup of the element of a template, if the document has it. -/
def markup? [Document δ] (t : Template σ) (d : δ) : Option String := Document.element? d t.id

/-- How a redraw ended, and what happened on the way. -/
structure Redrawing (σ δ : Type) where
  /-- Whether the document shows the new text, or why there is none. -/
  result : Except RenderError Bool
  /-- What was announced. -/
  deliveries : List Delivery
  /-- The names of every warning of the rendering, in order. -/
  warnings : List (List Section.Name)
  /-- The template afterwards. -/
  template : Template σ
  /-- The document afterwards. -/
  document : δ
  /-- The hub afterwards. -/
  hub : Hub σ

/-- Runs the hook of a template after a redraw. -/
def runRendered (depth : Nat) (t : Template σ) (h : Hub σ) : Option (List Delivery × Hub σ) :=
  match t.rendered with
  | none => some ([], h)
  | some hook => h.react depth (hook (t.view h))

/-- Renders a template anew and swaps the result into a document. -/
def redraw [Document δ] (depth : Nat) (t : Template σ) (document : δ) (external : Option Json)
    (h : Hub σ) : Option (Redrawing σ δ) :=
  if Document.contains document t.id then
    let r := t.render external h
    let t := r.template
    match r.result with
    | .error e => some ⟨.error e, [], r.warnings, t, document, r.hub⟩
    | .ok text => do
      let (begun, h) ← r.hub.emit depth t.emitter redrawEvent
      match Document.replace? document t.id text with
      | none => return ⟨.ok false, [begun], r.warnings, t, document, h⟩
      | some document =>
        let (drawn, h) ← h.emit depth t.emitter (drawnEvent text)
        let (more, h) ← t.runRendered depth h
        return ⟨.ok true, begun :: drawn :: more, r.warnings, t, document, h⟩
  else some ⟨.ok false, [], [], t, document, h⟩

end Stencil.Template
