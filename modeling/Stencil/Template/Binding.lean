import Stencil.Template.Basic

/-!
# Data sources of templates

While a template is connected to a store, every event of the store is announced
again on the emitter of the template: a forwarding listener of its own stands at
the store (`Template.subscription`). Connecting releases the source before, and
a template that is let go takes its listener with it, without a word.
-/

namespace Stencil.Template

variable {σ : Type}

/-- The event announced when a source was connected. -/
def connectedEvent : Event := ⟨"connected", none⟩

/-- The event announced before a source is released. -/
def beforeDisconnectEvent : Event := ⟨"before_disconnect", none⟩

/-- The event announced when a source was released. -/
def disconnectedEvent : Event := ⟨"disconnected", none⟩

/-- The hub without the listener that a template has at the store it watches. -/
def unsubscribe (t : Template σ) (h : Hub σ) : Hub σ :=
  match t.source.bind Source.watched?, t.subscription with
  | some store, some id => h.cancel store id
  | _, _ => h

/-- The template without a source. -/
def withoutSource (t : Template σ) : Template σ :=
  { t with
    source := none
    subscription := none }

/-- Releases the source of a template: whether there was one, what was announced,
    and the template and the hub afterwards. -/
def disconnect (depth : Nat) (t : Template σ) (h : Hub σ) :
    Option (Bool × List Delivery × Template σ × Hub σ) :=
  match t.source with
  | none => some (false, [], t, h)
  | some _ => do
    let (before, h) ← h.emit depth t.emitter beforeDisconnectEvent
    let h := t.unsubscribe h
    let (after, h) ← h.emit depth t.emitter disconnectedEvent
    return (true, [before, after], t.withoutSource, h)

/-- The template bound to a source, with its listener there if the source is a
    store, and the hub afterwards. Nothing is announced. -/
def bind (t : Template σ) (source : Source) (h : Hub σ) : Template σ × Hub σ :=
  match source.watched? with
  | none => ({ t with source := some source }, h)
  | some store =>
    ({ t with source := some source, subscription := some (h.emitter store).next },
      h.listen store none (.forward t.emitter))

/-- Connects a template to a source, releasing the one before: what was
    announced, and the template and the hub afterwards. -/
def connect (depth : Nat) (t : Template σ) (source : Source) (h : Hub σ) :
    Option (List Delivery × Template σ × Hub σ) := do
  let (_, released, t, h) ← t.disconnect depth h
  let (t, h) := t.bind source h
  let (d, h) ← h.emit depth t.emitter connectedEvent
  return (released ++ [d], t, h)

/-- Lets a template go: the hub without its listener and without its emitter. -/
def discard (t : Template σ) (h : Hub σ) : Hub σ := (t.unsubscribe h).removeEmitter t.emitter

end Stencil.Template
