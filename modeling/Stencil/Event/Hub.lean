import Stencil.Event.Basic
import Stencil.OrderedMap

/-!
# Delivery of events

A hub (`Hub`) holds emitters, the stores among them and the state of the client
whose reactions run. A store is an emitter with fields: setting a field puts the
value into its place and then announces the change.

An event is delivered to the listeners that hear it *at the moment it is
announced* (`Hub.emit`). Handlers run one after the other, each on the hub that
the one before it left behind; whatever they register or remove counts from the
next announcement on, and an announcement they make is delivered to its end
before they go on. So announcements nest, and what happened is a tree: an
announcement with the handlers it called, each with the announcements it made
(`Delivery`).

Reactions may call each other without end. Deliveries therefore nest to a given
depth at most, and a hub gives no answer when that is exceeded.
-/

namespace Stencil

/-- An announcement as it went: the event, and the listeners called, in order,
    each with the announcements that its handler made. -/
inductive Delivery
  /-- An event announced by `source`. -/
  | mk (source : EmitterId) (event : Event) (calls : List (ListenerId × List Delivery))

namespace Delivery

/-- The listeners called, with what their handlers announced. -/
def calls : Delivery → List (ListenerId × List Delivery)
  | mk _ _ calls => calls

/-- How many handlers ran. -/
def count (d : Delivery) : Nat := d.calls.length

end Delivery

/-- Emitters, stores, and the state of their client. -/
structure Hub (σ : Type) where
  /-- The emitters. -/
  emitters : OrderedMap EmitterId (Emitter σ)
  /-- The fields of those emitters that are stores. -/
  stores : OrderedMap EmitterId Json.Fields
  /-- The number of the next emitter. -/
  nextEmitter : Nat
  /-- The state that reactions read and change. -/
  client : σ

namespace Hub

variable {σ : Type}

/-- The hub without emitters. -/
def start (client : σ) : Hub σ := ⟨∅, ∅, 0, client⟩

/-- The event by which a store announces a change. -/
def changeEvent (key : String) (value : Json) : Event :=
  ⟨"change", some (.object [(key, value)])⟩

/-- The emitter of a handle; one that nobody listens to when there is none. -/
def emitter (h : Hub σ) (id : EmitterId) : Emitter σ := (h.emitters.get? id).getD .fresh

/-- The hub with a change to the emitter of a handle, if there is one. -/
def updateEmitter (h : Hub σ) (id : EmitterId) (f : Emitter σ → Emitter σ) : Hub σ :=
  match h.emitters.get? id with
  | some e => { h with emitters := h.emitters.insert id (f e) }
  | none => h

/-- The handle that the next emitter will be given. -/
def next (h : Hub σ) : EmitterId := ⟨h.nextEmitter⟩

/-- The hub with one more emitter, under the next handle. -/
def addEmitter (h : Hub σ) : Hub σ :=
  { h with
    emitters := h.emitters.insert h.next .fresh
    nextEmitter := h.nextEmitter + 1 }

/-- The hub with one more store, under the next handle. -/
def addStore (h : Hub σ) (fields : Json.Fields) : Hub σ :=
  { h.addEmitter with stores := h.stores.insert h.next fields }

/-- The hub without an emitter. Nobody hears what it would announce later. -/
def removeEmitter (h : Hub σ) (id : EmitterId) : Hub σ :=
  { h with emitters := h.emitters.erase id }

/-- The fields of a store; none when there is no such store. -/
def fields (h : Hub σ) (store : EmitterId) : Json.Fields := (h.stores.get? store).getD []

/-- The hub with a listener at an emitter. -/
def listen (h : Hub σ) (target : EmitterId) (filter : Option String) (handler : Handler σ) :
    Hub σ :=
  h.updateEmitter target fun e => e.listen filter handler

/-- The hub without a listener at an emitter. -/
def cancel (h : Hub σ) (target : EmitterId) (id : ListenerId) : Hub σ :=
  h.updateEmitter target fun e => e.cancel id

/-- The hub with a value in a field of a store, if there is such a store. -/
def putField (h : Hub σ) (store : EmitterId) (key : String) (value : Json) : Hub σ :=
  match h.stores.get? store with
  | some fs => { h with stores := h.stores.insert store (Json.Fields.insert key value fs) }
  | none => h

/-- A way to deliver events. -/
abbrev Deliver (σ : Type) := EmitterId → Event → Hub σ → Option (Delivery × Hub σ)

/-- Sets a field of a store and announces the change. Nothing happens when there
    is no such store. -/
def setWith (deliver : Deliver σ) (store : EmitterId) (key : String) (value : Json) (h : Hub σ) :
    Option (List Delivery × Hub σ) :=
  if h.stores.contains store then
    (deliver store (changeEvent key value) (h.putField store key value)).map fun (d, h) => ([d], h)
  else some ([], h)

/-- Runs a reaction: the announcements it made, in order, and the hub it left
    behind. -/
def perform (deliver : Deliver σ) : Reaction σ → Hub σ → Option (List Delivery × Hub σ)
  | .done, h => some ([], h)
  | .change f next, h => perform deliver next { h with client := f h.client }
  | .consult next, h => perform deliver (next h.client) h
  | .inspect store next, h => perform deliver (next (h.fields store)) h
  | .emit target event next, h => do
    let (d, h) ← deliver target event h
    let (ds, h) ← perform deliver (next d.count) h
    return (d :: ds, h)
  | .listen target filter handler next, h =>
    perform deliver (next (h.emitter target).next) (h.listen target filter (.react handler))
  | .cancel target id next, h =>
    perform deliver (next ((h.emitter target).knows id)) (h.cancel target id)
  | .set store key value next, h => do
    let (ds, h) ← h.setWith deliver store key value
    let (es, h) ← perform deliver next h
    return (ds ++ es, h)

/-- Runs a handler on an event. -/
def invoke (deliver : Deliver σ) (event : Event) : Handler σ → Hub σ →
    Option (List Delivery × Hub σ)
  | .react reaction, h => perform deliver (reaction event) h
  | .forward target, h => (deliver target event h).map fun (d, h) => ([d], h)

/-- Runs the handlers of some listeners on an event, in turn. -/
def invokeAll (deliver : Deliver σ) (event : Event) : List (Listener σ) → Hub σ →
    Option (List (ListenerId × List Delivery) × Hub σ)
  | [], h => some ([], h)
  | l :: ls, h => do
    let (ds, h) ← invoke deliver event l.handler h
    let (calls, h) ← invokeAll deliver event ls h
    return ((l.id, ds) :: calls, h)

/-- Announces an event to the listeners that hear it now, deliveries nesting at
    most `depth` deep. -/
def emit : (depth : Nat) → Deliver σ
  | 0, _, _, _ => none
  | depth + 1, source, event, h => do
    let (calls, h) ← invokeAll (emit depth) event ((h.emitter source).hearing event.name) h
    return (.mk source event calls, h)

/-- Sets a field of a store and announces the change. -/
def set (depth : Nat) (store : EmitterId) (key : String) (value : Json) (h : Hub σ) :
    Option (List Delivery × Hub σ) :=
  h.setWith (emit depth) store key value

/-- Runs a reaction on its own. -/
def react (depth : Nat) (r : Reaction σ) (h : Hub σ) : Option (List Delivery × Hub σ) :=
  perform (emit depth) r h

end Hub

end Stencil
