import Stencil.Json.Basic

/-!
# Events, listeners and reactions

An emitter announces events to its listeners, one after the other in the order
in which they registered, each before the next. A listener hears the events of
one name, or all of them.

What a listener does is its handler. One kind of handler passes every event on
to another emitter. Any other is a *reaction* to the event (`Reaction`): a
program that may announce events itself, register and remove listeners and set
the fields of stores, on any emitter including its own, and may read and change
the state `σ` of its owner. A reaction is a finite tree, branching over the
answers it gets, so what it does can be followed step by step.

An emitter numbers its listeners, and the number is the handle by which a
listener is removed again. Numbers are never used twice, which the invariant
`Emitter.Ordered` makes precise:

* `Ordered.listen`, `Ordered.cancel`: it is kept by registering and removing.
-/

namespace Stencil

/-- Something that happened. -/
structure Event where
  /-- What happened. -/
  name : String
  /-- What is told about it. -/
  payload : Option Json

/-- The handle of an emitter. -/
structure EmitterId where
  /-- Its number. -/
  index : Nat
  deriving DecidableEq

/-- The handle of a listener, at its emitter. -/
structure ListenerId where
  /-- Its number. -/
  index : Nat
  deriving DecidableEq

/-- A handle as diagnostics show it. -/
def ListenerId.described (id : ListenerId) : String := "ListenerId(" ++ id.index.repr ++ ")"

/-- What is done about an event. -/
inductive Reaction (σ : Type)
  /-- Nothing more. -/
  | done
  /-- Changes the state of the owner, and goes on. -/
  | change (f : σ → σ) (next : Reaction σ)
  /-- Goes on as the state of the owner tells. -/
  | consult (next : σ → Reaction σ)
  /-- Goes on as the fields of a store tell. -/
  | inspect (store : EmitterId) (next : Json.Fields → Reaction σ)
  /-- Announces an event, and goes on, knowing how many handlers ran. -/
  | emit (target : EmitterId) (event : Event) (next : Nat → Reaction σ)
  /-- Registers a listener for the events of one name, or for all, and goes on,
      knowing its handle. -/
  | listen (target : EmitterId) (filter : Option String) (handler : Event → Reaction σ)
      (next : ListenerId → Reaction σ)
  /-- Removes a listener, and goes on, knowing whether it was there. -/
  | cancel (target : EmitterId) (id : ListenerId) (next : Bool → Reaction σ)
  /-- Sets a field of a store, which announces the change, and goes on. -/
  | set (store : EmitterId) (key : String) (value : Json) (next : Reaction σ)

instance {σ : Type} : Inhabited (Reaction σ) := ⟨.done⟩

/-- What a listener does with an event. -/
inductive Handler (σ : Type)
  /-- It reacts. -/
  | react (reaction : Event → Reaction σ)
  /-- It announces the same event on another emitter. -/
  | forward (target : EmitterId)

/-- Somebody who waits for events. -/
structure Listener (σ : Type) where
  /-- The handle it was given. -/
  id : ListenerId
  /-- The name of the events it hears, if not all. -/
  filter : Option String
  /-- What it does with them. -/
  handler : Handler σ

/-- Whether a listener hears the events of a name. -/
def Listener.hears {σ : Type} (l : Listener σ) (name : String) : Bool :=
  match l.filter with
  | none => true
  | some n => decide (n = name)

/-- An announcer of events. -/
structure Emitter (σ : Type) where
  /-- The listeners, in the order in which they registered. -/
  listeners : List (Listener σ)
  /-- The number of the next listener. -/
  nextId : Nat

namespace Emitter

variable {σ : Type}

/-- The emitter that nobody has listened to yet. -/
def fresh : Emitter σ := ⟨[], 0⟩

instance : Inhabited (Emitter σ) := ⟨fresh⟩

/-- The handle that the next listener will be given. -/
def next (e : Emitter σ) : ListenerId := ⟨e.nextId⟩

/-- The emitter with one more listener, which is given the next handle. -/
def listen (e : Emitter σ) (filter : Option String) (handler : Handler σ) : Emitter σ :=
  ⟨e.listeners ++ [⟨e.next, filter, handler⟩], e.nextId + 1⟩

/-- Whether there is a listener with the given handle. -/
def knows (e : Emitter σ) (id : ListenerId) : Bool := e.listeners.any fun l => decide (l.id = id)

/-- The emitter without the listener of the given handle. -/
def cancel (e : Emitter σ) (id : ListenerId) : Emitter σ :=
  { e with listeners := e.listeners.filter fun l => decide (l.id ≠ id) }

/-- The listeners that hear the events of a name. -/
def hearing (e : Emitter σ) (name : String) : List (Listener σ) :=
  e.listeners.filter (·.hears name)

/-- An emitter as diagnostics show it. -/
def described (e : Emitter σ) : String :=
  "EventEmitter \x7b listeners: " ++ e.listeners.length.repr ++ " \x7d"

/-- Handles increase along the listeners, and are below the next one. -/
structure Ordered (e : Emitter σ) : Prop where
  increasing : e.listeners.Pairwise fun l m => l.id.index < m.id.index
  below : ∀ l ∈ e.listeners, l.id.index < e.nextId

theorem ordered_fresh : (fresh : Emitter σ).Ordered := ⟨List.Pairwise.nil, by simp [fresh]⟩

theorem Ordered.listen {e : Emitter σ} (h : e.Ordered) (filter : Option String)
    (handler : Handler σ) : (e.listen filter handler).Ordered where
  increasing := by
    rw [Emitter.listen, List.pairwise_append]
    exact ⟨h.increasing, List.pairwise_singleton _ _, fun l hl m hm => by
      rw [List.mem_singleton.1 hm]
      exact h.below l hl⟩
  below l hl := by
    rw [Emitter.listen] at hl ⊢
    rcases List.mem_append.1 hl with hl | hl
    · exact Nat.lt_succ_of_lt (h.below l hl)
    · rw [List.mem_singleton.1 hl]
      exact Nat.lt_succ_self _

theorem Ordered.cancel {e : Emitter σ} (h : e.Ordered) (id : ListenerId) :
    (e.cancel id).Ordered where
  increasing := h.increasing.sublist List.filter_sublist
  below l hl := h.below l (List.mem_filter.1 hl).1

end Emitter

end Stencil
