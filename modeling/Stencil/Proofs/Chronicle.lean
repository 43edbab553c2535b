import Mathlib.Data.List.Induction
import Stencil.Proofs.OrderedMap
import Stencil.Stage

/-!
# Chronicles

What happens on a stage, one thing after the other and however deeply announcements nest, is
a list of occurrences (`Occurrence`): announcements begin, call listeners and are over, and
between these, listeners register and are removed, values are put into stores, and templates
are made, bound to sources, released and dropped. Announcements are numbered as they begin,
so that it can be told which one calls a listener, although others may have begun since.

Some occurrences change the stage (`Occurrence.effect`), and a chronicle tells what the stage
is at every moment of it (`replay`).

Not every list of occurrences is the chronicle of something. A moment (`Moment`) is a stage
with the announcements that are under way, each with the listeners it has still to call, and
`Step` says what can happen next:

* an announcement that begins takes down the listeners that hear it at this moment;
* the innermost announcement calls the next of its listeners, whatever became of it since, or
  is over when none is left;
* a forwarding listener that was called announces the same event, before anything else;
* what changes the stage tells the truth about it (`Occurrence.Possible`).

What the handlers of listeners do is left open. A `Path` is what happens from one moment to
another, step by step.
-/

namespace Stencil

variable {σ : Type}

/-! ### Occurrences -/

/-- One thing that happens on a stage. -/
inductive Occurrence (σ : Type)
  /-- An announcement begins. Its cause is the number of the announcement that called the
      forwarding listener by which it is made, if it is not made by a program. -/
  | announced (n : Nat) (cause : Option Nat) (source : EmitterId) (event : Event)
  /-- An announcement calls a listener, whose handler begins to run. -/
  | called (n : Nat) (l : Listener σ) (event : Event)
  /-- An announcement is over, and answers how many handlers ran. -/
  | answered (n count : Nat)
  /-- A program registers a listener. -/
  | listened (target : EmitterId) (l : Listener σ)
  /-- A program has a listener removed, and is told whether it was there. -/
  | cancelled (target : EmitterId) (id : ListenerId) (found : Bool)
  /-- A value is put into a field of a store. -/
  | stored (store : EmitterId) (key : String) (value : Json)
  /-- The state of the client becomes another. -/
  | changed (client : σ)
  /-- A template is made. -/
  | created (draft : Draft σ)
  /-- A store is made. -/
  | opened (fields : Json.Fields)
  /-- A template is bound to a source, with the listener that it registers if this is a
      store. -/
  | bound (t : TemplateId) (source : Source) (registration : Option (EmitterId × Listener σ))
  /-- A template gives up its source, with the listener that it removes if this is a store,
      and whether it was there. -/
  | released (t : TemplateId) (removal : Option (EmitterId × ListenerId × Bool))
  /-- A template without a source goes away, and its emitter with it. -/
  | dropped (t : TemplateId)

/-! ### What occurrences do to a stage -/

/-- The store that a template watches and its listener there, if it watches one. -/
def Template.subscribed? (t : Template σ) : Option (EmitterId × ListenerId) :=
  match t.source.bind Source.watched?, t.subscription with
  | some store, some id => some (store, id)
  | _, _ => none

/-- The listener that a template would register at a store. -/
def Template.listenerAt (t : Template σ) (h : Hub σ) (store : EmitterId) : Listener σ :=
  ⟨(h.emitter store).next, none, .forward t.emitter⟩

namespace Stage

/-- The stage with another hub. -/
def withHub (s : Stage σ) (h : Hub σ) : Stage σ := { s with hub := h }

/-- The stage with a template bound to a source, if the template is there. -/
def bind (s : Stage σ) (t : TemplateId) (source : Source) : Stage σ :=
  match s.template? t with
  | some u => (s.put t (u.bind source s.hub).1).withHub (u.bind source s.hub).2
  | none => s

/-- The stage with a template that has given up its source, if the template is there. -/
def release (s : Stage σ) (t : TemplateId) : Stage σ :=
  match s.template? t with
  | some u => (s.put t u.withoutSource).withHub (u.unsubscribe s.hub)
  | none => s

/-- The stage without a template and its emitter. -/
def remove (s : Stage σ) (t : TemplateId) : Stage σ :=
  match s.template? t with
  | some u =>
    { s with
      hub := s.hub.removeEmitter u.emitter
      templates := s.templates.erase t }
  | none => s

end Stage

namespace Occurrence

/-- The stage after an occurrence. -/
def effect : Occurrence σ → Stage σ → Stage σ
  | listened target l, s => s.withHub (s.hub.listen target l.filter l.handler)
  | cancelled target id _, s => s.withHub (s.hub.cancel target id)
  | stored store key value, s => s.withHub (s.hub.putField store key value)
  | changed client, s => s.withHub { s.hub with client := client }
  | created draft, s => s.create draft
  | opened fields, s => s.withHub (s.hub.addStore fields)
  | bound t source _, s => s.bind t source
  | released t _, s => s.release t
  | dropped t, s => s.remove t
  | announced .., s | called .., s | answered .., s => s

/-- What can change a stage, and tells the truth about it. -/
def Possible (s : Stage σ) : Occurrence σ → Prop
  | listened target l =>
    s.hub.emitters.contains target = true ∧ l.id = (s.hub.emitter target).next ∧
      ∃ reaction, l.handler = .react reaction
  | cancelled target id found =>
    s.hub.emitters.contains target = true ∧ found = (s.hub.emitter target).knows id
  | stored store _ _ => s.hub.stores.contains store = true
  | changed _ | created _ | opened _ => True
  | bound t source registration =>
    ∃ u, s.template? t = some u ∧ u.source = none ∧
      (∀ store, source = .store store → s.hub.stores.contains store = true) ∧
      registration = source.watched?.map fun store => (store, u.listenerAt s.hub store)
  | released t removal =>
    ∃ u, s.template? t = some u ∧ u.source.isSome = true ∧
      removal = u.subscribed?.map fun r => (r.1, r.2, (s.hub.emitter r.1).knows r.2)
  | dropped t => ∃ u, s.template? t = some u ∧ u.source = none
  | announced .. | called .. | answered .. => False

/-- Whether an occurrence is the beginning of an announcement. -/
def isAnnouncement : Occurrence σ → Bool
  | announced .. => true
  | _ => false

/-- The listener, and the event, with which an announcement calls it. -/
def callBy? (n : Nat) : Occurrence σ → Option (Listener σ × Event)
  | called m l event => if m = n then some (l, event) else none
  | _ => none

/-- The emitter on which a forwarding listener called by an announcement announces an event
    again. -/
def relayBy? (n : Nat) : Occurrence σ → Option (EmitterId × Event)
  | announced _ (some m) target event => if m = n then some (target, event) else none
  | _ => none

/-- The registration of a listener, with the emitter. -/
def registration? : Occurrence σ → Option (EmitterId × Listener σ)
  | listened target l => some (target, l)
  | bound _ _ registration => registration
  | _ => none

/-- The removal of a listener, with the emitter, and whether it was there. -/
def removal? : Occurrence σ → Option (EmitterId × ListenerId × Bool)
  | cancelled target id found => some (target, id, found)
  | released _ removal => removal
  | _ => none

/-- The template that is bound to a source, gives up its source, or goes away. -/
def subject? : Occurrence σ → Option TemplateId
  | bound t _ _ | released t _ | dropped t => some t
  | _ => none

end Occurrence

/-- The stage after some occurrences. -/
def replay (s : Stage σ) (log : List (Occurrence σ)) : Stage σ :=
  log.foldl (fun s o => o.effect s) s

theorem replay_append (s : Stage σ) (log log' : List (Occurrence σ)) :
    replay s (log ++ log') = replay (replay s log) log' := List.foldl_append

theorem replay_concat (s : Stage σ) (log : List (Occurrence σ)) (o : Occurrence σ) :
    replay s (log ++ [o]) = o.effect (replay s log) := List.foldl_concat ..

/-- How many announcements begin. -/
def announcements (log : List (Occurrence σ)) : Nat := log.countP (·.isAnnouncement)

theorem announcements_append (log log' : List (Occurrence σ)) :
    announcements (log ++ log') = announcements log + announcements log' := List.countP_append

/-- The listeners that an announcement calls, each with the event, in turn. -/
def callsBy (n : Nat) (log : List (Occurrence σ)) : List (Listener σ × Event) :=
  log.filterMap (·.callBy? n)

/-- The emitters on which an announcement is announced again by forwarding listeners, each
    with the event, in turn. -/
def relaysBy (n : Nat) (log : List (Occurrence σ)) : List (EmitterId × Event) :=
  log.filterMap (·.relayBy? n)

/-- A chronicle in which at most one template is bound, released or dropped. -/
def Minds (x : Option TemplateId) (log : List (Occurrence σ)) : Prop :=
  ∀ o ∈ log, o.subject? = none ∨ o.subject? = x

namespace Minds

variable {x : Option TemplateId} {log log' : List (Occurrence σ)} {o : Occurrence σ}

theorem nil : Minds x ([] : List (Occurrence σ)) := fun _ ho => absurd ho List.not_mem_nil

theorem append (h : Minds x log) (h' : Minds x log') : Minds x (log ++ log') :=
  List.forall_mem_append.2 ⟨h, h'⟩

theorem cons (ho : o.subject? = none ∨ o.subject? = x) (h : Minds x log) : Minds x (o :: log) :=
  List.forall_mem_cons.2 ⟨ho, h⟩

theorem of_none (h : Minds none log) : Minds x log := fun o ho => .inl (or_self_iff.1 (h o ho))

end Minds

/-! ### Hubs -/

namespace Hub

variable (h : Hub σ) (e e' : EmitterId)

theorem updateEmitter_of_not_contains {h : Hub σ} {e : EmitterId}
    (he : h.emitters.contains e = false) (f : Emitter σ → Emitter σ) :
    h.updateEmitter e f = h := by
  rw [OrderedMap.contains, Option.isSome_eq_false_iff, Option.isNone_iff_eq_none] at he
  rw [updateEmitter, he]

theorem get?_updateEmitter (f : Emitter σ → Emitter σ) :
    (h.updateEmitter e f).emitters.get? e' =
      (h.emitters.get? e').map fun em => if e' = e then f em else em := by
  rw [updateEmitter]
  by_cases he : e' = e
  · subst he
    cases hget : h.emitters.get? e' with
    | none => simp [hget]
    | some em => simp [OrderedMap.get?_insert_self]
  · simp only [if_neg he, Option.map_id_fun', id_eq]
    cases h.emitters.get? e with
    | none => rfl
    | some em => exact OrderedMap.get?_insert_of_ne _ he _

@[simp] theorem stores_updateEmitter (f : Emitter σ → Emitter σ) :
    (h.updateEmitter e f).stores = h.stores := by
  rw [updateEmitter]
  cases h.emitters.get? e <;> rfl

@[simp] theorem nextEmitter_updateEmitter (f : Emitter σ → Emitter σ) :
    (h.updateEmitter e f).nextEmitter = h.nextEmitter := by
  rw [updateEmitter]
  cases h.emitters.get? e <;> rfl

@[simp] theorem emitters_putField (store : EmitterId) (key : String) (value : Json) :
    (h.putField store key value).emitters = h.emitters := by
  rw [putField]
  cases h.stores.get? store <;> rfl

@[simp] theorem nextEmitter_putField (store : EmitterId) (key : String) (value : Json) :
    (h.putField store key value).nextEmitter = h.nextEmitter := by
  rw [putField]
  cases h.stores.get? store <;> rfl

theorem contains_stores_putField (store store' : EmitterId) (key : String) (value : Json) :
    (h.putField store key value).stores.contains store' = h.stores.contains store' := by
  rw [putField]
  cases hget : h.stores.get? store with
  | none => rfl
  | some fields =>
    rw [Bool.eq_iff_iff, OrderedMap.contains_insert, or_iff_right_iff_imp]
    rintro rfl
    rw [OrderedMap.contains, hget]
    rfl

end Hub

/-! ### Sources of templates -/

namespace Template

variable (u : Template σ) (h : Hub σ)

/-- A template takes its listener away from the store it watches, and does nothing else. -/
theorem unsubscribe_eq :
    u.unsubscribe h = u.subscribed?.elim h fun r => h.cancel r.1 r.2 := by
  rw [unsubscribe, subscribed?]
  cases u.source.bind Source.watched? with
  | none => rfl
  | some store => cases u.subscription <;> rfl

end Template

namespace Stage

variable {s : Stage σ} {t : TemplateId} {u : Template σ}

theorem template?_put (s : Stage σ) (t : TemplateId) (u : Template σ) :
    (s.put t u).template? t = some u := OrderedMap.get?_insert_self _ _ _

theorem bind_eq (hu : s.template? t = some u) (source : Source) :
    s.bind t source = (s.put t (u.bind source s.hub).1).withHub (u.bind source s.hub).2 := by
  rw [bind, hu]

theorem release_eq (hu : s.template? t = some u) :
    s.release t = (s.put t u.withoutSource).withHub (u.unsubscribe s.hub) := by
  rw [release, hu]

theorem remove_eq (hu : s.template? t = some u) :
    s.remove t =
      { s with
        hub := s.hub.removeEmitter u.emitter
        templates := s.templates.erase t } := by
  rw [remove, hu]

end Stage

/-- A store that is there stays. -/
theorem Occurrence.contains_stores_effect (o : Occurrence σ) {s : Stage σ} {store : EmitterId}
    (h : s.hub.stores.contains store = true) :
    (o.effect s).hub.stores.contains store = true := by
  -- Whatever is done to the listeners of an emitter, stores are not touched.
  have hupdate : ∀ e f, (s.hub.updateEmitter e f).stores.contains store = true := by
    intro e f
    rwa [Hub.stores_updateEmitter]
  cases o with
  | listened target l => exact hupdate _ _
  | cancelled target id found => exact hupdate _ _
  | stored store' key value => exact (Hub.contains_stores_putField _ _ _ _ _).trans h
  | opened fields => exact (OrderedMap.contains_insert _ _ _ _).2 (.inr h)
  | bound t source registration =>
    rw [effect, Stage.bind]
    split
    · cases source with
      | value v => exact h
      | store store' => exact hupdate _ _
    · exact h
  | released t removal =>
    rw [effect, Stage.release]
    split
    · next u _ =>
      rw [Template.unsubscribe_eq]
      cases u.subscribed? with
      | none => exact h
      | some r => exact hupdate _ _
    · exact h
  | dropped t =>
    rw [effect, Stage.remove]
    split <;> exact h
  | _ => exact h

theorem contains_stores_replay {log : List (Occurrence σ)} {s : Stage σ} {store : EmitterId}
    (h : s.hub.stores.contains store = true) :
    (replay s log).hub.stores.contains store = true := by
  induction log generalizing s with
  | nil => exact h
  | cons o log ih => exact ih (o.contains_stores_effect h)

/-! ### Moments -/

/-- An announcement under way. -/
structure Announcement (σ : Type) where
  /-- Its number. -/
  number : Nat
  /-- What is announced. -/
  event : Event
  /-- The listeners that it has still to call. -/
  left : List (Listener σ)
  /-- How many listeners it called. -/
  called : Nat

/-- What there is at one moment. -/
structure Moment (σ : Type) where
  /-- The stage. -/
  stage : Stage σ
  /-- The number of the next announcement. -/
  next : Nat
  /-- What a forwarding listener that was just called is to announce: the number of the
      announcement that called it, the emitter and the event. -/
  due : Option (Nat × EmitterId × Event)
  /-- The announcements under way, the innermost first. -/
  underway : List (Announcement σ)

/-- The emitter to which a listener forwards, if it does. -/
def Listener.forwardsTo? (l : Listener σ) : Option EmitterId :=
  match l.handler with
  | .forward target => some target
  | .react _ => none

/-- What is due after an announcement called a listener. -/
def Listener.due? (l : Listener σ) (n : Nat) (event : Event) : Option (Nat × EmitterId × Event) :=
  l.forwardsTo?.map fun target => (n, target, event)

/-- The announcement that begins on a stage, with the listeners that hear it. -/
def Stage.begin (s : Stage σ) (n : Nat) (source : EmitterId) (event : Event) : Announcement σ :=
  ⟨n, event, (s.hub.emitter source).hearing event.name, 0⟩

/-- What can happen at a moment, and the moment after it. -/
inductive Step : Moment σ → Occurrence σ → Moment σ → Prop
  | announced {s : Stage σ} {n : Nat} {as : List (Announcement σ)} (source : EmitterId)
      (event : Event) :
      Step ⟨s, n, none, as⟩ (.announced n none source event)
        ⟨s, n + 1, none, s.begin n source event :: as⟩
  | relayed {s : Stage σ} {n m : Nat} {target : EmitterId} {event : Event}
      {as : List (Announcement σ)} :
      Step ⟨s, n, some (m, target, event), as⟩ (.announced n (some m) target event)
        ⟨s, n + 1, none, s.begin n target event :: as⟩
  | called {s : Stage σ} {n m c : Nat} {event : Event} {l : Listener σ} {ls : List (Listener σ)}
      {as : List (Announcement σ)} :
      Step ⟨s, n, none, ⟨m, event, l :: ls, c⟩ :: as⟩ (.called m l event)
        ⟨s, n, l.due? m event, ⟨m, event, ls, c + 1⟩ :: as⟩
  | answered {s : Stage σ} {n m c : Nat} {event : Event} {as : List (Announcement σ)} :
      Step ⟨s, n, none, ⟨m, event, [], c⟩ :: as⟩ (.answered m c) ⟨s, n, none, as⟩
  | acted {s : Stage σ} {n : Nat} {as : List (Announcement σ)} {o : Occurrence σ}
      (ho : o.Possible s) : Step ⟨s, n, none, as⟩ o ⟨o.effect s, n, none, as⟩

/-- What can happen from one moment to another. -/
inductive Path : Moment σ → List (Occurrence σ) → Moment σ → Prop
  | nil {m : Moment σ} : Path m [] m
  | cons {m m' m'' : Moment σ} {o : Occurrence σ} {log : List (Occurrence σ)}
      (hstep : Step m o m') (hpath : Path m' log m'') : Path m (o :: log) m''

variable {s s₁ s₂ : Stage σ} {m m' m'' : Moment σ} {o : Occurrence σ}
  {log log' : List (Occurrence σ)} {n : Nat} {as as' as'' : List (Announcement σ)}

theorem Path.append (h : Path m log m') (h' : Path m' log' m'') : Path m (log ++ log') m'' := by
  induction h with
  | nil => exact h'
  | cons hstep _ ih => exact .cons hstep (ih h')

theorem Path.exists_of_append (h : Path m (log ++ log') m'') :
    ∃ m', Path m log m' ∧ Path m' log' m'' := by
  induction log generalizing m with
  | nil => exact ⟨m, .nil, h⟩
  | cons o log ih =>
    cases h with
    | cons hstep hpath =>
      obtain ⟨m', hlog, hlog'⟩ := ih hpath
      exact ⟨m', .cons hstep hlog, hlog'⟩

theorem Path.of_step (h : Step m o m') : Path m [o] m' := .cons h .nil

/-- What holds at the beginning and is kept by every step, on the path to it, holds at the end. -/
theorem Path.concat_induction {motive : List (Occurrence σ) → Moment σ → Prop} (h : Path m log m')
    (nil : motive [] m)
    (concat : ∀ {log o m₁ m₂}, Path m log m₁ → Step m₁ o m₂ → motive log m₁ →
      motive (log ++ [o]) m₂) : motive log m' := by
  -- A path is taken apart at its beginning, so the induction is on the list, from its end.
  induction log using List.reverseRecOn generalizing m' with
  | nil =>
    cases h
    exact nil
  | append_singleton log o ih =>
    obtain ⟨m₁, hlog, h⟩ := h.exists_of_append
    cases h with
    | cons hstep hnil =>
      cases hnil
      exact concat hlog hstep (ih hlog)

/-- What can change a stage is no part of an announcement. -/
theorem Occurrence.Possible.eq_none (h : o.Possible s) (n : Nat) :
    o.isAnnouncement = false ∧ o.callBy? n = none ∧ o.relayBy? n = none := by
  cases o with
  | announced | called | answered => exact h.elim
  | _ => exact ⟨rfl, rfl, rfl⟩

theorem Step.stage_eq (h : Step m o m') : m'.stage = o.effect m.stage := by
  cases h with
  | _ => rfl

theorem Step.next_eq (h : Step m o m') : m'.next = m.next + announcements [o] := by
  cases h with
  | acted ho => simp [announcements, (ho.eq_none 0).1]
  | _ => rfl

/-- A chronicle tells the stage at its end. -/
theorem Path.stage_eq (h : Path m log m') : m'.stage = replay m.stage log := by
  induction h with
  | nil => rfl
  | cons hstep _ ih => rw [ih, hstep.stage_eq, replay, replay, List.foldl_cons]

theorem Path.next_eq (h : Path m log m') : m'.next = m.next + announcements log := by
  induction h with
  | nil => rfl
  | cons hstep _ ih =>
    rw [ih, hstep.next_eq, Nat.add_assoc, ← announcements_append, List.singleton_append]

/-- One path after another, when the announcements are counted along the way. -/
theorem Path.append_counted {due : Option (Nat × EmitterId × Event)}
    (hlog : Path ⟨s, n, due, as⟩ log ⟨s₁, n + announcements log, none, as'⟩)
    (hlog' : Path ⟨s₁, n + announcements log, none, as'⟩ log'
      ⟨s₂, n + announcements log + announcements log', none, as''⟩) :
    Path ⟨s, n, due, as⟩ (log ++ log') ⟨s₂, n + announcements (log ++ log'), none, as''⟩ := by
  rw [announcements_append, ← Nat.add_assoc]
  exact hlog.append hlog'

/-- A path that begins with a change of the stage, which is no announcement. -/
theorem Path.cons_acted (ho : o.Possible s)
    (hlog : Path ⟨o.effect s, n, none, as⟩ log ⟨s₁, n + announcements log, none, as'⟩) :
    Path ⟨s, n, none, as⟩ (o :: log) ⟨s₁, n + announcements (o :: log), none, as'⟩ := by
  have hcount : announcements (o :: log) = announcements log :=
    List.countP_cons_of_neg (by rw [(ho.eq_none 0).1]; simp)
  rw [hcount]
  exact .cons (.acted ho) hlog

end Stencil
