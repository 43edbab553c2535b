import Stencil.Proofs.Chronicle

/-!
# Accounts of deliveries

Delivering an event tells which handlers ran, but not what they did. Here all that runs
handlers is done once more with an account of it (`recordEmit`, `recordPerform`): what comes
out is the same, and beside it stands the chronicle of all that happened on the way,
announcements being numbered from a given number on.

* `map_snd_recordEmit`: an account changes nothing. Every delivery has one, and without the
  chronicle it is the delivery itself.
* `path_of_recordEmit`: the chronicle of a delivery is a path from the moment at which it
  begins, whatever is under way then, to the moment at which it is over.
-/

namespace Stencil

variable {σ α β : Type}

/-- A step of an account, told with what follows it. -/
theorem map_snd_bind {ω : Type} {x : Option (ω × α)} {f : ω × α → Option (ω × β)}
    {y : Option α} {g : α → Option β} (hx : x.map Prod.snd = y)
    (hf : ∀ r, (f r).map Prod.snd = g r.2) : (x.bind f).map Prod.snd = y.bind g := by
  subst hx
  cases x with
  | none => rfl
  | some r => exact hf r

namespace Hub

/-! ### Deliveries with an account -/

/-- A way to deliver events with an account: for a cause, from a number on. -/
abbrev RecordingDeliver (σ : Type) :=
  Option Nat → Nat → EmitterId → Event → Hub σ → Option (List (Occurrence σ) × Delivery × Hub σ)

/-- An occurrence that takes an emitter, if this is there. -/
def occurring (h : Hub σ) (target : EmitterId) (o : Occurrence σ) : List (Occurrence σ) :=
  if h.emitters.contains target then [o] else []

/-- Sets a field of a store and announces the change, with an account. -/
def recordSet (deliver : RecordingDeliver σ) (store : EmitterId) (key : String) (value : Json)
    (n : Nat) (h : Hub σ) : Option (List (Occurrence σ) × List Delivery × Hub σ) :=
  if h.stores.contains store then
    (deliver none n store (changeEvent key value) (h.putField store key value)).map
      fun (log, d, h) => (.stored store key value :: log, [d], h)
  else some ([], [], h)

/-- Runs a reaction, with an account. -/
def recordPerform (deliver : RecordingDeliver σ) : Reaction σ → Nat → Hub σ →
    Option (List (Occurrence σ) × List Delivery × Hub σ)
  | .done, _, h => some ([], [], h)
  | .change f next, n, h =>
    (recordPerform deliver next n { h with client := f h.client }).map fun (log, r) =>
      (.changed (f h.client) :: log, r)
  | .consult next, n, h => recordPerform deliver (next h.client) n h
  | .inspect store next, n, h => recordPerform deliver (next (h.fields store)) n h
  | .emit target event next, n, h => do
    let (log, d, h) ← deliver none n target event h
    let (log', ds, h) ← recordPerform deliver (next d.count) (n + announcements log) h
    return (log ++ log', d :: ds, h)
  | .listen target filter handler next, n, h =>
    let l : Listener σ := ⟨(h.emitter target).next, filter, .react handler⟩
    (recordPerform deliver (next l.id) n (h.listen target filter l.handler)).map fun (log, r) =>
      (h.occurring target (.listened target l) ++ log, r)
  | .cancel target id next, n, h =>
    let found := (h.emitter target).knows id
    (recordPerform deliver (next found) n (h.cancel target id)).map fun (log, r) =>
      (h.occurring target (.cancelled target id found) ++ log, r)
  | .set store key value next, n, h => do
    let (log, ds, h) ← recordSet deliver store key value n h
    let (log', es, h) ← recordPerform deliver next (n + announcements log) h
    return (log ++ log', ds ++ es, h)

/-- Runs a handler on an event, for the announcement of a number, with an account. -/
def recordInvoke (deliver : RecordingDeliver σ) (m : Nat) (event : Event) :
    Handler σ → Nat → Hub σ → Option (List (Occurrence σ) × List Delivery × Hub σ)
  | .react reaction, n, h => recordPerform deliver (reaction event) n h
  | .forward target, n, h =>
    (deliver (some m) n target event h).map fun (log, d, h) => (log, [d], h)

/-- Runs the handlers of some listeners on an event in turn, for the announcement of a number,
    with an account. -/
def recordInvokeAll (deliver : RecordingDeliver σ) (m : Nat) (event : Event) :
    List (Listener σ) → Nat → Hub σ →
    Option (List (Occurrence σ) × List (ListenerId × List Delivery) × Hub σ)
  | [], _, h => some ([], [], h)
  | l :: ls, n, h => do
    let (log, ds, h) ← recordInvoke deliver m event l.handler n h
    let (log', calls, h) ← recordInvokeAll deliver m event ls (n + announcements log) h
    return (.called m l event :: log ++ log', (l.id, ds) :: calls, h)

/-- Announces an event, with an account. -/
def recordEmit : (depth : Nat) → RecordingDeliver σ
  | 0, _, _, _, _, _ => none
  | depth + 1, cause, n, source, event, h => do
    -- Who hears the event is settled before any handler runs.
    let heard := (h.emitter source).hearing event.name
    let (log, calls, h) ← recordInvokeAll (recordEmit depth) n event heard (n + 1) h
    let d : Delivery := .mk source event calls
    return (.announced n cause source event :: log ++ [.answered n d.count], d, h)

/-! ### An account changes nothing -/

section

variable {deliver : RecordingDeliver σ} {deliver' : Deliver σ}

theorem map_snd_recordSet
    (hd : ∀ cause n source event h, (deliver cause n source event h).map Prod.snd =
      deliver' source event h) (store : EmitterId) (key : String) (value : Json) (n : Nat)
    (h : Hub σ) : (recordSet deliver store key value n h).map Prod.snd =
      h.setWith deliver' store key value := by
  rw [recordSet, setWith]
  split
  · rw [← hd none n, Option.map_map, Option.map_map]
    rfl
  · rfl

theorem map_snd_recordPerform
    (hd : ∀ cause n source event h, (deliver cause n source event h).map Prod.snd =
      deliver' source event h) (r : Reaction σ) (n : Nat) (h : Hub σ) :
    (recordPerform deliver r n h).map Prod.snd = perform deliver' r h := by
  induction r generalizing n h with
  | done => rfl
  | change f next ih =>
    rw [recordPerform, Option.map_map]
    exact ih n _
  | consult next ih => exact ih h.client n h
  | inspect store next ih => exact ih (h.fields store) n h
  | emit target event next ih =>
    refine map_snd_bind (hd none n target event h) fun r => ?_
    exact map_snd_bind (ih r.2.1.count _ r.2.2) fun _ => rfl
  | listen target filter handler next _ ih =>
    rw [recordPerform, Option.map_map]
    exact ih _ n _
  | cancel target id next ih =>
    rw [recordPerform, Option.map_map]
    exact ih _ n _
  | set store key value next ih =>
    refine map_snd_bind (map_snd_recordSet hd store key value n h) fun r => ?_
    exact map_snd_bind (ih _ r.2.2) fun _ => rfl

theorem map_snd_recordInvokeAll
    (hd : ∀ cause n source event h, (deliver cause n source event h).map Prod.snd =
      deliver' source event h) (m : Nat) (event : Event) (ls : List (Listener σ)) (n : Nat)
    (h : Hub σ) : (recordInvokeAll deliver m event ls n h).map Prod.snd =
      invokeAll deliver' event ls h := by
  have hinvoke : ∀ handler n h, (recordInvoke deliver m event handler n h).map Prod.snd =
      invoke deliver' event handler h := by
    intro handler n h
    cases handler with
    | react reaction => exact map_snd_recordPerform hd (reaction event) n h
    | forward target =>
      rw [recordInvoke, invoke, ← hd (some m) n, Option.map_map, Option.map_map]
      rfl
  induction ls generalizing n h with
  | nil => rfl
  | cons l ls ih =>
    refine map_snd_bind (hinvoke l.handler n h) fun r => ?_
    exact map_snd_bind (ih _ r.2.2) fun _ => rfl

end

/-- Without the chronicle, a delivery with an account is the delivery itself. -/
theorem map_snd_recordEmit (depth : Nat) (cause : Option Nat) (n : Nat) (source : EmitterId)
    (event : Event) (h : Hub σ) :
    (recordEmit depth cause n source event h).map Prod.snd = emit depth source event h := by
  induction depth generalizing cause n source event h with
  | zero => rfl
  | succ depth ih =>
    exact map_snd_bind (map_snd_recordInvokeAll ih n event _ (n + 1) h) fun _ => rfl

/-! ### An account is a path -/

/-- A way to deliver events whose chronicles are paths. -/
def Charts (deliver : RecordingDeliver σ) : Prop :=
  ∀ (cause : Option Nat) (n : Nat) (source : EmitterId) (event : Event) (s : Stage σ)
    (as : List (Announcement σ)) (log : List (Occurrence σ)) (d : Delivery) (h' : Hub σ),
    deliver cause n source event s.hub = some (log, d, h') →
      Path ⟨s, n, cause.map (·, source, event), as⟩ log
        ⟨s.withHub h', n + announcements log, none, as⟩

section

variable {deliver : RecordingDeliver σ} {s : Stage σ} {as : List (Announcement σ)} {n m : Nat}
  {log log' : List (Occurrence σ)} {h h' : Hub σ} {o : Occurrence σ} {target : EmitterId}

/-- What takes an emitter that is not there does not occur. -/
theorem path_occurring (ho : s.hub.emitters.contains target = true → o.Possible s)
    (heffect : o.effect s = s.withHub h)
    (hmissing : s.hub.emitters.contains target = false → h = s.hub)
    (hlog : Path ⟨s.withHub h, n, none, as⟩ log
      ⟨s.withHub h', n + announcements log, none, as⟩) :
    Path ⟨s, n, none, as⟩ (s.hub.occurring target o ++ log)
      ⟨s.withHub h', n + announcements (s.hub.occurring target o ++ log), none, as⟩ := by
  rw [occurring]
  cases ht : s.hub.emitters.contains target with
  | true => exact .cons_acted (ho ht) (heffect ▸ hlog)
  | false =>
    rw [hmissing ht] at hlog
    exact hlog

theorem path_of_recordSet (hd : Charts deliver) {store : EmitterId} {key : String} {value : Json}
    {ds : List Delivery} (hrun : recordSet deliver store key value n s.hub = some (log, ds, h')) :
    Path ⟨s, n, none, as⟩ log ⟨s.withHub h', n + announcements log, none, as⟩ := by
  rw [recordSet] at hrun
  split at hrun
  · next hstore =>
    obtain ⟨⟨log, d, h⟩, hlog, heq⟩ := Option.map_eq_some_iff.1 hrun
    cases heq
    exact .cons_acted hstore (hd none n _ _ (s.withHub (s.hub.putField store key value)) as _ _ _
      hlog)
  · cases hrun
    exact .nil

theorem path_of_recordPerform (hd : Charts deliver) {r : Reaction σ} {ds : List Delivery}
    (hrun : recordPerform deliver r n s.hub = some (log, ds, h')) :
    Path ⟨s, n, none, as⟩ log ⟨s.withHub h', n + announcements log, none, as⟩ := by
  -- The rest of a program runs on the stage that its beginning left, after as many announcements.
  induction r generalizing s n log ds with
  | done =>
    cases hrun
    exact .nil
  | change f next ih =>
    obtain ⟨⟨log, ds, h⟩, hlog, heq⟩ := Option.map_eq_some_iff.1 hrun
    cases heq
    exact .cons_acted (o := .changed (f s.hub.client)) trivial
      (ih (s := s.withHub { s.hub with client := f s.hub.client }) hlog)
  | consult next ih => exact ih s.hub.client hrun
  | inspect store next ih => exact ih (s.hub.fields store) hrun
  | emit target event next ih =>
    obtain ⟨⟨log, d, h⟩, hlog, hrun⟩ := Option.bind_eq_some_iff.1 hrun
    obtain ⟨⟨log', ds, h'⟩, hlog', heq⟩ := Option.bind_eq_some_iff.1 hrun
    cases heq
    exact .append_counted (hd none n target event s as _ _ _ hlog)
      (ih d.count (s := s.withHub h) hlog')
  | listen target filter handler next _ ih =>
    obtain ⟨⟨log, ds, h⟩, hlog, heq⟩ := Option.map_eq_some_iff.1 hrun
    cases heq
    exact path_occurring (fun ht => ⟨ht, rfl, handler, rfl⟩) rfl
      (fun ht => updateEmitter_of_not_contains ht _)
      (ih _ (s := s.withHub (s.hub.listen target filter (.react handler))) hlog)
  | cancel target id next ih =>
    obtain ⟨⟨log, ds, h⟩, hlog, heq⟩ := Option.map_eq_some_iff.1 hrun
    cases heq
    exact path_occurring (fun ht => ⟨ht, rfl⟩) rfl (fun ht => updateEmitter_of_not_contains ht _)
      (ih _ (s := s.withHub (s.hub.cancel target id)) hlog)
  | set store key value next ih =>
    obtain ⟨⟨log, ds, h⟩, hlog, hrun⟩ := Option.bind_eq_some_iff.1 hrun
    obtain ⟨⟨log', ds', h'⟩, hlog', heq⟩ := Option.bind_eq_some_iff.1 hrun
    cases heq
    exact Path.append_counted (path_of_recordSet hd hlog) (ih (s := s.withHub h) hlog')

/-- A listener that was called runs its handler: a reaction, or what is due at a forwarding
    listener. -/
theorem path_of_recordInvoke (hd : Charts deliver) {l : Listener σ} {event : Event}
    {ds : List Delivery}
    (hrun : recordInvoke deliver m event l.handler n s.hub = some (log, ds, h')) :
    Path ⟨s, n, l.due? m event, as⟩ log ⟨s.withHub h', n + announcements log, none, as⟩ := by
  obtain ⟨id, filter, handler⟩ := l
  cases handler with
  | react reaction => exact path_of_recordPerform hd hrun
  | forward target =>
    obtain ⟨⟨log, d, h⟩, hlog, heq⟩ := Option.map_eq_some_iff.1 hrun
    cases heq
    exact hd (some m) n target event s as _ _ _ hlog

theorem path_of_recordInvokeAll (as : List (Announcement σ)) (hd : Charts deliver)
    {event : Event} {ls : List (Listener σ)} {c : Nat} {calls : List (ListenerId × List Delivery)}
    (hrun : recordInvokeAll deliver m event ls n s.hub = some (log, calls, h')) :
    calls.length = ls.length ∧
      Path ⟨s, n, none, ⟨m, event, ls, c⟩ :: as⟩ log
        ⟨s.withHub h', n + announcements log, none, ⟨m, event, [], c + ls.length⟩ :: as⟩ := by
  -- Each call takes a listener away from those that are left and adds one to those called, so
  -- the sum of both is the same all along.
  induction ls generalizing s n c log calls with
  | nil =>
    cases hrun
    exact ⟨rfl, .nil⟩
  | cons l ls ih =>
    obtain ⟨⟨log, ds, h⟩, hlog, hrun⟩ := Option.bind_eq_some_iff.1 hrun
    obtain ⟨⟨log', calls', h'⟩, hlog', heq⟩ := Option.bind_eq_some_iff.1 hrun
    cases heq
    obtain ⟨hlength, hpath⟩ := ih (s := s.withHub h) (c := c + 1) hlog'
    refine ⟨congrArg (· + 1) hlength, ?_⟩
    rw [List.length_cons, Nat.add_comm ls.length, ← Nat.add_assoc]
    exact .cons .called (Path.append_counted (path_of_recordInvoke hd hlog) hpath)

end

theorem path_of_recordEmit (depth : Nat) : Charts (recordEmit depth : RecordingDeliver σ) := by
  induction depth with
  | zero => intro _ _ _ _ _ _ _ _ _ hrun; cases hrun
  | succ depth ih =>
    intro cause n source event s as log d h' hrun
    obtain ⟨⟨log, calls, h⟩, hlog, heq⟩ := Option.bind_eq_some_iff.1 hrun
    cases heq
    obtain ⟨hlength, hpath⟩ := path_of_recordInvokeAll as ih (c := 0) hlog
    rw [Nat.zero_add, ← hlength] at hpath
    have hcount : announcements
        (.announced n cause source event :: log ++ [.answered n calls.length]) =
        1 + announcements log := by
      rw [announcements_append]
      simp [announcements, Occurrence.isAnnouncement, Nat.add_comm]
    rw [Delivery.count, Delivery.calls, hcount, ← Nat.add_assoc]
    -- The announcement begins, by a program or because it is due; it calls its listeners;
    -- and then it is over.
    have hend := hpath.append (.of_step .answered)
    cases cause with
    | none => exact .cons (.announced source event) hend
    | some m => exact .cons .relayed hend

/-! ### Programs leave templates alone -/

theorem minds_occurring {log : List (Occurrence σ)} {o : Occurrence σ} (ho : o.subject? = none)
    (hlog : Minds none log) (h : Hub σ) (target : EmitterId) :
    Minds none (h.occurring target o ++ log) := by
  rw [occurring]
  split
  · exact .cons (.inl ho) hlog
  · exact hlog

section

variable {deliver : RecordingDeliver σ} {log : List (Occurrence σ)} {h h' : Hub σ} {n : Nat}

theorem minds_of_recordPerform
    (hd : ∀ cause n source event h log d h',
      deliver cause n source event h = some (log, d, h') → Minds none log)
    {r : Reaction σ} {ds : List Delivery}
    (hrun : recordPerform deliver r n h = some (log, ds, h')) : Minds none log := by
  induction r generalizing h n log ds with
  | done =>
    cases hrun
    exact .nil
  | change f next ih =>
    obtain ⟨⟨log, ds, h⟩, hlog, heq⟩ := Option.map_eq_some_iff.1 hrun
    cases heq
    exact .cons (.inl rfl) (ih hlog)
  | consult next ih => exact ih h.client hrun
  | inspect store next ih => exact ih (h.fields store) hrun
  | emit target event next ih =>
    obtain ⟨⟨log, d, h⟩, hlog, hrun⟩ := Option.bind_eq_some_iff.1 hrun
    obtain ⟨⟨log', ds, h'⟩, hlog', heq⟩ := Option.bind_eq_some_iff.1 hrun
    cases heq
    exact (hd _ _ _ _ _ _ _ _ hlog).append (ih d.count hlog')
  | listen target filter handler next _ ih =>
    obtain ⟨⟨log, ds, h⟩, hlog, heq⟩ := Option.map_eq_some_iff.1 hrun
    cases heq
    exact minds_occurring rfl (ih _ hlog) _ _
  | cancel target id next ih =>
    obtain ⟨⟨log, ds, h⟩, hlog, heq⟩ := Option.map_eq_some_iff.1 hrun
    cases heq
    exact minds_occurring rfl (ih _ hlog) _ _
  | set store key value next ih =>
    obtain ⟨⟨log, ds, h₁⟩, hlog, hrun⟩ := Option.bind_eq_some_iff.1 hrun
    obtain ⟨⟨log', ds', h'⟩, hlog', heq⟩ := Option.bind_eq_some_iff.1 hrun
    cases heq
    refine Minds.append ?_ (ih hlog')
    rw [recordSet] at hlog
    split at hlog
    · obtain ⟨⟨log, d, h⟩, hlog, heq⟩ := Option.map_eq_some_iff.1 hlog
      cases heq
      exact .cons (.inl rfl) (hd _ _ _ _ _ _ _ _ hlog)
    · cases hlog
      exact .nil

theorem minds_of_recordInvokeAll
    (hd : ∀ cause n source event h log d h',
      deliver cause n source event h = some (log, d, h') → Minds none log)
    {m : Nat} {event : Event} {ls : List (Listener σ)} {calls : List (ListenerId × List Delivery)}
    (hrun : recordInvokeAll deliver m event ls n h = some (log, calls, h')) : Minds none log := by
  induction ls generalizing h n log calls with
  | nil =>
    cases hrun
    exact .nil
  | cons l ls ih =>
    obtain ⟨⟨log, ds, h⟩, hlog, hrun⟩ := Option.bind_eq_some_iff.1 hrun
    obtain ⟨⟨log', calls', h'⟩, hlog', heq⟩ := Option.bind_eq_some_iff.1 hrun
    cases heq
    refine Minds.cons (.inl rfl) (Minds.append ?_ (ih hlog'))
    obtain ⟨id, filter, handler⟩ := l
    cases handler with
    | react reaction => exact minds_of_recordPerform hd hlog
    | forward target =>
      obtain ⟨⟨log, d, h⟩, hlog, heq⟩ := Option.map_eq_some_iff.1 hlog
      cases heq
      exact hd _ _ _ _ _ _ _ _ hlog

end

/-- Whatever handlers do, no template is bound, released or dropped. -/
theorem minds_of_recordEmit (depth : Nat) (cause : Option Nat) (n : Nat) (source : EmitterId)
    (event : Event) (h : Hub σ) (log : List (Occurrence σ)) (d : Delivery) (h' : Hub σ)
    (hrun : recordEmit depth cause n source event h = some (log, d, h')) : Minds none log := by
  induction depth generalizing cause n source event h log d h' with
  | zero => cases hrun
  | succ depth ih =>
    obtain ⟨⟨log, calls, h⟩, hlog, heq⟩ := Option.bind_eq_some_iff.1 hrun
    cases heq
    exact .cons (.inl rfl) ((minds_of_recordInvokeAll ih hlog).append (.cons (.inl rfl) .nil))

end Hub

end Stencil
